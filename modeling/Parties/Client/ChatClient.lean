import Parties.Server.ChatHandlers

/-!
# The chat of the client

Mirror of the chat handlers of `AppCore` and of the callbacks of its chat model
(`client/src/app_core.cpp`). What the views derive from a message (initials, colors,
links, dates, the unit of a size) is left out. A handler gives the messages it sends
to the server, or the files it uploads.
-/

namespace Parties.Client

open Parties.Wire Parties.Wire.BinaryReader

/-! ### What is on screen -/

structure ShownAttachment where
  id : BitVec 64
  fileName : Bytes
  fileSize : BitVec 64
  uploaded : Bool
deriving DecidableEq, Repr

structure ShownMessage where
  id : BitVec 64
  senderId : BitVec 32
  senderName : Bytes
  isOwn : Bool
  rawTimestamp : BitVec 64
  text : Bytes
  pinned : Bool
  attachments : List ShownAttachment
deriving DecidableEq, Repr

structure TextChannelTab where
  id : BitVec 32
  name : Bytes
  hasUnread : Bool := false
deriving DecidableEq, Repr

/-- A file the user attached; none when it cannot be read. -/
structure PendingFile where
  name : Bytes
  data : Option Bytes
deriving DecidableEq, Repr

/-- A file that waits for its attachment id. -/
structure PendingUpload where
  name : Bytes
  data : Bytes
deriving DecidableEq, Repr

/-- A call of `upload_file`. -/
structure Upload where
  attachmentId : BitVec 64
  data : Bytes
deriving DecidableEq, Repr

structure ChatClient where
  userId : UserId
  activeChannel : BitVec 32 := 0
  activeChannelName : Bytes := []
  messages : List ShownMessage := []
  hasMoreHistory : Bool := false
  textChannels : List TextChannelTab := []
  searchResults : List ShownMessage := []
  pinnedMessages : List ShownMessage := []
  pendingUploads : List PendingUpload := []
deriving DecidableEq, Repr

/-! ### Files -/

def PendingFile.read (file : PendingFile) : Option PendingUpload :=
  file.data.map fun data => { name := file.name, data }

def OCTET_STREAM : Bytes := "application/octet-stream".toUTF8.toList

/-- A file as the request announces it. -/
def PendingUpload.write (pu : PendingUpload) : Bytes :=
  writeText pu.name ++ (writeU64 (BitVec.ofNat 64 pu.data.length) ++ writeText OCTET_STREAM)

/-! ### Reading messages -/

def parseChatAttachment : Reads ShownAttachment := do
  let id ← readU64
  let fileName ← readString
  let fileSize ← readU64
  let _mime ← readString
  let uploaded ← readU8
  return { id, fileName, fileSize, uploaded := uploaded ≠ 0 }

def parseChatMessage (myUserId : UserId) : Reads ShownMessage := do
  let id ← readU64
  let _channelId ← readU32
  let senderId ← readU32
  let senderName ← readString
  let rawTimestamp ← readU64
  let text ← readString
  let pinned ← readU8
  let attCount ← readU8
  let attachments ← readWhileOk parseChatAttachment attCount.toNat
  return {
    id, senderId, senderName, isOwn := senderId = myUserId, rawTimestamp, text
    pinned := pinned ≠ 0, attachments }

/-- The channel of a message, which its parser passes over. -/
def peekChannel : Reads (BitVec 32) := do
  let _id ← readU64
  readU32

structure HistoryHead where
  channel : BitVec 32
  hasMore : Bool
  count : BitVec 16
deriving DecidableEq, Repr

def readHistoryHead : Reads HistoryHead := do
  let channel ← readU32
  let hasMore ← readU8
  let count ← readU16
  return { channel, hasMore := hasMore ≠ 0, count }

/-- The count of a list of results, behind its channel. -/
def readResultCount : Reads (BitVec 16) := do
  let _channel ← readU32
  readU16

def readIdAndChannel : Reads (BitVec 64 × BitVec 32) := do
  let id ← readU64
  let channel ← readU32
  return (id, channel)

def readFileReady : Reads (BitVec 64 × BitVec 64) := do
  let messageId ← readU64
  let attachmentId ← readU64
  return (messageId, attachmentId)

namespace ChatClient

def MAX_SHOWN_MESSAGES : Nat := 30

/-- The messages of a list, also one cut off at its end. -/
def parseMessages (k : ChatClient) (count : BitVec 16) (reader : BinaryReader) :
    List ShownMessage :=
  ((readWhileOk (parseChatMessage k.userId) count.toNat).run reader).1

/-! ### Messages from the server -/

/-- Put a message in the place of the first with its id, else behind the others. -/
def putMessage (msg : ShownMessage) : List ShownMessage → List ShownMessage
  | [] => [msg]
  | m :: msgs => if m.id = msg.id then msg :: msgs else m :: putMessage msg msgs

/-- Set the unread mark of the first tab of a channel. -/
def markTab (channel : BitVec 32) (unread : Bool) : List TextChannelTab → List TextChannelTab
  | [] => []
  | tc :: tabs =>
    if tc.id = channel then { tc with hasUnread := unread } :: tabs
    else tc :: markTab channel unread tabs

/-- Set the first attachment of an id to uploaded. -/
def markUploaded (attachmentId : BitVec 64) : List ShownAttachment → List ShownAttachment
  | [] => []
  | att :: attachments =>
    if att.id = attachmentId then { att with uploaded := true } :: attachments
    else att :: markUploaded attachmentId attachments

/-- The same in the first message of an id. -/
def markFileReady (messageId attachmentId : BitVec 64) : List ShownMessage → List ShownMessage
  | [] => []
  | m :: msgs =>
    if m.id = messageId then
      { m with attachments := markUploaded attachmentId m.attachments } :: msgs
    else m :: markFileReady messageId attachmentId msgs

/-- Own messages take the pending files with them, by position. -/
def uploadsFor (k : ChatClient) (msg : ShownMessage) : List Upload :=
  if msg.senderId = k.userId then
    List.zipWith (fun att pu => ⟨att.id, pu.data⟩) msg.attachments k.pendingUploads
  else []

def dropUploads (k : ChatClient) (msg : ShownMessage) : ChatClient :=
  if msg.senderId = k.userId then { k with pendingUploads := [] } else k

def showMessage (k : ChatClient) (msg : ShownMessage) : ChatClient :=
  let msgs := putMessage msg k.messages
  if MAX_SHOWN_MESSAGES < msgs.length then
    { k with messages := msgs.drop (msgs.length - MAX_SHOWN_MESSAGES), hasMoreHistory := true }
  else { k with messages := msgs }

def onChatMessage (k : ChatClient) (payload : Bytes) : ChatClient × List Upload :=
  match parse (parseChatMessage k.userId) payload with
  | none => (k, [])
  | some (msg, _) =>
    let channel := (peekChannel.run { rest := payload }).1
    let uploads := k.uploadsFor msg
    let k := k.dropUploads msg
    if channel = k.activeChannel then (k.showMessage msg, uploads)
    else ({ k with textChannels := markTab channel true k.textChannels }, uploads)

def onChatHistoryResp (k : ChatClient) (payload : Bytes) : ChatClient :=
  match parse readHistoryHead payload with
  | none => k
  | some (head, reader) =>
    if head.channel ≠ k.activeChannel then k
    else { k with
      messages := k.parseMessages head.count reader ++ k.messages
      hasMoreHistory := head.hasMore }

def onChatMessageDeleted (k : ChatClient) (payload : Bytes) : ChatClient :=
  match parse readIdAndChannel payload with
  | none => k
  | some ((messageId, channel), _) =>
    if channel ≠ k.activeChannel then k
    else { k with messages := k.messages.filter fun m => m.id ≠ messageId }

def onChatSearchResp (k : ChatClient) (payload : Bytes) : ChatClient :=
  match parse readResultCount payload with
  | none => k
  | some (count, reader) => { k with searchResults := k.parseMessages count reader }

def onChatPinnedResp (k : ChatClient) (payload : Bytes) : ChatClient :=
  match parse readResultCount payload with
  | none => k
  | some (count, reader) => { k with pinnedMessages := k.parseMessages count reader }

def onChatFileReady (k : ChatClient) (payload : Bytes) : ChatClient :=
  match parse readFileReady payload with
  | none => k
  | some ((messageId, attachmentId), _) =>
    { k with messages := markFileReady messageId attachmentId k.messages }

/-- The chat cases of `handle_server_message`. -/
def handleServerMessage (k : ChatClient) (message : Wire.ControlMessage) : ChatClient × List Upload :=
  if message.type = 0x0501 then k.onChatMessage message.payload
  else if message.type = 0x0502 then (k.onChatHistoryResp message.payload, [])
  else if message.type = 0x0503 then (k.onChatMessageDeleted message.payload, [])
  else if message.type = 0x0505 then (k.onChatFileReady message.payload, [])
  else if message.type = 0x0506 then (k.onChatSearchResp message.payload, [])
  else if message.type = 0x0507 then (k.onChatPinnedResp message.payload, [])
  else (k, [])

/-! ### Requests of the user -/

def CHAT_SEND : BitVec 16 := 0x0401
def CHAT_HISTORY_REQ : BitVec 16 := 0x0402
def CHAT_PIN : BitVec 16 := 0x0403
def CHAT_UNPIN : BitVec 16 := 0x0404
def CHAT_DELETE : BitVec 16 := 0x0405

def HISTORY_PAGE : BitVec 16 := 30

def historyReq (channel : BitVec 32) (before : BitVec 64) : Wire.ControlMessage :=
  ⟨CHAT_HISTORY_REQ, writeU32 channel ++ (writeU64 before ++ writeU16 HISTORY_PAGE)⟩

def selectChannel (k : ChatClient) (channel : BitVec 32) : ChatClient × List Wire.ControlMessage :=
  ({ k with
    activeChannel := channel
    activeChannelName := match k.textChannels.find? fun tc => tc.id = channel with
      | some tc => tc.name
      | none => k.activeChannelName
    textChannels := markTab channel false k.textChannels
    messages := []
    hasMoreHistory := false }, [historyReq channel 0])

/-- The part of `join_channel` that turns to the voice channels. -/
def joinChannel (k : ChatClient) : ChatClient :=
  { k with activeChannel := 0, activeChannelName := [] }

def sendReq (channel : BitVec 32) (text : Bytes) (uploads : List PendingUpload) :
    Wire.ControlMessage :=
  ⟨CHAT_SEND, writeU32 channel ++ (writeText text ++
    (writeU8 (BitVec.ofNat 8 uploads.length) ++ uploads.flatMap PendingUpload.write))⟩

def sendMessage (k : ChatClient) (composeText : Bytes) (pendingFiles : List PendingFile) :
    ChatClient × List Wire.ControlMessage :=
  if k.activeChannel = 0 then (k, [])
  else if composeText.isEmpty && pendingFiles.isEmpty then (k, [])
  else
    let uploads := pendingFiles.filterMap PendingFile.read
    ({ k with pendingUploads := uploads }, [sendReq k.activeChannel composeText uploads])

def loadMoreHistory (k : ChatClient) : List Wire.ControlMessage :=
  match k.messages with
  | [] => []
  | front :: _ => if !k.hasMoreHistory then [] else [historyReq k.activeChannel front.id]

def pinMessage (id : BitVec 64) : Wire.ControlMessage := ⟨CHAT_PIN, writeU64 id⟩

def unpinMessage (id : BitVec 64) : Wire.ControlMessage := ⟨CHAT_UNPIN, writeU64 id⟩

def deleteMessage (id : BitVec 64) : Wire.ControlMessage := ⟨CHAT_DELETE, writeU64 id⟩

end ChatClient

end Parties.Client

import Parties.Server.ChatStore
import Parties.Server.Handlers
import Parties.Wire.ControlFraming

/-!
# Lists and chat

Mirror of `Server::send_channel_list`, of the user lists written behind a login and a
join, and of the chat cases of `Server::handle_message` (`server/src/server.cpp`).
Chat requests come as the payload of the control message. What comes from the system
is part of the request: the clock, the month and whether the statements on the
database succeed.
-/

namespace Parties

open Parties.Wire

/-! ### Messages -/

structure ListedChannel where
  id : ChannelId
  name : String
  maxUsers : BitVec 32
  sortOrder : BitVec 32
  userCount : BitVec 32
deriving DecidableEq, Repr

/-- An attachment as it travels with its message. -/
structure ChatAttachment where
  id : BitVec 64
  fileName : Bytes
  fileSize : BitVec 64
  mimeType : Bytes
  uploaded : Bool
deriving DecidableEq, Repr

def AttachmentRow.toChatAttachment (a : AttachmentRow) : ChatAttachment where
  id := a.id
  fileName := a.fileName
  fileSize := a.fileSize
  mimeType := a.mimeType
  uploaded := a.uploaded

structure ChatMessage where
  row : MessageRow
  attachments : List ChatAttachment := []
deriving DecidableEq, Repr

/-- The messages the handlers below send. -/
inductive ChatReply where
  | serverError (text : String)
  | channelList (channels : List ListedChannel)
  | channelUserList (channel : ChannelId) (users : List ChannelUser)
  | chatMessage (message : ChatMessage)
  | chatHistoryResp (channel : BitVec 32) (hasMore : Bool) (messages : List ChatMessage)
  | chatMessageDeleted (id : BitVec 64) (channel : BitVec 32)
  | chatSearchResp (channel : BitVec 32) (messages : List ChatMessage)
  | chatPinnedResp (channel : BitVec 32) (messages : List ChatMessage)
deriving DecidableEq, Repr

/-! ### Their bytes -/

def writeBool (b : Bool) : Bytes := writeU8 (if b then 1 else 0)

def ListedChannel.write (channel : ListedChannel) : Bytes :=
  writeU32 channel.id ++ writeString channel.name ++ writeU32 channel.maxUsers ++
    writeU32 channel.sortOrder ++ writeU32 channel.userCount

def ChannelUser.write (user : ChannelUser) : Bytes :=
  writeU32 user.userId ++ writeString user.username ++ writeU8 user.role ++
    writeBool user.muted ++ writeBool user.deafened

def ChatAttachment.write (a : ChatAttachment) : Bytes :=
  writeU64 a.id ++ writeText a.fileName ++ writeU64 a.fileSize ++ writeText a.mimeType ++
    writeBool a.uploaded

def MessageRow.write (m : MessageRow) : Bytes :=
  writeU64 m.id ++ writeU32 m.channelId ++ writeU32 m.senderId ++ writeText m.senderName ++
    writeU64 m.createdAt ++ writeText m.text ++ writeBool m.pinned

def ChatMessage.write (m : ChatMessage) : Bytes :=
  m.row.write ++ writeU8 (BitVec.ofNat 8 m.attachments.length) ++
    m.attachments.flatMap ChatAttachment.write

namespace ChatReply

/-- `ControlMessageType`. -/
def type : ChatReply → BitVec 16
  | .serverError _ => 0x01FF
  | .channelList _ => 0x0102
  | .channelUserList _ _ => 0x0103
  | .chatMessage _ => 0x0501
  | .chatHistoryResp _ _ _ => 0x0502
  | .chatMessageDeleted _ _ => 0x0503
  | .chatSearchResp _ _ => 0x0506
  | .chatPinnedResp _ _ => 0x0507

/-- What stands in front of the count of a list. -/
def head : ChatReply → Bytes
  | .serverError text => writeU16 0 ++ writeString text
  | .channelList _ => []
  | .channelUserList channel _ => writeU32 channel
  | .chatMessage message => message.row.write
  | .chatHistoryResp channel hasMore _ => writeU32 channel ++ writeBool hasMore
  | .chatMessageDeleted id channel => writeU64 id ++ writeU32 channel
  | .chatSearchResp channel _ => writeU32 channel
  | .chatPinnedResp channel _ => writeU32 channel

/-- The count and the list behind it. -/
def list : ChatReply → Bytes
  | .serverError _ => []
  | .channelList channels =>
      writeU32 (BitVec.ofNat 32 channels.length) ++ channels.flatMap ListedChannel.write
  | .channelUserList _ users =>
      writeU32 (BitVec.ofNat 32 users.length) ++ users.flatMap ChannelUser.write
  | .chatMessage message =>
      writeU8 (BitVec.ofNat 8 message.attachments.length) ++
        message.attachments.flatMap ChatAttachment.write
  | .chatHistoryResp _ _ messages | .chatSearchResp _ messages | .chatPinnedResp _ messages =>
      writeU16 (BitVec.ofNat 16 messages.length) ++ messages.flatMap ChatMessage.write
  | .chatMessageDeleted _ _ => []

def encode (reply : ChatReply) : Wire.ControlMessage where
  type := reply.type
  payload := reply.head ++ reply.list

end ChatReply

/-! ### The handlers -/

structure ChatConfig where
  maxMessageLength : Int := 4000
  /-- The full-text index: does the query match the text? -/
  ftsMatch : (query text : Bytes) → Bool := fun _ _ => false

/-- The server with the chat part of its database. -/
structure ChatServer where
  server : Server
  config : ChatConfig := {}
  db : ChatDatabase := {}

/-- A chat request: the payload of its control message. The last two are the places in
other handlers where a list is written. -/
inductive ChatRequest where
  | chatSend (payload : Bytes) (now : BitVec 64) (month : Bytes) (messageOk : Bool)
      (attachmentOk : Nat → Bool)
  | chatHistoryReq (payload : Bytes)
  | chatPin (payload : Bytes) (dbOk : Bool)
  | chatUnpin (payload : Bytes) (dbOk : Bool)
  | chatDelete (payload : Bytes) (dbOk : Bool)
  | chatPinnedReq (payload : Bytes)
  | chatSearch (payload : Bytes)
  | sendChannelList
  | sendUserList (channel : ChannelId)

/-- The database after a request, and what was sent. -/
abbrev ChatOutcome := ChatDatabase × List (SessionId × ChatReply)

namespace ChatServer

open BinaryReader

def session (c : ChatServer) (sid : SessionId) : Session := c.server.sessions sid

def username (c : ChatServer) (sid : SessionId) : Bytes := (c.session sid).username.toUTF8.toList

/-- The request changes nothing and is answered by nothing. -/
def ignore (c : ChatServer) : ChatOutcome := (c.db, [])

def reply (c : ChatServer) (sid : SessionId) (message : ChatReply) : ChatOutcome :=
  (c.db, [(sid, message)])

/-- To every authenticated session. -/
def broadcast (c : ChatServer) (message : ChatReply) : List (SessionId × ChatReply) :=
  (c.server.sessionTable.filter fun sid => (c.session sid).authenticated).map (·, message)

/-! #### The lists of channels and users -/

def listedChannels (c : ChatServer) : List ListedChannel :=
  c.server.db.getAllChannels.map fun channel =>
    { id := channel.id
      name := channel.name
      maxUsers := BitVec.ofInt 32 channel.maxUsers
      sortOrder := BitVec.ofInt 32 channel.sortOrder
      userCount := BitVec.ofNat 32 (c.server.channelUsers channel.id).length }

/-! #### Sending -/

structure ChatSend where
  channel : BitVec 32
  text : Bytes
  attachmentCount : BitVec 8
deriving DecidableEq, Repr

def readChatSend : Reads ChatSend := do
  let channel ← readU32
  let text ← readString
  let attachmentCount ← readU8
  return { channel, text, attachmentCount }

/-- An attachment as the request describes it. -/
structure PendingAttachment where
  name : Bytes
  size : BitVec 64
  mime : Bytes
deriving DecidableEq, Repr

def readAttachment : Reads PendingAttachment := do
  let name ← readString
  let size ← readU64
  let mime ← readString
  return { name, size, mime }

/-- The attachments up to the first that does not fit. -/
def readAttachments : Nat → BinaryReader → List PendingAttachment
  | 0, _ => []
  | count + 1, reader =>
    let (attachment, reader) := readAttachment.run reader
    if reader.error then [] else attachment :: readAttachments count reader

def isAlnum (b : UInt8) : Bool := (48 ≤ b && b ≤ 57) || (65 ≤ b && b ≤ 90) || (97 ≤ b && b ≤ 122)

def toLower (b : UInt8) : UInt8 := if 65 ≤ b && b ≤ 90 then b + 32 else b

/-- The part of a name from its last dot on, if something follows the dot. -/
def dottedEnd (name : Bytes) : Bytes :=
  let behind := (name.reverse.takeWhile (· ≠ 46)).reverse
  if behind.length = name.length || behind.isEmpty then [] else 46 :: behind

/-- The letters, digits and dots of it, in lower case, eight at most. -/
def diskExtension (name : Bytes) : Bytes :=
  (((dottedEnd name).filter fun b => isAlnum b || b = 46).map toLower).take 8

def decimal (n : Nat) : Bytes := (toString n).toUTF8.toList

/-- Nothing of the name but its extension gets into the path. -/
def diskPath (month : Bytes) (messageId : BitVec 64) (i : Nat) (name : Bytes) : Bytes :=
  month ++ [47] ++ decimal messageId.toNat ++ [95] ++ decimal i ++ diskExtension name

/-- Store the attachments from number `i` on. -/
def storeAttachments (messageId : BitVec 64) (month : Bytes) (ok : Nat → Bool) :
    Nat → List PendingAttachment → ChatDatabase → List ChatAttachment × ChatDatabase
  | _, [], db => ([], db)
  | i, a :: rest, db =>
    let (id, db) := db.insertAttachment messageId a.name a.size a.mime
      (diskPath month messageId i a.name) (ok i)
    let (stored, db) := storeAttachments messageId month ok (i + 1) rest db
    ({ id, fileName := a.name, fileSize := a.size, mimeType := a.mime, uploaded := false } ::
      stored, db)

def chatSend (c : ChatServer) (sid : SessionId) (payload : Bytes) (now : BitVec 64)
    (month : Bytes) (messageOk : Bool) (attachmentOk : Nat → Bool) : ChatOutcome :=
  if !(c.session sid).authenticated then c.ignore
  else match parse readChatSend payload with
  | none => c.ignore
  | some (send, reader) =>
    if (c.db.getTextChannel send.channel).isNone then
      c.reply sid (.serverError "Text channel not found")
    else if c.config.maxMessageLength < send.text.length then
      c.reply sid (.serverError "Message too long")
    else match c.db.insertMessage send.channel (c.session sid).userId (c.username sid) send.text
        now messageOk with
    | none => c.reply sid (.serverError "Failed to store message")
    | some (id, db) =>
      let (attachments, db) := storeAttachments id month attachmentOk 0
        (readAttachments send.attachmentCount.toNat reader) db
      let row : MessageRow := {
        id
        channelId := send.channel
        senderId := (c.session sid).userId
        senderName := c.username sid
        text := send.text
        createdAt := now }
      (db, c.broadcast (.chatMessage { row, attachments }))

/-! #### Reading -/

/-- A message with its attachments. -/
def withAttachments (c : ChatServer) (row : MessageRow) : ChatMessage where
  row := row
  attachments := (c.db.getAttachmentsForMessage row.id).map AttachmentRow.toChatAttachment

structure ChatHistoryReq where
  channel : BitVec 32
  before : BitVec 64
  limit : BitVec 16
deriving DecidableEq, Repr

def readChatHistoryReq : Reads ChatHistoryReq := do
  let channel ← readU32
  let before ← readU64
  let limit ← readU16
  return { channel, before, limit }

/-- The page of a history request, and whether there is more before it. -/
def historyPage (c : ChatServer) (req : ChatHistoryReq) : List MessageRow × Bool :=
  let messages := c.db.getMessages req.channel req.before (min req.limit.toNat 100)
  (messages, match messages with
    | [] => false
    | front :: _ => !(c.db.getMessages req.channel front.id 1).isEmpty)

def chatHistoryReq (c : ChatServer) (sid : SessionId) (payload : Bytes) : ChatOutcome :=
  if !(c.session sid).authenticated then c.ignore
  else match parse readChatHistoryReq payload with
  | none => c.ignore
  | some (req, _) =>
    let (messages, hasMore) := c.historyPage req
    c.reply sid (.chatHistoryResp req.channel hasMore (messages.map c.withAttachments))

def chatPinnedReq (c : ChatServer) (sid : SessionId) (payload : Bytes) : ChatOutcome :=
  if !(c.session sid).authenticated then c.ignore
  else match parse readU32 payload with
  | none => c.ignore
  | some (channel, _) =>
    c.reply sid (.chatPinnedResp channel ((c.db.getPinnedMessages channel).map (⟨·, []⟩)))

structure ChatSearch where
  channel : BitVec 32
  query : Bytes
  before : BitVec 64
  limit : BitVec 16
deriving DecidableEq, Repr

def readChatSearch : Reads ChatSearch := do
  let channel ← readU32
  let query ← readString
  let before ← readU64
  let limit ← readU16
  return { channel, query, before, limit }

def searchResults (c : ChatServer) (req : ChatSearch) : List MessageRow :=
  c.db.searchMessages c.config.ftsMatch req.channel req.query req.before (min req.limit.toNat 50)

def chatSearch (c : ChatServer) (sid : SessionId) (payload : Bytes) : ChatOutcome :=
  if !(c.session sid).authenticated then c.ignore
  else match parse readChatSearch payload with
  | none => c.ignore
  | some (req, _) =>
    if req.query.isEmpty then c.ignore
    else c.reply sid (.chatSearchResp req.channel ((c.searchResults req).map (⟨·, []⟩)))

/-! #### Pinning and deleting -/

/-- The message a pin, unpin or delete request names. -/
def namedMessage (c : ChatServer) (sid : SessionId) (payload : Bytes) : Option MessageRow := do
  guard (c.session sid).authenticated
  let (id, _) ← parse readU64 payload
  c.db.getMessage id

-- The next three do not look at whether their statement succeeded: what they announce is what was
-- asked for, and a failed statement leaves the tables as they are.

def chatPin (c : ChatServer) (sid : SessionId) (payload : Bytes) (dbOk : Bool) : ChatOutcome :=
  match c.namedMessage sid payload with
  | none => c.ignore
  | some row =>
    (if dbOk then c.db.pinMessage row.id else c.db,
      c.broadcast (.chatMessage ⟨{ row with pinned := true }, []⟩))

def chatUnpin (c : ChatServer) (sid : SessionId) (payload : Bytes) (dbOk : Bool) : ChatOutcome :=
  match c.namedMessage sid payload with
  | none => c.ignore
  | some row =>
    (if dbOk then c.db.unpinMessage row.id else c.db,
      c.broadcast (.chatMessage ⟨{ row with pinned := false }, []⟩))

/-- The author and moderators may delete a message. -/
def chatDelete (c : ChatServer) (sid : SessionId) (payload : Bytes) (dbOk : Bool) : ChatOutcome :=
  match c.namedMessage sid payload with
  | none => c.ignore
  | some row =>
    if row.senderId ≠ (c.session sid).userId ∧
        !hasPermission (c.session sid).role Permissions.KICK_FROM_CHANNEL none then
      c.reply sid (.serverError "Permission denied")
    else
      (if dbOk then c.db.softDeleteMessage row.id else c.db,
        c.broadcast (.chatMessageDeleted row.id row.channelId))

/-! #### One request -/

def handle (c : ChatServer) (sid : SessionId) (request : ChatRequest) : ChatOutcome :=
  if sid ∉ c.server.sessionTable then c.ignore
  else match request with
  | .chatSend payload now month messageOk attachmentOk =>
      c.chatSend sid payload now month messageOk attachmentOk
  | .chatHistoryReq payload => c.chatHistoryReq sid payload
  | .chatPin payload dbOk => c.chatPin sid payload dbOk
  | .chatUnpin payload dbOk => c.chatUnpin sid payload dbOk
  | .chatDelete payload dbOk => c.chatDelete sid payload dbOk
  | .chatPinnedReq payload => c.chatPinnedReq sid payload
  | .chatSearch payload => c.chatSearch sid payload
  | .sendChannelList => c.reply sid (.channelList c.listedChannels)
  | .sendUserList channel => c.reply sid (.channelUserList channel (c.server.channelUsers channel))

end ChatServer

end Parties

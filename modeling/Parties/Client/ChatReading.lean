import Parties.Client.ChatClient
import Parties.Server.StoredChat

/-!
# Chat messages read back

What the server encodes is what the parsers of the client find, as long as every
string and every count fits the bytes it is written in. So the handlers can be read
as functions of the message the server meant.
-/

namespace Parties

open Parties.Wire Parties.Wire.BinaryReader Parties.Client

/-! ### What the client makes of a message -/

def ChatAttachment.shown (a : ChatAttachment) : ShownAttachment where
  id := a.id
  fileName := a.fileName
  fileSize := a.fileSize
  uploaded := a.uploaded

def ChatMessage.shown (myUserId : UserId) (m : ChatMessage) : ShownMessage where
  id := m.row.id
  senderId := m.row.senderId
  senderName := m.row.senderName
  isOwn := m.row.senderId = myUserId
  rawTimestamp := m.row.createdAt
  text := m.row.text
  pinned := m.row.pinned
  attachments := m.attachments.map ChatAttachment.shown

/-! ### The fields -/

theorem ofBool_ne_zero (b : Bool) : (decide ((if b then 1 else 0 : BitVec 8) ≠ 0)) = b := by
  cases b <;> rfl

theorem readsBack_chatAttachment {a : ChatAttachment} (h : a.Fits) :
    ReadsBack parseChatAttachment a.write a.shown := by
  have hread : ReadsBack parseChatAttachment
      (writeU64 a.id ++ (writeText a.fileName ++ (writeU64 a.fileSize ++
        (writeText a.mimeType ++ writeBool a.uploaded))))
      { id := a.id, fileName := a.fileName, fileSize := a.fileSize,
        uploaded := decide ((if a.uploaded then 1 else 0 : BitVec 8) ≠ 0) } := by
    refine (readsBack_u64 a.id).bind ?_
    refine (readsBack_text h.fileName).bind ?_
    refine (readsBack_u64 a.fileSize).bind ?_
    refine (readsBack_text h.mimeType).bind ?_
    exact (readsBack_u8 _).map _
  rw [ofBool_ne_zero] at hread
  rw [ChatAttachment.write]
  simp only [List.append_assoc]
  exact hread

theorem readsBack_chatMessage {m : ChatMessage} (h : m.Fits) (myUserId : UserId) :
    ReadsBack (parseChatMessage myUserId) m.write (m.shown myUserId) := by
  have hatts := readsBack_whileOk fun a ha => readsBack_chatAttachment (h.attachments a ha)
  have hread : ReadsBack (parseChatMessage myUserId)
      (writeU64 m.row.id ++ (writeU32 m.row.channelId ++ (writeU32 m.row.senderId ++
        (writeText m.row.senderName ++ (writeU64 m.row.createdAt ++ (writeText m.row.text ++
          (writeBool m.row.pinned ++ (writeU8 (BitVec.ofNat 8 m.attachments.length) ++
            m.attachments.flatMap ChatAttachment.write))))))))
      { m.shown myUserId with
        pinned := decide ((if m.row.pinned then 1 else 0 : BitVec 8) ≠ 0) } := by
    refine (readsBack_u64 m.row.id).bind ?_
    refine (readsBack_u32 m.row.channelId).bind ?_
    refine (readsBack_u32 m.row.senderId).bind ?_
    refine (readsBack_text h.row.senderName).bind ?_
    refine (readsBack_u64 m.row.createdAt).bind ?_
    refine (readsBack_text h.row.text).bind ?_
    refine (readsBack_u8 _).bind ?_
    refine (readsBack_u8 _).bind ?_
    rw [toNat_ofNat_of_lt h.count]
    exact hatts.map _
  rw [ofBool_ne_zero] at hread
  rw [ChatMessage.write, MessageRow.write]
  simp only [List.append_assoc]
  exact hread

theorem readsBack_peekChannel (m : MessageRow) :
    ReadsBack peekChannel (writeU64 m.id ++ writeU32 m.channelId) m.channelId :=
  (readsBack_u64 m.id).bind (readsBack_u32 m.channelId)

/-- A message starts with its id and its channel. -/
theorem ChatMessage.write_eq (m : ChatMessage) :
    ∃ rest, m.write = (writeU64 m.row.id ++ writeU32 m.row.channelId) ++ rest := by
  rw [ChatMessage.write, MessageRow.write]
  simp only [List.append_assoc]
  exact ⟨_, rfl⟩

/-- A payload that starts with the fields is parsed up to their end. -/
theorem parse_readsBack {α : Type} {reads : Reads α} {bytes : Bytes} {value : α}
    (h : ReadsBack reads bytes value) (rest : Bytes) :
    parse reads (bytes ++ rest) = some (value, { rest }) := by
  rw [parse, h rest]
  rfl

/-- The fields are the whole payload. -/
theorem parse_readsBack_all {α : Type} {reads : Reads α} {bytes : Bytes} {value : α}
    (h : ReadsBack reads bytes value) : parse reads bytes = some (value, { rest := [] }) := by
  have hparse := parse_readsBack h []
  rw [List.append_nil] at hparse
  exact hparse

/-- The message behind the head is found as it was meant. -/
theorem parseMessages_write (k : ChatClient) {msgs : List ChatMessage}
    (hcount : msgs.length < 2 ^ 16) (h : ∀ m ∈ msgs, m.Fits) :
    k.parseMessages (BitVec.ofNat 16 msgs.length)
      { rest := msgs.flatMap ChatMessage.write } = msgs.map (ChatMessage.shown k.userId) := by
  have hread := readsBack_whileOk (fun m hm => readsBack_chatMessage (h m hm) k.userId) []
  rw [List.append_nil] at hread
  rw [ChatClient.parseMessages, toNat_ofNat_of_lt hcount, hread]

/-! ### The handlers, on the messages the server meant -/

namespace Client.ChatClient

def takeMessage (k : ChatClient) (m : ChatMessage) : ChatClient × List Upload :=
  let msg := m.shown k.userId
  if m.row.channelId = k.activeChannel then ((k.dropUploads msg).showMessage msg, k.uploadsFor msg)
  else ({ k.dropUploads msg with textChannels := markTab m.row.channelId true k.textChannels },
    k.uploadsFor msg)

def takeHistory (k : ChatClient) (channel : BitVec 32) (hasMore : Bool)
    (msgs : List ChatMessage) : ChatClient :=
  if channel ≠ k.activeChannel then k
  else { k with
    messages := msgs.map (ChatMessage.shown k.userId) ++ k.messages
    hasMoreHistory := hasMore }

def takeDeleted (k : ChatClient) (messageId : BitVec 64) (channel : BitVec 32) : ChatClient :=
  if channel ≠ k.activeChannel then k
  else { k with messages := k.messages.filter fun m => m.id ≠ messageId }

/-- What the handlers make of a reply. -/
def take (k : ChatClient) : ChatReply → ChatClient × List Upload
  | .chatMessage m => k.takeMessage m
  | .chatHistoryResp channel hasMore msgs => (k.takeHistory channel hasMore msgs, [])
  | .chatMessageDeleted id channel => (k.takeDeleted id channel, [])
  | .chatSearchResp _ msgs =>
      ({ k with searchResults := msgs.map (ChatMessage.shown k.userId) }, [])
  | .chatPinnedResp _ msgs =>
      ({ k with pinnedMessages := msgs.map (ChatMessage.shown k.userId) }, [])
  | _ => (k, [])

@[simp] theorem dropUploads_activeChannel (k : ChatClient) (msg : ShownMessage) :
    (k.dropUploads msg).activeChannel = k.activeChannel := by
  rw [dropUploads]
  split <;> rfl

@[simp] theorem dropUploads_messages (k : ChatClient) (msg : ShownMessage) :
    (k.dropUploads msg).messages = k.messages := by
  rw [dropUploads]
  split <;> rfl

@[simp] theorem dropUploads_textChannels (k : ChatClient) (msg : ShownMessage) :
    (k.dropUploads msg).textChannels = k.textChannels := by
  rw [dropUploads]
  split <;> rfl

@[simp] theorem dropUploads_userId (k : ChatClient) (msg : ShownMessage) :
    (k.dropUploads msg).userId = k.userId := by
  rw [dropUploads]
  split <;> rfl

theorem onChatMessage_write (k : ChatClient) {m : ChatMessage} (h : m.Fits) :
    k.onChatMessage m.write = k.takeMessage m := by
  have hparse := parse_readsBack_all (readsBack_chatMessage h k.userId)
  have hpeek : (peekChannel.run { rest := m.write }).1 = m.row.channelId := by
    obtain ⟨rest, hrest⟩ := m.write_eq
    rw [hrest, readsBack_peekChannel m.row rest]
  unfold onChatMessage
  simp only [hparse, hpeek, takeMessage, dropUploads_activeChannel, dropUploads_textChannels]

theorem readsBack_historyHead (channel : BitVec 32) (hasMore : Bool) (count : BitVec 16) :
    ReadsBack readHistoryHead (writeU32 channel ++ (writeBool hasMore ++ writeU16 count))
      { channel, hasMore, count } := by
  have hread : ReadsBack readHistoryHead
      (writeU32 channel ++ (writeBool hasMore ++ writeU16 count))
      { channel, count, hasMore := decide ((if hasMore then 1 else 0 : BitVec 8) ≠ 0) } := by
    refine (readsBack_u32 channel).bind ?_
    refine (readsBack_u8 _).bind ?_
    exact (readsBack_u16 count).map _
  rw [ofBool_ne_zero] at hread
  exact hread

theorem onChatHistoryResp_encode (k : ChatClient) (channel : BitVec 32) (hasMore : Bool)
    {msgs : List ChatMessage} (hcount : msgs.length < 2 ^ 16) (h : ∀ m ∈ msgs, m.Fits) :
    k.onChatHistoryResp (ChatReply.chatHistoryResp channel hasMore msgs).encode.payload =
      k.takeHistory channel hasMore msgs := by
  have hpayload : (ChatReply.chatHistoryResp channel hasMore msgs).encode.payload =
      (writeU32 channel ++ (writeBool hasMore ++ writeU16 (BitVec.ofNat 16 msgs.length))) ++
        msgs.flatMap ChatMessage.write := by
    show (writeU32 channel ++ writeBool hasMore) ++ (_ ++ _) = _
    simp only [List.append_assoc]
  have hparse := parse_readsBack (readsBack_historyHead channel hasMore
    (BitVec.ofNat 16 msgs.length)) (msgs.flatMap ChatMessage.write)
  rw [onChatHistoryResp, hpayload, hparse]
  simp only [parseMessages_write k hcount h]
  rfl

theorem onChatMessageDeleted_encode (k : ChatClient) (id : BitVec 64) (channel : BitVec 32) :
    k.onChatMessageDeleted (ChatReply.chatMessageDeleted id channel).encode.payload =
      k.takeDeleted id channel := by
  have hread : ReadsBack readIdAndChannel (writeU64 id ++ writeU32 channel) (id, channel) :=
    (readsBack_u64 id).bind ((readsBack_u32 channel).map _)
  have hpayload : (ChatReply.chatMessageDeleted id channel).encode.payload =
      (writeU64 id ++ writeU32 channel) ++ [] := rfl
  rw [onChatMessageDeleted, hpayload, parse_readsBack hread []]
  rfl

/-- A list of results behind its channel. -/
theorem parse_resultCount (channel : BitVec 32) (msgs : List ChatMessage) :
    parse readResultCount (writeU32 channel ++ (writeU16 (BitVec.ofNat 16 msgs.length) ++
      msgs.flatMap ChatMessage.write)) =
      some (BitVec.ofNat 16 msgs.length, { rest := msgs.flatMap ChatMessage.write }) := by
  rw [← List.append_assoc]
  exact parse_readsBack ((readsBack_u32 channel).bind (readsBack_u16 _)) _

theorem onChatSearchResp_encode (k : ChatClient) (channel : BitVec 32)
    {msgs : List ChatMessage} (hcount : msgs.length < 2 ^ 16) (h : ∀ m ∈ msgs, m.Fits) :
    k.onChatSearchResp (ChatReply.chatSearchResp channel msgs).encode.payload =
      { k with searchResults := msgs.map (ChatMessage.shown k.userId) } := by
  have hpayload : (ChatReply.chatSearchResp channel msgs).encode.payload =
      writeU32 channel ++ (writeU16 (BitVec.ofNat 16 msgs.length) ++
        msgs.flatMap ChatMessage.write) := rfl
  rw [onChatSearchResp, hpayload, parse_resultCount channel msgs]
  simp only [parseMessages_write k hcount h]

theorem onChatPinnedResp_encode (k : ChatClient) (channel : BitVec 32)
    {msgs : List ChatMessage} (hcount : msgs.length < 2 ^ 16) (h : ∀ m ∈ msgs, m.Fits) :
    k.onChatPinnedResp (ChatReply.chatPinnedResp channel msgs).encode.payload =
      { k with pinnedMessages := msgs.map (ChatMessage.shown k.userId) } := by
  have hpayload : (ChatReply.chatPinnedResp channel msgs).encode.payload =
      writeU32 channel ++ (writeU16 (BitVec.ofNat 16 msgs.length) ++
        msgs.flatMap ChatMessage.write) := rfl
  rw [onChatPinnedResp, hpayload, parse_resultCount channel msgs]
  simp only [parseMessages_write k hcount h]

theorem payload_chatMessage (m : ChatMessage) :
    (ChatReply.chatMessage m).encode.payload = m.write := by
  rw [ChatMessage.write, List.append_assoc]
  rfl

@[simp] theorem encode_type (reply : ChatReply) : reply.encode.type = reply.type := rfl

/-- The client takes what the server meant. -/
theorem handleServerMessage_encode (k : ChatClient) (reply : ChatReply) (h : reply.Fits) :
    k.handleServerMessage reply.encode = k.take reply := by
  cases reply with
  | chatMessage m =>
      simp [handleServerMessage, ChatReply.type, take, payload_chatMessage,
        k.onChatMessage_write h]
  | chatHistoryResp channel hasMore msgs =>
      simp [handleServerMessage, ChatReply.type, take,
        k.onChatHistoryResp_encode channel hasMore h.1 h.2]
  | chatMessageDeleted id channel =>
      simp [handleServerMessage, ChatReply.type, take, k.onChatMessageDeleted_encode id channel]
  | chatSearchResp channel msgs =>
      simp [handleServerMessage, ChatReply.type, take, k.onChatSearchResp_encode channel h.1 h.2]
  | chatPinnedResp channel msgs =>
      simp [handleServerMessage, ChatReply.type, take, k.onChatPinnedResp_encode channel h.1 h.2]
  | serverError text | channelList channels | channelUserList channel users =>
      simp [handleServerMessage, ChatReply.type, take]

/-- The oldest messages may go from the screen. -/
theorem showMessage_messages (k : ChatClient) (msg : ShownMessage) :
    (k.showMessage msg).messages.Sublist (putMessage msg k.messages) := by
  rw [showMessage]
  split
  · exact List.drop_sublist _ _
  · exact List.Sublist.refl _

@[simp] theorem showMessage_activeChannel (k : ChatClient) (msg : ShownMessage) :
    (k.showMessage msg).activeChannel = k.activeChannel := by
  rw [showMessage]
  split <;> rfl

@[simp] theorem showMessage_userId (k : ChatClient) (msg : ShownMessage) :
    (k.showMessage msg).userId = k.userId := by
  rw [showMessage]
  split <;> rfl

@[simp] theorem takeMessage_activeChannel (k : ChatClient) (m : ChatMessage) :
    (k.takeMessage m).1.activeChannel = k.activeChannel := by
  rw [takeMessage]
  split
  · rw [showMessage_activeChannel, dropUploads_activeChannel]
  · exact dropUploads_activeChannel k _

@[simp] theorem takeMessage_userId (k : ChatClient) (m : ChatMessage) :
    (k.takeMessage m).1.userId = k.userId := by
  rw [takeMessage]
  split
  · rw [showMessage_userId, dropUploads_userId]
  · exact dropUploads_userId k _

/-- The message goes among the others if it is of their channel. -/
theorem takeMessage_messages (k : ChatClient) (m : ChatMessage) :
    (m.row.channelId = k.activeChannel ∧
        (k.takeMessage m).1.messages.Sublist (putMessage (m.shown k.userId) k.messages)) ∨
      m.row.channelId ≠ k.activeChannel ∧ (k.takeMessage m).1.messages = k.messages := by
  rw [takeMessage]
  split
  next heq =>
    have hsub := (k.dropUploads (m.shown k.userId)).showMessage_messages (m.shown k.userId)
    rw [dropUploads_messages] at hsub
    exact .inl ⟨heq, hsub⟩
  next hne =>
    exact .inr ⟨hne, dropUploads_messages k _⟩

/-- Two clients that differ in their lists of results at most. -/
structure SameView (k k' : ChatClient) : Prop where
  userId : k.userId = k'.userId
  activeChannel : k.activeChannel = k'.activeChannel
  messages : k.messages = k'.messages
  hasMoreHistory : k.hasMoreHistory = k'.hasMoreHistory
  pendingUploads : k.pendingUploads = k'.pendingUploads

theorem SameView.refl (k : ChatClient) : SameView k k := ⟨rfl, rfl, rfl, rfl, rfl⟩

/-- A list of pinned messages may be cut off, but it goes to a list of its own. -/
theorem handleServerMessage_pinnedResp (k : ChatClient) (channel : BitVec 32)
    (msgs : List ChatMessage) :
    SameView (k.handleServerMessage (ChatReply.chatPinnedResp channel msgs).encode).1 k ∧
      (k.handleServerMessage (ChatReply.chatPinnedResp channel msgs).encode).2 = [] := by
  have hhandle : k.handleServerMessage (ChatReply.chatPinnedResp channel msgs).encode =
      (k.onChatPinnedResp (ChatReply.chatPinnedResp channel msgs).encode.payload, []) := by
    simp [handleServerMessage, ChatReply.type]
  rw [hhandle, onChatPinnedResp]
  split
  · exact ⟨.refl k, rfl⟩
  · exact ⟨⟨rfl, rfl, rfl, rfl, rfl⟩, rfl⟩

/-- The view is that of the message the server meant. -/
theorem handleServerMessage_view (k : ChatClient) {reply : ChatReply} (h : reply.Readable) :
    SameView (k.handleServerMessage reply.encode).1 (k.take reply).1 ∧
      (k.handleServerMessage reply.encode).2 = (k.take reply).2 := by
  by_cases hpinned : ∃ channel msgs, reply = .chatPinnedResp channel msgs
  · obtain ⟨channel, msgs, rfl⟩ := hpinned
    obtain ⟨hview, huploads⟩ := k.handleServerMessage_pinnedResp channel msgs
    exact ⟨⟨hview.userId, hview.activeChannel, hview.messages, hview.hasMoreHistory,
      hview.pendingUploads⟩, huploads⟩
  · have hfits := h fun channel msgs heq => hpinned ⟨channel, msgs, heq⟩
    rw [handleServerMessage_encode k reply hfits]
    exact ⟨.refl _, rfl⟩

end Client.ChatClient

end Parties

import Parties.Server.ChatHandlers

/-!
# The sizes of lists and chat messages

No handler looks at the size of what it sends, and the client drops what is longer
than its parser takes. So a message gets through exactly when the names and texts
in it add up to little enough, and when each of its numbers fits the bytes it is
written in. Only the number of a message's attachments can fail to: of everything
else too many elements are too many bytes.
-/

namespace Parties

open Parties.ByteStream Parties.Wire

/-! ### Sizes -/

def ListedChannel.size (channel : ListedChannel) : Nat := 18 + channel.name.utf8ByteSize

def ChannelUser.size (user : ChannelUser) : Nat := 9 + user.username.utf8ByteSize

def ChatAttachment.size (a : ChatAttachment) : Nat := 21 + a.fileName.length + a.mimeType.length

def MessageRow.size (m : MessageRow) : Nat := 29 + m.senderName.length + m.text.length

def ChatMessage.size (m : ChatMessage) : Nat :=
  m.row.size + 1 + (m.attachments.map ChatAttachment.size).sum

@[simp] theorem length_writeBool (b : Bool) : (writeBool b).length = 1 := length_writeU8 _

theorem ListedChannel.length_write (channel : ListedChannel) :
    channel.write.length = channel.size := by
  simp [write, size]
  omega

theorem ChannelUser.length_write (user : ChannelUser) : user.write.length = user.size := by
  simp [write, size]
  omega

theorem ChatAttachment.length_write (a : ChatAttachment) : a.write.length = a.size := by
  simp [write, size]
  omega

theorem MessageRow.length_write (m : MessageRow) : m.write.length = m.size := by
  simp [write, size]
  omega

theorem ChatMessage.length_write (m : ChatMessage) : m.write.length = m.size := by
  have hattachments : (m.attachments.flatMap ChatAttachment.write).length =
      (m.attachments.map ChatAttachment.size).sum := by
    rw [List.length_flatMap]
    simp only [ChatAttachment.length_write]
  simp [write, size, MessageRow.length_write, hattachments]
  omega

namespace ChatReply

/-- The elements of the list, each by its bytes. -/
def elements : ChatReply → List Bytes
  | .serverError _ | .chatMessageDeleted _ _ => []
  | .channelList channels => channels.map ListedChannel.write
  | .channelUserList _ users => users.map ChannelUser.write
  | .chatMessage message => message.attachments.map ChatAttachment.write
  | .chatHistoryResp _ _ messages | .chatSearchResp _ messages | .chatPinnedResp _ messages =>
      messages.map ChatMessage.write

/-- The width of the number in front of them. -/
def countWidth : ChatReply → Nat
  | .serverError _ | .chatMessageDeleted _ _ => 0
  | .channelList _ | .channelUserList _ _ => 4
  | .chatMessage _ => 1
  | .chatHistoryResp _ _ _ | .chatSearchResp _ _ | .chatPinnedResp _ _ => 2

/-- The messages in the list. -/
def messages : ChatReply → List ChatMessage
  | .chatHistoryResp _ _ messages | .chatSearchResp _ messages | .chatPinnedResp _ messages =>
      messages
  | _ => []

/-- The client finds the message, however its bytes were cut, and every number in it
says how many elements follow. -/
structure Receivable (reply : ChatReply) : Prop where
  withinLimit : 2 + reply.encode.payload.length ≤ NetClient.MAX_LENGTH.toNat
  received : ∀ pieces : List Bytes,
    pieces.flatten = QuicServer.sendControlOnStream reply.encode →
      pieces.foldl NetClient.processStreamData {} = { incoming := [reply.encode] }
  counted : Announces reply.countWidth reply.elements reply.list
  attachmentsCounted : ∀ m ∈ reply.messages,
    Announces 1 (m.attachments.map ChatAttachment.write) (m.write.drop m.row.write.length)

theorem list_eq (reply : ChatReply) : reply.list =
    le reply.countWidth (reply.elements.length % 256 ^ reply.countWidth) ++
      reply.elements.flatten := by
  cases reply <;> simp [list, countWidth, elements, le, writeU8, writeU16, writeU32,
    BitVec.toNat_ofNat, List.flatMap_def]

theorem received_of_withinLimit {reply : ChatReply}
    (hlimit : 2 + reply.encode.payload.length ≤ NetClient.MAX_LENGTH.toNat) {pieces : List Bytes}
    (hpieces : pieces.flatten = QuicServer.sendControlOnStream reply.encode) :
    pieces.foldl NetClient.processStreamData {} = { incoming := [reply.encode] } := by
  have hrec : ∀ m ∈ [reply.encode], Recognises NetClient.parseFront encodeControl m := by
    intro m hm
    obtain rfl := List.mem_singleton.mp hm
    exact recognises_encodeControl (by decide) hlimit
  have hbytes : pieces.flatten = [reply.encode].flatMap encodeControl := by
    rw [hpieces, List.flatMap_singleton]
    rfl
  rw [NetClient.processStreamData_foldl, receiveAll_encoded rfl hrec hbytes]
  rfl

/-- The number of attachments behind a message is right if it fits one byte. -/
theorem announces_attachments (m : ChatMessage) :
    Announces 1 (m.attachments.map ChatAttachment.write) (m.write.drop m.row.write.length) ↔
      m.attachments.length < 256 := by
  have hdrop : m.write.drop m.row.write.length =
      le 1 ((m.attachments.map ChatAttachment.write).length % 256 ^ 1) ++
        (m.attachments.map ChatAttachment.write).flatten := by
    rw [ChatMessage.write, List.append_assoc, List.drop_left, List.length_map,
      List.flatMap_def]
    rfl
  rw [hdrop, announces_le, List.length_map, pow_one]

theorem receivable_iff (reply : ChatReply) : reply.Receivable ↔
    (2 + reply.encode.payload.length ≤ NetClient.MAX_LENGTH.toNat ∧
      reply.elements.length < 256 ^ reply.countWidth) ∧
      ∀ m ∈ reply.messages, m.attachments.length < 256 := by
  constructor
  · intro h
    refine ⟨⟨h.withinLimit, ?_⟩, fun m hm =>
      (announces_attachments m).mp (h.attachmentsCounted m hm)⟩
    have hcounted := h.counted
    rw [list_eq] at hcounted
    exact announces_le.mp hcounted
  · rintro ⟨⟨hlimit, hcount⟩, hattachments⟩
    exact {
      withinLimit := hlimit
      received := fun _ => received_of_withinLimit hlimit
      counted := by
        rw [list_eq]
        exact announces_le.mpr hcount
      attachmentsCounted := fun m hm => (announces_attachments m).mpr (hattachments m hm) }

theorem length_payload (reply : ChatReply) : reply.encode.payload.length =
    reply.head.length + reply.countWidth + (reply.elements.map List.length).sum := by
  rw [encode, List.length_append, list_eq, List.length_append, length_le, List.length_flatten]
  omega

/-- Elements of `least` bytes or more are few if their bytes are. -/
theorem length_mul_le_sum {α : Type} {size : α → Nat} {least : Nat} {elements : List α}
    (hleast : ∀ a ∈ elements, least ≤ size a) :
    elements.length * least ≤ (elements.map size).sum := by
  induction elements with
  | nil => simp
  | cons a elements ih =>
      have hhead := hleast a List.mem_cons_self
      have htail := ih fun b hb => hleast b (List.mem_cons_of_mem _ hb)
      rw [List.length_cons, List.map_cons, List.sum_cons, Nat.succ_mul]
      omega

/-- The largest payload that passes the parser of the client. -/
def MAX_PAYLOAD : Nat := 1024 * 1024 - 2

theorem withinLimit_iff (reply : ChatReply) :
    2 + reply.encode.payload.length ≤ NetClient.MAX_LENGTH.toNat ↔
      reply.encode.payload.length ≤ MAX_PAYLOAD := by
  show 2 + _ ≤ 1048576 ↔ _ ≤ 1048574
  omega

/-- A reply with a list of messages. -/
theorem receivable_messages {reply : ChatReply} {ms : List ChatMessage}
    (hmessages : reply.messages = ms) (helements : reply.elements = ms.map ChatMessage.write)
    (hwidth : reply.countWidth = 2) : reply.Receivable ↔
      reply.head.length + 2 + (ms.map ChatMessage.size).sum ≤ MAX_PAYLOAD ∧
        ∀ m ∈ ms, m.attachments.length < 256 := by
  have hsum : reply.elements.map List.length = ms.map ChatMessage.size := by
    rw [helements, List.map_map]
    exact List.map_congr_left fun m _ => m.length_write
  rw [receivable_iff, withinLimit_iff, length_payload, hsum, hwidth, hmessages, helements,
    List.length_map, and_assoc]
  constructor
  · rintro ⟨hlimit, _, hattachments⟩
    exact ⟨hlimit, hattachments⟩
  · rintro ⟨hlimit, hattachments⟩
    refine ⟨hlimit, ?_, hattachments⟩
    have hleast : ∀ m ∈ ms, 30 ≤ m.size := by
      intro m _
      rw [ChatMessage.size, MessageRow.size]
      omega
    have hfew := length_mul_le_sum hleast
    have hmax : (ms.map ChatMessage.size).sum ≤ 1048574 := by
      refine le_trans ?_ hlimit
      omega
    omega

theorem receivable_chatHistoryResp (channel : BitVec 32) (hasMore : Bool) (ms : List ChatMessage) :
    (chatHistoryResp channel hasMore ms).Receivable ↔
      7 + (ms.map ChatMessage.size).sum ≤ MAX_PAYLOAD ∧ ∀ m ∈ ms, m.attachments.length < 256 := by
  have hlist := @receivable_messages (.chatHistoryResp channel hasMore ms) ms rfl rfl rfl
  have hhead : (head (.chatHistoryResp channel hasMore ms)).length = 5 := by simp [head]
  rwa [hhead] at hlist

/-- A reply with a list of messages without attachments. -/
theorem receivable_bare {reply : ChatReply} {rows : List MessageRow}
    (hmessages : reply.messages = rows.map (⟨·, []⟩))
    (helements : reply.elements = (rows.map (⟨·, []⟩)).map ChatMessage.write)
    (hwidth : reply.countWidth = 2) (hhead : reply.head.length = 4) : reply.Receivable ↔
      6 + (rows.map fun row => row.size + 1).sum ≤ MAX_PAYLOAD := by
  rw [receivable_messages hmessages helements hwidth, hhead, List.map_map]
  constructor
  · exact And.left
  · intro h
    refine ⟨h, fun m hm => ?_⟩
    obtain ⟨row, _, rfl⟩ := List.mem_map.mp hm
    exact (by decide : 0 < 256)

theorem receivable_chatPinnedResp (channel : BitVec 32) (rows : List MessageRow) :
    (chatPinnedResp channel (rows.map (⟨·, []⟩))).Receivable ↔
      6 + (rows.map fun row => row.size + 1).sum ≤ MAX_PAYLOAD := by
  apply receivable_bare rfl rfl rfl
  exact length_writeU32 channel

theorem receivable_chatSearchResp (channel : BitVec 32) (rows : List MessageRow) :
    (chatSearchResp channel (rows.map (⟨·, []⟩))).Receivable ↔
      6 + (rows.map fun row => row.size + 1).sum ≤ MAX_PAYLOAD := by
  apply receivable_bare rfl rfl rfl
  exact length_writeU32 channel

theorem receivable_chatMessage (message : ChatMessage) :
    (chatMessage message).Receivable ↔
      message.size ≤ MAX_PAYLOAD ∧ message.attachments.length < 256 := by
  have hpayload : (chatMessage message).encode.payload = message.write := by
    rw [encode, head, list, ← List.append_assoc]
    rfl
  have hcount : (chatMessage message).elements.length = message.attachments.length :=
    List.length_map _
  rw [receivable_iff, withinLimit_iff, hpayload, ChatMessage.length_write, hcount]
  constructor
  · rintro ⟨h, _⟩
    exact h
  · intro h
    exact ⟨h, fun m hm => by cases hm⟩

/-- A reply whose count has 32 bits, and no messages in it. -/
theorem receivable_wide {reply : ChatReply} {α : Type} {items : List α} {write : α → Bytes}
    {size : α → Nat} (hmessages : reply.messages = []) (hwidth : reply.countWidth = 4)
    (helements : reply.elements = items.map write)
    (hwrite : ∀ a, (write a).length = size a) (hpos : ∀ a, 1 ≤ size a) : reply.Receivable ↔
      reply.head.length + 4 + (items.map size).sum ≤ MAX_PAYLOAD := by
  have hsum : reply.elements.map List.length = items.map size := by
    rw [helements, List.map_map]
    exact List.map_congr_left fun a _ => hwrite a
  rw [receivable_iff, withinLimit_iff, length_payload, hsum, hwidth, hmessages, helements,
    List.length_map]
  constructor
  · rintro ⟨⟨hlimit, _⟩, _⟩
    exact hlimit
  · intro hlimit
    refine ⟨⟨hlimit, ?_⟩, fun m hm => by cases hm⟩
    have hleast : ∀ a ∈ items, 1 ≤ size a := fun a _ => hpos a
    have hfew := length_mul_le_sum hleast
    have hmax : (items.map size).sum ≤ 1048574 := by
      refine le_trans ?_ hlimit
      omega
    omega

theorem receivable_channelList (channels : List ListedChannel) :
    (channelList channels).Receivable ↔
      4 + (channels.map ListedChannel.size).sum ≤ MAX_PAYLOAD := by
  have hpos : ∀ channel : ListedChannel, 1 ≤ channel.size := by
    intro channel
    rw [ListedChannel.size]
    omega
  rw [receivable_wide rfl rfl rfl ListedChannel.length_write hpos]
  simp [head]

theorem receivable_channelUserList (channel : ChannelId) (users : List ChannelUser) :
    (channelUserList channel users).Receivable ↔
      8 + (users.map ChannelUser.size).sum ≤ MAX_PAYLOAD := by
  have hpos : ∀ user : ChannelUser, 1 ≤ user.size := by
    intro user
    rw [ChannelUser.size]
    omega
  rw [receivable_wide rfl rfl rfl ChannelUser.length_write hpos]
  simp [head]

/-- A reply without a list. -/
theorem receivable_plain {reply : ChatReply} (hmessages : reply.messages = [])
    (helements : reply.elements = []) (hwidth : reply.countWidth = 0)
    (hhead : reply.head.length ≤ MAX_PAYLOAD) : reply.Receivable := by
  rw [receivable_iff, withinLimit_iff, length_payload, hmessages, helements, hwidth]
  exact ⟨⟨hhead, Nat.one_pos⟩, fun m hm => by cases hm⟩

end ChatReply

/-! ### What fits -/

namespace ChatServer

open BinaryReader ChatReply

def PendingAttachment.wireSize (a : PendingAttachment) : Nat :=
  21 + a.name.length + a.mime.length

/-- The message is stored. -/
def Stores (c : ChatServer) (send : ChatSend) (messageOk : Bool) : Prop :=
  (c.db.getTextChannel send.channel).isSome ∧
    (send.text.length : Int) ≤ c.config.maxMessageLength ∧
      messageOk = true ∧ c.db.lastMessageId + 1 < 2 ^ 63

/-- The stored rows, names and texts that an accepted request brings into one message are
small enough, and no message of a history page has more than 255 attachments. -/
def FitsAccepted (c : ChatServer) (sid : SessionId) : ChatRequest → Prop
  | .chatSend payload _ _ messageOk _ => ∀ p ∈ parse readChatSend payload,
      c.Stores p.1 messageOk →
        30 + (c.username sid).length + p.1.text.length +
          ((readAttachments p.1.attachmentCount.toNat p.2).map PendingAttachment.wireSize).sum ≤
            MAX_PAYLOAD
  | .chatHistoryReq payload => ∀ p ∈ parse readChatHistoryReq payload,
      7 + ((c.historyPage p.1).1.map fun row => (c.withAttachments row).size).sum ≤
          MAX_PAYLOAD ∧
        ∀ row ∈ (c.historyPage p.1).1, (c.db.getAttachmentsForMessage row.id).length < 256
  | .chatPin payload _ | .chatUnpin payload _ => ∀ row ∈ c.namedMessage sid payload,
      row.size + 1 ≤ MAX_PAYLOAD
  | .chatDelete _ _ => True
  | .chatPinnedReq payload => ∀ p ∈ parse readU32 payload,
      6 + ((c.db.getPinnedMessages p.1).map fun row => row.size + 1).sum ≤ MAX_PAYLOAD
  | .chatSearch payload => ∀ p ∈ parse readChatSearch payload, p.1.query ≠ [] →
      6 + ((c.searchResults p.1).map fun row => row.size + 1).sum ≤ MAX_PAYLOAD
  | .sendChannelList => 4 + (c.listedChannels.map ListedChannel.size).sum ≤ MAX_PAYLOAD
  | .sendUserList channel =>
      8 + ((c.server.channelUsers channel).map ChannelUser.size).sum ≤ MAX_PAYLOAD

/-- A chat request of a session that is not logged in is ignored. -/
def NeedsLogin : ChatRequest → Prop
  | .sendChannelList | .sendUserList _ => False
  | _ => True

def Fits (c : ChatServer) (sid : SessionId) (request : ChatRequest) : Prop :=
  sid ∈ c.server.sessionTable → (NeedsLogin request → (c.session sid).authenticated = true) →
    c.FitsAccepted sid request

/-! ### What a request sends -/

/-- The messages sent get through. -/
def AllReceivable (outcome : ChatOutcome) : Prop := ∀ sent ∈ outcome.2, sent.2.Receivable

variable {c : ChatServer} {sid : SessionId}

theorem allReceivable_ignore : AllReceivable c.ignore := fun _ hsent => by cases hsent

theorem allReceivable_reply (message : ChatReply) :
    AllReceivable (c.reply sid message) ↔ message.Receivable := by
  simp [AllReceivable, reply]

/-- A broadcast reaches at least the session that asked for it. -/
theorem allReceivable_broadcast (hin : sid ∈ c.server.sessionTable)
    (hauth : (c.session sid).authenticated = true) (db : ChatDatabase) (message : ChatReply) :
    AllReceivable (db, c.broadcast message) ↔ message.Receivable := by
  constructor
  · intro h
    apply h (sid, message)
    exact List.mem_map.mpr ⟨sid, List.mem_filter.mpr ⟨hin, hauth⟩, rfl⟩
  · intro h sent hsent
    obtain ⟨other, _, rfl⟩ := List.mem_map.mp hsent
    exact h

/-- The error texts are short. -/
theorem receivable_serverError {text : String} (htext : text.utf8ByteSize ≤ 1000) :
    (serverError text).Receivable := by
  apply receivable_plain rfl rfl rfl
  show (writeU16 0 ++ writeString text).length ≤ 1048574
  rw [List.length_append, length_writeU16, length_writeString]
  omega

theorem length_readAttachments (count : Nat) (reader : BinaryReader) :
    (readAttachments count reader).length ≤ count := by
  induction count generalizing reader with
  | zero => exact le_rfl
  | succ count ih =>
      show (if (readAttachment.run reader).2.error then [] else _).length ≤ count + 1
      split
      · exact Nat.zero_le _
      · exact Nat.succ_le_succ (ih _)

/-- What is broadcast has the names and types of the request. -/
theorem storeAttachments_size (messageId : BitVec 64) (month : Bytes) (ok : Nat → Bool) (i : Nat)
    (attachments : List PendingAttachment) (db : ChatDatabase) :
    (storeAttachments messageId month ok i attachments db).1.map ChatAttachment.size =
      attachments.map PendingAttachment.wireSize := by
  induction attachments generalizing i db with
  | nil => rfl
  | cons a rest ih =>
      rw [List.map_cons, ← ih]
      rfl

theorem receivable_sent (row : MessageRow) {attachments : List ChatAttachment} {count : BitVec 8}
    (hcount : attachments.length ≤ count.toNat) :
    (chatMessage ⟨row, attachments⟩).Receivable ↔
      row.size + 1 + (attachments.map ChatAttachment.size).sum ≤ MAX_PAYLOAD := by
  rw [receivable_chatMessage]
  constructor
  · exact And.left
  · intro h
    exact ⟨h, lt_of_le_of_lt hcount count.isLt⟩

/-- A request that stores nothing is answered by an error at most. -/
theorem chatSend_refused {payload : Bytes} {send : ChatSend} {reader : BinaryReader}
    (hparse : parse readChatSend payload = some (send, reader)) {messageOk : Bool}
    (hno : ¬ c.Stores send messageOk) (now : BitVec 64) (month : Bytes)
    (attachmentOk : Nat → Bool) :
    AllReceivable (c.chatSend sid payload now month messageOk attachmentOk) := by
  have herror : ∀ text : String, text.utf8ByteSize ≤ 1000 →
      AllReceivable (c.reply sid (serverError text)) :=
    fun text htext => (allReceivable_reply _).mpr (receivable_serverError htext)
  rw [chatSend, hparse]
  dsimp only
  split
  · exact allReceivable_ignore
  · split
    · exact herror _ (by decide)
    next hchannel =>
      split
      · exact herror _ (by decide)
      next hlong =>
        cases hinsert : c.db.insertMessage send.channel (c.session sid).userId (c.username sid)
            send.text now messageOk with
        | none => exact herror _ (by decide)
        | some stored =>
            rw [ChatDatabase.insertMessage] at hinsert
            split at hinsert
            · cases hinsert
            next hok =>
              rw [Bool.or_eq_true, decide_eq_true_eq, not_or] at hok
              refine absurd ⟨?_, not_lt.mp hlong, by simpa using hok.1, not_le.mp hok.2⟩ hno
              rw [← Option.not_isNone, Bool.not_eq_true', Bool.eq_false_iff]
              exact hchannel

/-- A stored message is broadcast with the attachments of the request. -/
theorem chatSend_stored (hauth : (c.session sid).authenticated = true) {payload : Bytes}
    {send : ChatSend} {reader : BinaryReader}
    (hparse : parse readChatSend payload = some (send, reader)) {messageOk : Bool}
    (hstores : c.Stores send messageOk) (now : BitVec 64) (month : Bytes)
    (attachmentOk : Nat → Bool) :
    ∃ (db : ChatDatabase) (row : MessageRow) (attachments : List ChatAttachment),
      c.chatSend sid payload now month messageOk attachmentOk =
        (db, c.broadcast (.chatMessage ⟨row, attachments⟩)) ∧
      row.size = 29 + (c.username sid).length + send.text.length ∧
      attachments.map ChatAttachment.size =
        (readAttachments send.attachmentCount.toNat reader).map PendingAttachment.wireSize := by
  obtain ⟨hchannel, hshort, hok, hlast⟩ := hstores
  have hfound : ¬ (c.db.getTextChannel send.channel).isNone = true := by
    rw [← Option.not_isSome, hchannel]
    decide
  have hinsert : ¬ (!messageOk || 2 ^ 63 ≤ c.db.lastMessageId + 1) = true := by
    rw [hok, Bool.not_true, Bool.false_or, decide_eq_true_eq]
    exact not_le.mpr hlast
  rw [chatSend, hparse, if_neg (by simp [hauth])]
  dsimp only
  rw [if_neg hfound, if_neg (not_lt.mpr hshort), ChatDatabase.insertMessage, if_neg hinsert]
  exact ⟨_, _, _, rfl, rfl, storeAttachments_size ..⟩

theorem chatSend_fits (hin : sid ∈ c.server.sessionTable)
    (hauth : (c.session sid).authenticated = true) (payload : Bytes) (now : BitVec 64)
    (month : Bytes) (messageOk : Bool) (attachmentOk : Nat → Bool) :
    AllReceivable (c.chatSend sid payload now month messageOk attachmentOk) ↔
      c.FitsAccepted sid (.chatSend payload now month messageOk attachmentOk) := by
  cases hparse : parse readChatSend payload with
  | none => simp [chatSend, hauth, FitsAccepted, hparse, allReceivable_ignore]
  | some p =>
      obtain ⟨send, reader⟩ := p
      have hfits : c.FitsAccepted sid (.chatSend payload now month messageOk attachmentOk) ↔
          (c.Stores send messageOk → 30 + (c.username sid).length + send.text.length +
            ((readAttachments send.attachmentCount.toNat reader).map
              PendingAttachment.wireSize).sum ≤ MAX_PAYLOAD) := by
        simp [FitsAccepted, hparse]
      rw [hfits]
      by_cases hstores : c.Stores send messageOk
      · obtain ⟨db, row, attachments, hsent, hrow, hsizes⟩ :=
          chatSend_stored hauth hparse hstores now month attachmentOk
        have hcount : attachments.length ≤ send.attachmentCount.toNat := by
          have hlength := congrArg List.length hsizes
          rw [List.length_map, List.length_map] at hlength
          rw [hlength]
          exact length_readAttachments _ _
        rw [hsent, allReceivable_broadcast hin hauth, receivable_sent row hcount, hrow, hsizes]
        constructor
        · intro h _
          omega
        · intro h
          have hle := h hstores
          omega
      · apply iff_of_true
        · exact chatSend_refused hparse hstores now month attachmentOk
        · intro h
          exact absurd h hstores

theorem chatHistoryReq_fits (hauth : (c.session sid).authenticated = true) (payload : Bytes) :
    AllReceivable (c.chatHistoryReq sid payload) ↔
      c.FitsAccepted sid (.chatHistoryReq payload) := by
  rw [chatHistoryReq, if_neg (by simp [hauth]), FitsAccepted]
  cases parse readChatHistoryReq payload with
  | none => simp [allReceivable_ignore]
  | some p =>
      obtain ⟨req, reader⟩ := p
      dsimp only
      rw [allReceivable_reply, receivable_chatHistoryResp, List.map_map]
      simp [withAttachments, Function.comp_def]

theorem chatPinnedReq_fits (hauth : (c.session sid).authenticated = true) (payload : Bytes) :
    AllReceivable (c.chatPinnedReq sid payload) ↔ c.FitsAccepted sid (.chatPinnedReq payload) := by
  rw [chatPinnedReq, if_neg (by simp [hauth]), FitsAccepted]
  cases parse readU32 payload with
  | none => simp [allReceivable_ignore]
  | some p =>
      obtain ⟨channel, reader⟩ := p
      dsimp only
      rw [allReceivable_reply, receivable_chatPinnedResp]
      simp

theorem chatSearch_fits (hauth : (c.session sid).authenticated = true) (payload : Bytes) :
    AllReceivable (c.chatSearch sid payload) ↔ c.FitsAccepted sid (.chatSearch payload) := by
  rw [chatSearch, if_neg (by simp [hauth]), FitsAccepted]
  cases parse readChatSearch payload with
  | none => simp [allReceivable_ignore]
  | some p =>
      obtain ⟨req, reader⟩ := p
      dsimp only
      by_cases hempty : req.query = []
      · simp [hempty, allReceivable_ignore]
      · have hquery : ¬ req.query.isEmpty = true := by
          rw [List.isEmpty_iff]
          exact hempty
        rw [if_neg hquery, allReceivable_reply, receivable_chatSearchResp]
        simp [hempty]

/-- A change of the pin goes out without attachments. -/
theorem receivable_repinned (row : MessageRow) (pinned : Bool) :
    (chatMessage ⟨{ row with pinned := pinned }, []⟩).Receivable ↔ row.size + 1 ≤ MAX_PAYLOAD := by
  rw [receivable_chatMessage]
  constructor
  · exact And.left
  · intro h
    exact ⟨h, (by decide : 0 < 256)⟩

theorem chatPin_fits (hin : sid ∈ c.server.sessionTable)
    (hauth : (c.session sid).authenticated = true) (payload : Bytes) (dbOk : Bool) :
    AllReceivable (c.chatPin sid payload dbOk) ↔ c.FitsAccepted sid (.chatPin payload dbOk) := by
  rw [chatPin, FitsAccepted]
  cases c.namedMessage sid payload with
  | none => simp [allReceivable_ignore]
  | some row =>
      dsimp only
      rw [allReceivable_broadcast hin hauth, receivable_repinned]
      simp

theorem chatUnpin_fits (hin : sid ∈ c.server.sessionTable)
    (hauth : (c.session sid).authenticated = true) (payload : Bytes) (dbOk : Bool) :
    AllReceivable (c.chatUnpin sid payload dbOk) ↔ c.FitsAccepted sid (.chatUnpin payload dbOk) := by
  rw [chatUnpin, FitsAccepted]
  cases c.namedMessage sid payload with
  | none => simp [allReceivable_ignore]
  | some row =>
      dsimp only
      rw [allReceivable_broadcast hin hauth, receivable_repinned]
      simp

theorem allReceivable_chatDelete (payload : Bytes) (dbOk : Bool) :
    AllReceivable (c.chatDelete sid payload dbOk) := by
  rw [chatDelete]
  cases c.namedMessage sid payload with
  | none => exact allReceivable_ignore
  | some row =>
      dsimp only
      split
      · exact (allReceivable_reply _).mpr (receivable_serverError (by decide))
      · intro sent hsent
        obtain ⟨other, _, rfl⟩ := List.mem_map.mp hsent
        apply receivable_plain rfl rfl rfl
        simp [head, MAX_PAYLOAD]

/-- The chat requests of a session that is not logged in are ignored. -/
theorem handle_loggedOut (hauth : ¬ (c.session sid).authenticated = true) {request : ChatRequest}
    (hneeds : NeedsLogin request) : AllReceivable (c.handle sid request) := by
  have hnamed : ∀ payload, c.namedMessage sid payload = none := by
    intro payload
    rw [namedMessage, guard, if_neg hauth]
    rfl
  have hno : (!(c.session sid).authenticated) = true := by
    rw [Bool.eq_false_iff.mpr hauth]
    rfl
  unfold handle
  split
  · exact allReceivable_ignore
  · cases request with
    | chatSend => simp only [chatSend, if_pos hno, allReceivable_ignore]
    | chatHistoryReq => simp only [chatHistoryReq, if_pos hno, allReceivable_ignore]
    | chatPin => simp only [chatPin, hnamed, allReceivable_ignore]
    | chatUnpin => simp only [chatUnpin, hnamed, allReceivable_ignore]
    | chatDelete => exact allReceivable_chatDelete _ _
    | chatPinnedReq => simp only [chatPinnedReq, if_pos hno, allReceivable_ignore]
    | chatSearch => simp only [chatSearch, if_pos hno, allReceivable_ignore]
    | sendChannelList => cases hneeds
    | sendUserList => cases hneeds

theorem handle_accepted (hin : sid ∈ c.server.sessionTable) {request : ChatRequest}
    (hauth : NeedsLogin request → (c.session sid).authenticated = true) :
    AllReceivable (c.handle sid request) ↔ c.FitsAccepted sid request := by
  unfold handle
  rw [if_neg (not_not.mpr hin)]
  cases request with
  | chatSend => exact chatSend_fits hin (hauth trivial) ..
  | chatHistoryReq => exact chatHistoryReq_fits (hauth trivial) _
  | chatPin => exact chatPin_fits hin (hauth trivial) _ _
  | chatUnpin => exact chatUnpin_fits hin (hauth trivial) _ _
  | chatDelete => exact iff_of_true (allReceivable_chatDelete _ _) trivial
  | chatPinnedReq => exact chatPinnedReq_fits (hauth trivial) _
  | chatSearch => exact chatSearch_fits (hauth trivial) _
  | sendChannelList => exact (allReceivable_reply _).trans (receivable_channelList _)
  | sendUserList channel =>
      exact (allReceivable_reply _).trans (receivable_channelUserList channel _)

/-- What a request sends gets through exactly if what goes into one message is small enough. -/
theorem receivable_iff_fits (c : ChatServer) (sid : SessionId) (request : ChatRequest) :
    (∀ sent ∈ (c.handle sid request).2, sent.2.Receivable) ↔ c.Fits sid request := by
  by_cases hin : sid ∈ c.server.sessionTable
  · by_cases hauth : NeedsLogin request → (c.session sid).authenticated = true
    · constructor
      · intro h _ _
        exact (handle_accepted hin hauth).mp h
      · intro h
        exact (handle_accepted hin hauth).mpr (h hin hauth)
    · obtain ⟨hneeds, hout⟩ := Classical.not_imp.mp hauth
      exact iff_of_true (handle_loggedOut hout hneeds) fun _ h => absurd h hauth
  · have hnothing : c.handle sid request = c.ignore := if_pos hin
    rw [hnothing]
    exact iff_of_true allReceivable_ignore fun h => absurd h hin

/-- A pinned message of 4000 bytes, the longest the server takes by default. -/
def pinnedMessage (i : Nat) : StoredMessage where
  id := BitVec.ofNat 64 (i + 1)
  channelId := 1
  senderId := 1
  senderName := []
  text := List.replicate 4000 97
  pinned := true

/-- A server whose first text channel has 263 of them. -/
def manyPinned : ChatServer where
  server := (Server.new .small (.ticking 1)).onNewConnection.modifySession 1 fun session =>
    { session with authenticated := true, userId := 1 }
  db := { messages := (List.range 263).map pinnedMessage }

theorem getPinnedMessages_all {db : ChatDatabase} {channel : BitVec 32} {size : Nat}
    (hpinned : ∀ m ∈ db.messages, (m.channelId = channel && m.pinned && !m.deleted) = true)
    (hsize : ∀ m ∈ db.messages, m.size = size) :
    ((db.getPinnedMessages channel).map fun row => row.size + 1).sum =
      db.messages.length * (size + 1) := by
  have hall : ∀ row ∈ db.getPinnedMessages channel, row.size + 1 = size + 1 := by
    intro row hrow
    obtain ⟨m, hm, rfl⟩ := List.mem_map.mp hrow
    rw [newestFirst, List.mem_insertionSort] at hm
    exact congrArg (· + 1) (hsize m (List.mem_filter.mp hm).1)
  have hlength : (db.getPinnedMessages channel).length = db.messages.length := by
    rw [ChatDatabase.getPinnedMessages, newestFirst, List.length_map, List.length_insertionSort,
      List.filter_eq_self.mpr hpinned]
  rw [List.map_congr_left hall, List.map_const', List.sum_replicate_nat, hlength]

theorem chatPinnedReq_small {payload : Bytes} {channel : BitVec 32} {reader : BinaryReader}
    (hall : AllReceivable (c.handle sid (.chatPinnedReq payload)))
    (hin : sid ∈ c.server.sessionTable) (hauth : (c.session sid).authenticated = true)
    (hparse : parse readU32 payload = some (channel, reader)) :
    6 + ((c.db.getPinnedMessages channel).map fun row => row.size + 1).sum ≤ MAX_PAYLOAD := by
  have hfits := (handle_accepted hin fun _ => hauth).mp hall
  rw [FitsAccepted, hparse] at hfits
  exact hfits (channel, reader) rfl

theorem not_receivable_handle : ¬ ∀ (c : ChatServer) sid request,
    ∀ sent ∈ (c.handle sid request).2, sent.2.Receivable := by
  intro h
  have hparse : parse readU32 [1, 0, 0, 0] = some (1, { rest := [] }) := by decide
  have hsum := chatPinnedReq_small (h manyPinned 1 _) (by decide) rfl hparse
  have hmessages : manyPinned.db.messages = (List.range 263).map pinnedMessage := rfl
  have hpinned : ∀ m ∈ manyPinned.db.messages,
      (m.channelId = 1 && m.pinned && !m.deleted) = true := by
    intro m hm
    rw [hmessages] at hm
    obtain ⟨i, _, rfl⟩ := List.mem_map.mp hm
    rfl
  have hsize : ∀ m ∈ manyPinned.db.messages, m.size = 4029 := by
    intro m hm
    rw [hmessages] at hm
    obtain ⟨i, _, rfl⟩ := List.mem_map.mp hm
    show 29 + 0 + (List.replicate 4000 97).length = 4029
    rw [List.length_replicate]
  rw [getPinnedMessages_all hpinned hsize, hmessages, List.length_map, List.length_range] at hsum
  exact absurd hsum (by decide)

end ChatServer

end Parties

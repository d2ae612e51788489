import Parties.Server.ChatHandlers
import Parties.Server.MessageSizes

/-!
# What the chat tables hold

Message ids grow with time and are never given out twice; the strings of a row come
from the wire or from a session, so their lengths fit the 16 bits they are written
with; no message has more attachments than a byte counts. These hold of every database
the server reaches, and with them every reply can be read as it was meant.
-/

namespace Parties

open Parties.Wire Parties.Wire.BinaryReader

/-! ### What a request can do -/

namespace ChatServer

/-- The outcomes of a chat request, each with what the handler has checked. -/
inductive Handles (c : ChatServer) (sid : SessionId) : ChatRequest → ChatOutcome → Prop where
  | ignored (request : ChatRequest) : Handles c sid request c.ignore
  | refused (request : ChatRequest) (text : String) :
      Handles c sid request (c.reply sid (.serverError text))
  | stored {payload : Bytes} {now : BitVec 64} {month : Bytes} {messageOk : Bool}
      {attachmentOk : Nat → Bool} {send : ChatSend} {reader : BinaryReader} {id : BitVec 64}
      {db : ChatDatabase} (hin : sid ∈ c.server.sessionTable)
      (hauth : (c.session sid).authenticated = true)
      (hparse : parse readChatSend payload = some (send, reader))
      (hinsert : c.db.insertMessage send.channel (c.session sid).userId (c.username sid)
        send.text now messageOk = some (id, db)) :
      Handles c sid (.chatSend payload now month messageOk attachmentOk)
        ((storeAttachments id month attachmentOk 0
            (readAttachments send.attachmentCount.toNat reader) db).2,
          c.broadcast (.chatMessage {
            row := {
              id
              channelId := send.channel
              senderId := (c.session sid).userId
              senderName := c.username sid
              text := send.text
              createdAt := now }
            attachments := (storeAttachments id month attachmentOk 0
              (readAttachments send.attachmentCount.toNat reader) db).1 }))
  | history {payload : Bytes} {req : ChatHistoryReq} {reader : BinaryReader}
      (hparse : parse readChatHistoryReq payload = some (req, reader)) :
      Handles c sid (.chatHistoryReq payload) (c.reply sid (.chatHistoryResp req.channel
        (c.historyPage req).2 ((c.historyPage req).1.map c.withAttachments)))
  | pinned {payload : Bytes} {dbOk : Bool} {row : MessageRow}
      (hrow : c.namedMessage sid payload = some row) :
      Handles c sid (.chatPin payload dbOk) (if dbOk then c.db.pinMessage row.id else c.db,
        c.broadcast (.chatMessage ⟨{ row with pinned := true }, []⟩))
  | unpinned {payload : Bytes} {dbOk : Bool} {row : MessageRow}
      (hrow : c.namedMessage sid payload = some row) :
      Handles c sid (.chatUnpin payload dbOk) (if dbOk then c.db.unpinMessage row.id else c.db,
        c.broadcast (.chatMessage ⟨{ row with pinned := false }, []⟩))
  | deleted {payload : Bytes} {dbOk : Bool} {row : MessageRow}
      (hrow : c.namedMessage sid payload = some row) :
      Handles c sid (.chatDelete payload dbOk) (if dbOk then c.db.softDeleteMessage row.id else c.db,
        c.broadcast (.chatMessageDeleted row.id row.channelId))
  | pinnedList (payload : Bytes) (channel : BitVec 32) :
      Handles c sid (.chatPinnedReq payload)
        (c.reply sid (.chatPinnedResp channel ((c.db.getPinnedMessages channel).map (⟨·, []⟩))))
  | searched (payload : Bytes) (req : ChatSearch) :
      Handles c sid (.chatSearch payload)
        (c.reply sid (.chatSearchResp req.channel ((c.searchResults req).map (⟨·, []⟩))))
  | channels : Handles c sid .sendChannelList (c.reply sid (.channelList c.listedChannels))
  | users (channel : ChannelId) : Handles c sid (.sendUserList channel)
      (c.reply sid (.channelUserList channel (c.server.channelUsers channel)))

variable {c : ChatServer} {sid : SessionId}

theorem chatSend_handles (hin : sid ∈ c.server.sessionTable) (payload : Bytes) (now : BitVec 64)
    (month : Bytes) (messageOk : Bool) (attachmentOk : Nat → Bool) :
    Handles c sid (.chatSend payload now month messageOk attachmentOk)
      (c.chatSend sid payload now month messageOk attachmentOk) := by
  rw [chatSend]
  split
  · exact .ignored _
  next hauth =>
    rw [Bool.not_eq_true', Bool.not_eq_false] at hauth
    split
    · exact .ignored _
    next send reader hparse =>
      split
      · exact .refused _ _
      · split
        · exact .refused _ _
        · split
          · exact .refused _ _
          next id db hinsert =>
            exact .stored hin hauth hparse hinsert

theorem chatHistoryReq_handles (payload : Bytes) :
    Handles c sid (.chatHistoryReq payload) (c.chatHistoryReq sid payload) := by
  rw [chatHistoryReq]
  split
  · exact .ignored _
  · split
    · exact .ignored _
    next req reader hparse =>
      exact .history hparse

theorem chatPin_handles (payload : Bytes) (dbOk : Bool) :
    Handles c sid (.chatPin payload dbOk) (c.chatPin sid payload dbOk) := by
  rw [chatPin]
  split
  · exact .ignored _
  next row hrow =>
    exact .pinned hrow

theorem chatUnpin_handles (payload : Bytes) (dbOk : Bool) :
    Handles c sid (.chatUnpin payload dbOk) (c.chatUnpin sid payload dbOk) := by
  rw [chatUnpin]
  split
  · exact .ignored _
  next row hrow =>
    exact .unpinned hrow

theorem chatDelete_handles (payload : Bytes) (dbOk : Bool) :
    Handles c sid (.chatDelete payload dbOk) (c.chatDelete sid payload dbOk) := by
  rw [chatDelete]
  split
  · exact .ignored _
  next row hrow =>
    split
    · exact .refused _ _
    · exact .deleted hrow

theorem chatPinnedReq_handles (payload : Bytes) :
    Handles c sid (.chatPinnedReq payload) (c.chatPinnedReq sid payload) := by
  rw [chatPinnedReq]
  split
  · exact .ignored _
  · split
    · exact .ignored _
    · exact .pinnedList _ _

theorem chatSearch_handles (payload : Bytes) :
    Handles c sid (.chatSearch payload) (c.chatSearch sid payload) := by
  rw [chatSearch]
  split
  · exact .ignored _
  · split
    · exact .ignored _
    · split
      · exact .ignored _
      · exact .searched _ _

/-- Every request has one of the outcomes above. -/
theorem handle_handles (c : ChatServer) (sid : SessionId) (request : ChatRequest) :
    Handles c sid request (c.handle sid request) := by
  unfold handle
  split
  · exact .ignored _
  next hin =>
    cases request with
    | chatSend payload now month messageOk attachmentOk =>
        exact chatSend_handles (not_not.mp hin) payload now month messageOk attachmentOk
    | chatHistoryReq payload => exact chatHistoryReq_handles payload
    | chatPin payload dbOk => exact chatPin_handles payload dbOk
    | chatUnpin payload dbOk => exact chatUnpin_handles payload dbOk
    | chatDelete payload dbOk => exact chatDelete_handles payload dbOk
    | chatPinnedReq payload => exact chatPinnedReq_handles payload
    | chatSearch payload => exact chatSearch_handles payload
    | sendChannelList => exact .channels
    | sendUserList channel => exact .users channel

end ChatServer

/-! ### Strings that fit -/

/-- The length of a string fits its 16 bits. -/
def TextFits (str : Bytes) : Prop := str.length < 2 ^ 16

structure ChatAttachment.Fits (a : ChatAttachment) : Prop where
  fileName : TextFits a.fileName
  mimeType : TextFits a.mimeType

structure MessageRow.Fits (m : MessageRow) : Prop where
  senderName : TextFits m.senderName
  text : TextFits m.text

structure ChatMessage.Fits (m : ChatMessage) : Prop where
  row : m.row.Fits
  attachments : ∀ a ∈ m.attachments, a.Fits
  count : m.attachments.length < 2 ^ 8

/-- What a chat reply needs to be read as it was meant. -/
def ChatReply.Fits : ChatReply → Prop
  | .chatMessage m => m.Fits
  | .chatHistoryResp _ _ msgs | .chatSearchResp _ msgs | .chatPinnedResp _ msgs =>
      msgs.length < 2 ^ 16 ∧ ∀ m ∈ msgs, m.Fits
  | _ => True

/-- The names of the sessions come from strings of the wire. -/
def ChatServer.NamesFit (c : ChatServer) : Prop := ∀ sid, TextFits (c.username sid)

theorem textFits_bindText {str : Bytes} (h : TextFits str) : TextFits (bindText str) := by
  have hle : (bindText str).length ≤ str.length := (List.takeWhile_sublist _).length_le
  exact lt_of_le_of_lt hle h

/-- What was read as a string fits. -/
theorem textFits_readString (r : BinaryReader) : TextFits (readString.run r).1 := by
  rw [run_readString]
  split
  · show 0 < 2 ^ 16
    decide
  · have hle := List.length_take_le (readU16.run r).1.toNat (readU16.run r).2.rest
    exact lt_of_le_of_lt hle (readU16.run r).1.isLt

theorem parse_value {α : Type} {reads : Reads α} {payload : Bytes} {value : α}
    {reader : BinaryReader} (h : parse reads payload = some (value, reader)) :
    reads.run { rest := payload } = (value, reader) := by
  rcases hrun : reads.run { rest := payload } with ⟨value', reader'⟩
  rw [parse, hrun] at h
  dsimp only at h
  split at h
  · cases h
  · exact Option.some.inj h

theorem textFits_chatSend {payload : Bytes} {send : ChatServer.ChatSend} {reader : BinaryReader}
    (h : parse ChatServer.readChatSend payload = some (send, reader)) : TextFits send.text := by
  have hvalue := congrArg (fun p => p.1.text) (parse_value h)
  dsimp only at hvalue
  rw [← hvalue]
  exact textFits_readString _

theorem textFits_readAttachments {count : Nat} {reader : BinaryReader}
    {a : ChatServer.PendingAttachment} (h : a ∈ ChatServer.readAttachments count reader) :
    TextFits a.name ∧ TextFits a.mime := by
  induction count generalizing reader with
  | zero => cases h
  | succ count ih =>
      change a ∈ (if (ChatServer.readAttachment.run reader).2.error then [] else
        (ChatServer.readAttachment.run reader).1 ::
          ChatServer.readAttachments count (ChatServer.readAttachment.run reader).2) at h
      split at h
      · cases h
      · rcases List.mem_cons.mp h with rfl | hrest
        · exact ⟨textFits_readString _, textFits_readString _⟩
        · exact ih hrest

/-! ### The invariant of the tables -/

theorem toNat_ofNat_of_lt {width n : Nat} (h : n < 2 ^ width) :
    (BitVec.ofNat width n).toNat = n := by
  rw [BitVec.toNat_ofNat, Nat.mod_eq_of_lt h]

namespace ChatDatabase

structure Sound (db : ChatDatabase) : Prop where
  bounded : db.lastMessageId < 2 ^ 63
  ascending : db.messages.Pairwise fun m m' => m.id.toInt < m'.id.toInt
  used : ∀ m ∈ db.messages, 0 < m.id.toInt ∧ m.id.toInt ≤ db.lastMessageId
  rowsFit : ∀ m ∈ db.messages, m.toMessageRow.Fits
  attachmentsUsed : ∀ a ∈ db.fileAttachments, a.messageId.toInt ≤ db.lastMessageId
  attachmentsFit : ∀ a ∈ db.fileAttachments, a.toChatAttachment.Fits
  attachmentsFew : ∀ id : BitVec 64,
    (db.fileAttachments.filter fun a => a.messageId = id).length < 2 ^ 8

theorem sound_empty (textChannels : List TextChannelRow) :
    Sound { textChannels := textChannels } where
  bounded := Nat.two_pow_pos 63
  ascending := List.Pairwise.nil
  used := by simp
  rowsFit := by simp
  attachmentsUsed := by simp
  attachmentsFit := by simp
  attachmentsFew := by simp

/-- The numbers of rows that were given out, as ids. -/
theorem toInt_rowId {n : Nat} (h : n < 2 ^ 63) : (BitVec.ofNat 64 n).toInt = n := by
  have hnat : (BitVec.ofNat 64 n).toNat = n := toNat_ofNat_of_lt (by omega)
  rw [BitVec.toInt_eq_toNat_of_lt (by omega), hnat]

theorem insertMessage_eq {db db' : ChatDatabase} {channel sender : BitVec 32}
    {senderName text : Bytes} {timestamp id : BitVec 64} {ok : Bool}
    (h : db.insertMessage channel sender senderName text timestamp ok = some (id, db')) :
    db.lastMessageId + 1 < 2 ^ 63 ∧ id = BitVec.ofNat 64 (db.lastMessageId + 1) ∧
      db' = { db with
        lastMessageId := db.lastMessageId + 1
        messages := db.messages ++ [{
          id
          channelId := channel
          senderId := sender
          senderName := bindText senderName
          text := bindText text
          createdAt := timestamp }] } := by
  rw [insertMessage] at h
  split at h
  · cases h
  next hroom =>
    rw [Bool.or_eq_true, decide_eq_true_eq, not_or, not_le] at hroom
    cases h
    exact ⟨hroom.2, rfl, rfl⟩

theorem Sound.insertMessage {db db' : ChatDatabase} (hs : db.Sound) {channel sender : BitVec 32}
    {senderName text : Bytes} {timestamp id : BitVec 64} {ok : Bool}
    (hname : TextFits senderName) (htext : TextFits text)
    (h : db.insertMessage channel sender senderName text timestamp ok = some (id, db')) :
    db'.Sound := by
  obtain ⟨hroom, rfl, rfl⟩ := insertMessage_eq h
  have hid := toInt_rowId hroom
  exact {
    bounded := hroom
    ascending := by
      refine List.pairwise_append.mpr ⟨hs.ascending, List.pairwise_singleton _ _, ?_⟩
      intro m hm m' hm'
      rw [List.mem_singleton.mp hm', hid]
      have hused := hs.used m hm
      push_cast
      omega
    used := by
      intro m hm
      rcases List.mem_append.mp hm with hold | hnew
      · have hused := hs.used m hold
        push_cast
        omega
      · rw [List.mem_singleton.mp hnew, hid]
        push_cast
        omega
    rowsFit := by
      intro m hm
      rcases List.mem_append.mp hm with hold | hnew
      · exact hs.rowsFit m hold
      · rw [List.mem_singleton.mp hnew]
        exact ⟨textFits_bindText hname, textFits_bindText htext⟩
    attachmentsUsed := by
      intro a ha
      have hused := hs.attachmentsUsed a ha
      push_cast
      omega
    attachmentsFit := hs.attachmentsFit
    attachmentsFew := hs.attachmentsFew }

/-- Updates that keep ids, names and texts. -/
theorem Sound.updateMessage {db : ChatDatabase} (hs : db.Sound) (picks : StoredMessage → Bool)
    {f : StoredMessage → StoredMessage} (hid : ∀ m, (f m).id = m.id)
    (hfits : ∀ m : StoredMessage, m.toMessageRow.Fits → (f m).toMessageRow.Fits) :
    (db.updateMessage picks f).Sound := by
  have hkeeps : ∀ m, (if picks m then f m else m).id = m.id := by
    intro m
    split
    · exact hid m
    · rfl
  exact {
    bounded := hs.bounded
    ascending := by
      refine List.pairwise_map.mpr (hs.ascending.imp ?_)
      intro m m' hlt
      rw [hkeeps, hkeeps]
      exact hlt
    used := by
      intro m hm
      obtain ⟨old, hold, rfl⟩ := List.mem_map.mp hm
      rw [hkeeps]
      exact hs.used old hold
    rowsFit := by
      intro m hm
      obtain ⟨old, hold, rfl⟩ := List.mem_map.mp hm
      split
      · exact hfits old (hs.rowsFit old hold)
      · exact hs.rowsFit old hold
    attachmentsUsed := hs.attachmentsUsed
    attachmentsFit := hs.attachmentsFit
    attachmentsFew := hs.attachmentsFew }

theorem Sound.pinMessage {db : ChatDatabase} (hs : db.Sound) (id : BitVec 64) :
    (db.pinMessage id).Sound :=
  hs.updateMessage _ (fun _ => rfl) fun _ h => ⟨h.senderName, h.text⟩

theorem Sound.unpinMessage {db : ChatDatabase} (hs : db.Sound) (id : BitVec 64) :
    (db.unpinMessage id).Sound :=
  hs.updateMessage _ (fun _ => rfl) fun _ h => ⟨h.senderName, h.text⟩

theorem Sound.softDeleteMessage {db : ChatDatabase} (hs : db.Sound) (id : BitVec 64) :
    (db.softDeleteMessage id).Sound :=
  hs.updateMessage _ (fun _ => rfl) fun _ h => ⟨h.senderName, h.text⟩

theorem Sound.purgeOldMessages {db : ChatDatabase} (hs : db.Sound) (cutoff : Int) :
    (db.purgeOldMessages cutoff).Sound :=
  hs.updateMessage _ (fun _ => rfl) fun _ h => ⟨h.senderName, h.text⟩

theorem Sound.textChannels {db : ChatDatabase} (hs : db.Sound) (rows : List TextChannelRow) :
    Sound { db with textChannels := rows } :=
  ⟨hs.bounded, hs.ascending, hs.used, hs.rowsFit, hs.attachmentsUsed, hs.attachmentsFit,
    hs.attachmentsFew⟩

/-- Fewer attachments. -/
theorem Sound.filterAttachments {db : ChatDatabase} (hs : db.Sound)
    (keeps : AttachmentRow → Bool) :
    Sound { db with fileAttachments := db.fileAttachments.filter keeps } where
  bounded := hs.bounded
  ascending := hs.ascending
  used := hs.used
  rowsFit := hs.rowsFit
  attachmentsUsed := fun a ha => hs.attachmentsUsed a (List.mem_of_mem_filter ha)
  attachmentsFit := fun a ha => hs.attachmentsFit a (List.mem_of_mem_filter ha)
  attachmentsFew := by
    intro id
    have hsub : ((db.fileAttachments.filter keeps).filter fun a => a.messageId = id).Sublist
        (db.fileAttachments.filter fun a => a.messageId = id) := List.filter_sublist.filter _
    exact lt_of_le_of_lt hsub.length_le (hs.attachmentsFew id)

/-- Fewer messages. -/
theorem Sound.filterMessages {db : ChatDatabase} (hs : db.Sound) (keeps : StoredMessage → Bool) :
    Sound { db with messages := db.messages.filter keeps } where
  bounded := hs.bounded
  ascending := hs.ascending.filter _
  used := fun m hm => hs.used m (List.mem_of_mem_filter hm)
  rowsFit := fun m hm => hs.rowsFit m (List.mem_of_mem_filter hm)
  attachmentsUsed := hs.attachmentsUsed
  attachmentsFit := hs.attachmentsFit
  attachmentsFew := hs.attachmentsFew

theorem Sound.deleteTextChannel {db : ChatDatabase} (hs : db.Sound) (id : BitVec 32) :
    (db.deleteTextChannel id).Sound :=
  ((hs.filterAttachments _).filterMessages _).textChannels _

theorem Sound.purgeFiles {db : ChatDatabase} (hs : db.Sound) (picks : AttachmentRow → Bool) :
    (db.purgeFiles picks).Sound :=
  hs.filterAttachments _

theorem Sound.markAttachmentUploaded {db : ChatDatabase} (hs : db.Sound) (id : BitVec 64) :
    (db.markAttachmentUploaded id).Sound := by
  have hkeeps : ∀ a : AttachmentRow,
      (if a.id = id then { a with uploaded := true } else a).messageId = a.messageId := by
    intro a
    split <;> rfl
  exact {
    bounded := hs.bounded
    ascending := hs.ascending
    used := hs.used
    rowsFit := hs.rowsFit
    attachmentsUsed := by
      intro a ha
      obtain ⟨old, hold, rfl⟩ := List.mem_map.mp ha
      rw [hkeeps]
      exact hs.attachmentsUsed old hold
    attachmentsFit := by
      intro a ha
      obtain ⟨old, hold, rfl⟩ := List.mem_map.mp ha
      have hfits := hs.attachmentsFit old hold
      split
      · exact ⟨hfits.fileName, hfits.mimeType⟩
      · exact hfits
    attachmentsFew := by
      intro messageId
      have hpred : ((fun a : AttachmentRow => decide (a.messageId = messageId)) ∘
          fun a => if a.id = id then { a with uploaded := true } else a) =
          fun a => decide (a.messageId = messageId) := by
        funext a
        rw [Function.comp_apply, hkeeps]
      show ((db.fileAttachments.map _).filter _).length < 2 ^ 8
      rw [List.filter_map, List.length_map, hpred]
      exact hs.attachmentsFew messageId }

end ChatDatabase

/-! ### Messages keep their ids and channels -/

namespace ChatDatabase

/-- The table has a message of this id in this channel, deleted or not. -/
def Holds (db : ChatDatabase) (id : BitVec 64) (channel : BitVec 32) : Prop :=
  ∃ m ∈ db.messages, m.id = id ∧ m.channelId = channel

/-- An id names one row. -/
theorem Sound.row_unique {db : ChatDatabase} (hs : db.Sound) {m m' : StoredMessage}
    (hm : m ∈ db.messages) (hm' : m' ∈ db.messages) (hid : m.id = m'.id) : m = m' := by
  have hnodup : (db.messages.map fun m => m.id.toInt).Nodup :=
    (List.pairwise_map.mpr hs.ascending).imp ne_of_lt
  exact List.inj_on_of_nodup_map hnodup hm hm' (congrArg BitVec.toInt hid)

theorem Sound.channel_unique {db : ChatDatabase} (hs : db.Sound) {id : BitVec 64}
    {channel channel' : BitVec 32} (h : db.Holds id channel) (h' : db.Holds id channel') :
    channel = channel' := by
  obtain ⟨m, hm, hid, rfl⟩ := h
  obtain ⟨m', hm', hid', rfl⟩ := h'
  rw [hs.row_unique hm hm' (hid.trans hid'.symm)]

theorem Sound.holds_used {db : ChatDatabase} (hs : db.Sound) {id : BitVec 64}
    {channel : BitVec 32} (h : db.Holds id channel) : id.toInt ≤ db.lastMessageId := by
  obtain ⟨m, hm, rfl, _⟩ := h
  exact (hs.used m hm).2

/-- Updates that keep ids, channels and deletions keep what is there. -/
theorem holds_updateMessage {db : ChatDatabase} {picks : StoredMessage → Bool}
    {f : StoredMessage → StoredMessage} (hid : ∀ m, (f m).id = m.id)
    (hchannel : ∀ m, (f m).channelId = m.channelId) {id : BitVec 64} {channel : BitVec 32}
    (h : db.Holds id channel) : (db.updateMessage picks f).Holds id channel := by
  obtain ⟨m, hm, rfl, rfl⟩ := h
  refine ⟨_, List.mem_map.mpr ⟨m, hm, rfl⟩, ?_, ?_⟩
  · split
    · exact hid m
    · rfl
  · split
    · exact hchannel m
    · rfl

end ChatDatabase

/-! ### Every request keeps it -/

namespace ChatServer

open ChatDatabase

@[simp] theorem storeAttachments_nil (messageId : BitVec 64) (month : Bytes) (ok : Nat → Bool)
    (i : Nat) (db : ChatDatabase) : storeAttachments messageId month ok i [] db = ([], db) := rfl

theorem storeAttachments_cons (messageId : BitVec 64) (month : Bytes) (ok : Nat → Bool) (i : Nat)
    (a : PendingAttachment) (rest : List PendingAttachment) (db : ChatDatabase) :
    storeAttachments messageId month ok i (a :: rest) db =
      let inserted := db.insertAttachment messageId a.name a.size a.mime
        (diskPath month messageId i a.name) (ok i)
      let stored := storeAttachments messageId month ok (i + 1) rest inserted.2
      ({ id := inserted.1, fileName := a.name, fileSize := a.size, mimeType := a.mime,
         uploaded := false } :: stored.1, stored.2) := rfl

/-- One row more, or none. -/
theorem insertAttachment_stores (db : ChatDatabase) (messageId : BitVec 64) (fileName : Bytes)
    (fileSize : BitVec 64) (mimeType diskPath : Bytes) (ok : Bool) :
    ∃ added last, (db.insertAttachment messageId fileName fileSize mimeType diskPath ok).2 =
        { db with fileAttachments := db.fileAttachments ++ added, lastAttachmentId := last } ∧
      added.length ≤ 1 ∧ ∀ row ∈ added, row.messageId = messageId ∧
        row.fileName = bindText fileName ∧ row.mimeType = bindText mimeType := by
  rw [insertAttachment]
  split
  · refine ⟨[], db.lastAttachmentId, ?_, Nat.zero_le 1, by simp⟩
    rw [List.append_nil]
  · refine ⟨[_], _, rfl, le_rfl, ?_⟩
    intro row hrow
    rw [List.mem_singleton.mp hrow]
    exact ⟨rfl, rfl, rfl⟩

/-- The rows of a message are added behind the others, one for each attachment at most. -/
theorem storeAttachments_stores (messageId : BitVec 64) (month : Bytes) (ok : Nat → Bool) (i : Nat)
    {attachments : List PendingAttachment}
    (hfits : ∀ a ∈ attachments, TextFits a.name ∧ TextFits a.mime) (db : ChatDatabase) :
    ∃ added last, (storeAttachments messageId month ok i attachments db).2 =
        { db with fileAttachments := db.fileAttachments ++ added, lastAttachmentId := last } ∧
      added.length ≤ attachments.length ∧
      ∀ row ∈ added, row.messageId = messageId ∧ row.toChatAttachment.Fits := by
  induction attachments generalizing i db with
  | nil =>
      refine ⟨[], db.lastAttachmentId, ?_, le_rfl, by simp⟩
      rw [List.append_nil]
      rfl
  | cons a rest ih =>
      obtain ⟨first, last, hinsert, hone, hfirst⟩ := insertAttachment_stores db messageId a.name
        a.size a.mime (diskPath month messageId i a.name) (ok i)
      obtain ⟨added, last', hstored, hcount, hadded⟩ := ih (i + 1)
        (fun a ha => hfits a (List.mem_cons_of_mem _ ha))
        { db with fileAttachments := db.fileAttachments ++ first, lastAttachmentId := last }
      refine ⟨first ++ added, last', ?_, ?_, ?_⟩
      · rw [storeAttachments_cons]
        dsimp only
        rw [hinsert, hstored, List.append_assoc]
      · rw [List.length_append, List.length_cons]
        omega
      · intro row hrow
        rcases List.mem_append.mp hrow with hnew | hrest
        · obtain ⟨hid, hname, hmime⟩ := hfirst row hnew
          obtain ⟨hfitsName, hfitsMime⟩ := hfits a List.mem_cons_self
          refine ⟨hid, ?_, ?_⟩
          · show TextFits row.fileName
            rw [hname]
            exact textFits_bindText hfitsName
          · show TextFits row.mimeType
            rw [hmime]
            exact textFits_bindText hfitsMime
        · exact hadded row hrest

theorem messages_storeAttachments (messageId : BitVec 64) (month : Bytes) (ok : Nat → Bool)
    (i : Nat) {attachments : List PendingAttachment}
    (hfits : ∀ a ∈ attachments, TextFits a.name ∧ TextFits a.mime) (db : ChatDatabase) :
    (storeAttachments messageId month ok i attachments db).2.messages = db.messages := by
  obtain ⟨added, last, hstored, _⟩ := storeAttachments_stores messageId month ok i hfits db
  rw [hstored]

/-- The message is announced with the attachments of the request. -/
theorem storeAttachments_announces (messageId : BitVec 64) (month : Bytes) (ok : Nat → Bool)
    (i : Nat) (attachments : List PendingAttachment) (db : ChatDatabase) :
    (storeAttachments messageId month ok i attachments db).1.map
        (fun a => (⟨a.fileName, a.fileSize, a.mimeType⟩ : PendingAttachment)) = attachments := by
  induction attachments generalizing i db with
  | nil => rfl
  | cons a rest ih =>
      rw [storeAttachments_cons]
      dsimp only
      rw [List.map_cons, ih]

theorem length_storeAttachments (messageId : BitVec 64) (month : Bytes) (ok : Nat → Bool)
    (i : Nat) (attachments : List PendingAttachment) (db : ChatDatabase) :
    (storeAttachments messageId month ok i attachments db).1.length = attachments.length := by
  have h := congrArg List.length
    (storeAttachments_announces messageId month ok i attachments db)
  rw [List.length_map] at h
  exact h

theorem storeAttachments_fits {messageId : BitVec 64} {month : Bytes} {ok : Nat → Bool} {i : Nat}
    {attachments : List PendingAttachment}
    (hfits : ∀ a ∈ attachments, TextFits a.name ∧ TextFits a.mime) {db : ChatDatabase} :
    ∀ a ∈ (storeAttachments messageId month ok i attachments db).1, a.Fits := by
  intro a ha
  have hmem := List.mem_map_of_mem (f := fun a : ChatAttachment =>
    (⟨a.fileName, a.fileSize, a.mimeType⟩ : PendingAttachment)) ha
  rw [storeAttachments_announces] at hmem
  exact ⟨(hfits _ hmem).1, (hfits _ hmem).2⟩

/-- The attachments of a message that was just inserted. -/
theorem sound_stored {c : ChatServer} {sid : SessionId} (hs : c.db.Sound) (hnames : c.NamesFit)
    {payload : Bytes} {now : BitVec 64} {messageOk : Bool} {send : ChatSend}
    {reader : BinaryReader} {id : BitVec 64} {db : ChatDatabase}
    (hparse : parse readChatSend payload = some (send, reader))
    (hinsert : c.db.insertMessage send.channel (c.session sid).userId (c.username sid)
      send.text now messageOk = some (id, db)) (month : Bytes) (attachmentOk : Nat → Bool) :
    (storeAttachments id month attachmentOk 0
      (readAttachments send.attachmentCount.toNat reader) db).2.Sound := by
  have hdb := hs.insertMessage (hnames sid) (textFits_chatSend hparse) hinsert
  obtain ⟨hroom, hid, hdb'⟩ := insertMessage_eq hinsert
  obtain ⟨added, last, hstored, hcount, hadded⟩ := storeAttachments_stores id month attachmentOk 0
    (fun a ha => textFits_readAttachments ha) db
  have hidInt : id.toInt = (c.db.lastMessageId + 1 : Nat) := by
    rw [hid]
    exact toInt_rowId hroom
  have hlast : db.lastMessageId = c.db.lastMessageId + 1 := by
    rw [hdb']
  rw [hstored]
  exact {
    bounded := hdb.bounded
    ascending := hdb.ascending
    used := hdb.used
    rowsFit := hdb.rowsFit
    attachmentsUsed := by
      intro a ha
      rcases List.mem_append.mp ha with hold | hnew
      · exact hdb.attachmentsUsed a hold
      · rw [(hadded a hnew).1, hidInt, hlast]
    attachmentsFit := by
      intro a ha
      rcases List.mem_append.mp ha with hold | hnew
      · exact hdb.attachmentsFit a hold
      · exact (hadded a hnew).2
    attachmentsFew := by
      intro messageId
      show ((db.fileAttachments ++ added).filter _).length < 2 ^ 8
      rw [List.filter_append, List.length_append]
      by_cases hnew : messageId = id
      · -- the new message had no attachments before
        have hnone : db.fileAttachments.filter (fun a => a.messageId = messageId) = [] := by
          rw [List.filter_eq_nil_iff]
          intro a ha heq
          have hold : a ∈ c.db.fileAttachments := by
            rw [hdb'] at ha
            exact ha
          have hused := hs.attachmentsUsed a hold
          rw [of_decide_eq_true heq, hnew, hidInt] at hused
          push_cast at hused
          omega
        rw [hnone, List.length_nil, Nat.zero_add]
        calc (added.filter fun a => a.messageId = messageId).length
            ≤ added.length := List.length_filter_le _ _
          _ ≤ (readAttachments send.attachmentCount.toNat reader).length := hcount
          _ ≤ send.attachmentCount.toNat := length_readAttachments _ _
          _ < 2 ^ 8 := send.attachmentCount.isLt
      · have hnone : added.filter (fun a => a.messageId = messageId) = [] := by
          rw [List.filter_eq_nil_iff]
          intro a ha heq
          rw [(hadded a ha).1] at heq
          exact hnew (of_decide_eq_true heq).symm
        rw [hnone, List.length_nil, Nat.add_zero]
        exact hdb.attachmentsFew messageId }

/-- What one request preserves. -/
theorem sound_handle {c : ChatServer} (hs : c.db.Sound) (hnames : c.NamesFit) (sid : SessionId)
    (request : ChatRequest) : (c.handle sid request).1.Sound := by
  have hhandles := c.handle_handles sid request
  generalize c.handle sid request = outcome at hhandles ⊢
  cases hhandles with
  | ignored | refused | history | pinnedList | searched | channels | users => exact hs
  | stored hin hauth hparse hinsert => exact sound_stored hs hnames hparse hinsert _ _
  | @pinned _ dbOk =>
      cases dbOk with
      | false => exact hs
      | true => exact hs.pinMessage _
  | @unpinned _ dbOk =>
      cases dbOk with
      | false => exact hs
      | true => exact hs.unpinMessage _
  | @deleted _ dbOk =>
      cases dbOk with
      | false => exact hs
      | true => exact hs.softDeleteMessage _

end ChatServer

/-- The databases a server gets to from one without messages: by chat requests of any
session, and by what else changes the chat tables. -/
inductive ChatDatabase.Reached : ChatDatabase → Prop where
  | fresh (textChannels : List TextChannelRow) : Reached { textChannels := textChannels }
  | request {c : ChatServer} (h : Reached c.db) (hnames : c.NamesFit) (sid : SessionId)
      (request : ChatRequest) : Reached (c.handle sid request).1
  | textChannels {db : ChatDatabase} (h : Reached db) (rows : List TextChannelRow) :
      Reached { db with textChannels := rows }
  | deleteTextChannel {db : ChatDatabase} (h : Reached db) (id : BitVec 32) :
      Reached (db.deleteTextChannel id)
  | markAttachmentUploaded {db : ChatDatabase} (h : Reached db) (id : BitVec 64) :
      Reached (db.markAttachmentUploaded id)
  | purgeOldMessages {db : ChatDatabase} (h : Reached db) (cutoff : Int) :
      Reached (db.purgeOldMessages cutoff)
  | purgeFiles {db : ChatDatabase} (h : Reached db) (picks : AttachmentRow → Bool) :
      Reached (db.purgeFiles picks)

theorem ChatDatabase.Reached.sound {db : ChatDatabase} (h : db.Reached) : db.Sound := by
  induction h with
  | fresh textChannels => exact sound_empty textChannels
  | request h hnames sid request ih => exact ChatServer.sound_handle ih hnames sid request
  | textChannels h rows ih => exact ih.textChannels rows
  | deleteTextChannel h id ih => exact ih.deleteTextChannel id
  | markAttachmentUploaded h id ih => exact ih.markAttachmentUploaded id
  | purgeOldMessages h cutoff ih => exact ih.purgeOldMessages cutoff
  | purgeFiles h picks ih => exact ih.purgeFiles picks

/-! ### What is read from them -/

namespace ChatDatabase

theorem mem_newestFirst {rows : List StoredMessage} {m : StoredMessage} :
    m ∈ newestFirst rows ↔ m ∈ rows := List.mem_insertionSort _

/-- The newest rows come first. -/
theorem pairwise_newestFirst {rows : List StoredMessage}
    (h : rows.Pairwise fun m m' => m.id.toInt < m'.id.toInt) :
    (newestFirst rows).Pairwise fun m m' => m'.id.toInt < m.id.toInt := by
  have htotal : Std.Total fun a b : StoredMessage => b.id.toInt ≤ a.id.toInt :=
    ⟨fun a b => le_total b.id.toInt a.id.toInt⟩
  have htrans : IsTrans StoredMessage fun a b => b.id.toInt ≤ a.id.toInt :=
    ⟨fun a b c hab hbc => le_trans hbc hab⟩
  have hsorted : (newestFirst rows).Pairwise fun m m' => m'.id.toInt ≤ m.id.toInt :=
    List.pairwise_insertionSort _ rows
  have hapart : (newestFirst rows).Pairwise fun m m' => m.id.toInt ≠ m'.id.toInt :=
    (List.perm_insertionSort _ rows).symm.pairwise (h.imp ne_of_lt) fun hne => hne.symm
  exact (hsorted.and hapart).imp fun hboth => lt_of_le_of_ne hboth.1 (Ne.symm hboth.2)

theorem mem_getMessages {db : ChatDatabase} {channel : BitVec 32} {before : BitVec 64}
    {limit : Nat} {row : MessageRow} (h : row ∈ db.getMessages channel before limit) :
    ∃ m ∈ db.messages, m.toMessageRow = row ∧ inPage channel before m = true := by
  obtain ⟨m, hm, hrow⟩ := List.mem_map.mp (List.mem_reverse.mp h)
  obtain ⟨hmem, hpage⟩ := List.mem_filter.mp (mem_newestFirst.mp (List.mem_of_mem_take hm))
  exact ⟨m, hmem, hrow, hpage⟩

theorem length_getMessages (db : ChatDatabase) (channel : BitVec 32) (before : BitVec 64)
    (limit : Nat) : (db.getMessages channel before limit).length ≤ limit := by
  rw [getMessages, List.length_reverse, List.length_map]
  exact List.length_take_le _ _

/-- A page is in the order of its ids. -/
theorem Sound.pairwise_getMessages {db : ChatDatabase} (hs : db.Sound) (channel : BitVec 32)
    (before : BitVec 64) (limit : Nat) :
    (db.getMessages channel before limit).Pairwise fun m m' => m.id.toInt < m'.id.toInt := by
  rw [getMessages, List.pairwise_reverse, List.pairwise_map]
  exact (pairwise_newestFirst (hs.ascending.filter _)).take

theorem getMessage_some {db : ChatDatabase} {id : BitVec 64} {row : MessageRow}
    (h : db.getMessage id = some row) :
    ∃ m ∈ db.messages, m.toMessageRow = row ∧ m.id = id ∧ m.deleted = false := by
  obtain ⟨m, hfind, hrow⟩ := Option.map_eq_some_iff.mp h
  have hpred := List.find?_some hfind
  rw [Bool.and_eq_true, decide_eq_true_eq, Bool.not_eq_true'] at hpred
  exact ⟨m, List.mem_of_find?_eq_some hfind, hrow, hpred.1, hpred.2⟩

theorem id_of_getMessage {db : ChatDatabase} {id : BitVec 64} {row : MessageRow}
    (h : db.getMessage id = some row) : row.id = id := by
  obtain ⟨m, _, rfl, hid, _⟩ := getMessage_some h
  exact hid

theorem Sound.getMessage_fits {db : ChatDatabase} (hs : db.Sound) {id : BitVec 64}
    {row : MessageRow} (h : db.getMessage id = some row) : row.Fits := by
  obtain ⟨m, hm, rfl, _, _⟩ := getMessage_some h
  exact hs.rowsFit m hm

theorem Sound.attachments_fit {db : ChatDatabase} (hs : db.Sound) (id : BitVec 64) :
    ∀ a ∈ (db.getAttachmentsForMessage id).map AttachmentRow.toChatAttachment, a.Fits := by
  intro a ha
  obtain ⟨row, hrow, rfl⟩ := List.mem_map.mp ha
  exact hs.attachmentsFit row
    (List.mem_of_mem_filter ((List.mem_insertionSort _).mp hrow))

theorem Sound.attachments_count {db : ChatDatabase} (hs : db.Sound) (id : BitVec 64) :
    ((db.getAttachmentsForMessage id).map AttachmentRow.toChatAttachment).length < 2 ^ 8 := by
  rw [List.length_map, getAttachmentsForMessage, List.length_insertionSort]
  exact hs.attachmentsFew id

end ChatDatabase

namespace ChatServer

open ChatDatabase

theorem namedMessage_some {c : ChatServer} {sid : SessionId} {payload : Bytes} {row : MessageRow} :
    c.namedMessage sid payload = some row ↔ (c.session sid).authenticated = true ∧
      ∃ reader, parse readU64 payload = some (row.id, reader) ∧
        c.db.getMessage row.id = some row := by
  constructor
  · intro h
    obtain ⟨_, hauth, h⟩ := Option.bind_eq_some_iff.mp h
    obtain ⟨⟨id, reader⟩, hparse, hrow⟩ := Option.bind_eq_some_iff.mp h
    obtain rfl := id_of_getMessage hrow
    exact ⟨by simpa [guard] using hauth, reader, hparse, hrow⟩
  · rintro ⟨hauth, reader, hparse, hrow⟩
    rw [namedMessage, hauth, hparse]
    exact hrow

theorem withAttachments_fits {c : ChatServer} (hs : c.db.Sound) {row : MessageRow}
    (hrow : row.Fits) : (c.withAttachments row).Fits :=
  ⟨hrow, hs.attachments_fit row.id, hs.attachments_count row.id⟩

theorem bare_fits {row : MessageRow} (h : row.Fits) : ChatMessage.Fits ⟨row, []⟩ :=
  ⟨h, by simp, Nat.two_pow_pos 8⟩

end ChatServer

/-- The list of pinned messages alone may have more entries than its number says. -/
def ChatReply.Readable (reply : ChatReply) : Prop :=
  (∀ channel msgs, reply ≠ .chatPinnedResp channel msgs) → reply.Fits

namespace ChatServer

open ChatDatabase

theorem readable_broadcast {c : ChatServer} {message : ChatReply} (h : message.Fits) :
    ∀ sent ∈ c.broadcast message, sent.2.Readable := by
  intro sent hsent
  obtain ⟨other, _, rfl⟩ := List.mem_map.mp hsent
  exact fun _ => h

/-- Every reply can be read as it was meant. -/
theorem readable_handle {c : ChatServer} (hs : c.db.Sound) (hnames : c.NamesFit) (sid : SessionId)
    (request : ChatRequest) : ∀ sent ∈ (c.handle sid request).2, sent.2.Readable := by
  have hhandles := c.handle_handles sid request
  generalize c.handle sid request = outcome at hhandles ⊢
  have hreply : ∀ message : ChatReply, message.Readable →
      ∀ sent ∈ (c.reply sid message).2, sent.2.Readable := by
    intro message hmessage sent hsent
    rw [List.mem_singleton.mp hsent]
    exact hmessage
  have hnamed : ∀ payload row, c.namedMessage sid payload = some row → row.Fits := by
    intro payload row hrow
    obtain ⟨_, _, _, hget⟩ := namedMessage_some.mp hrow
    exact hs.getMessage_fits hget
  cases hhandles with
  | ignored => simp [ignore]
  | refused | channels | users => exact hreply _ fun _ => trivial
  | stored hin hauth hparse hinsert =>
      apply readable_broadcast
      exact {
        row := ⟨hnames sid, textFits_chatSend hparse⟩
        attachments := storeAttachments_fits fun a ha => textFits_readAttachments ha
        count := by
          rw [length_storeAttachments]
          exact lt_of_le_of_lt (length_readAttachments _ _) (BitVec.isLt _) }
  | @history payload req reader hparse =>
      refine hreply _ fun _ => ⟨?_, ?_⟩
      · have hlength := length_getMessages c.db req.channel req.before (min req.limit.toNat 100)
        rw [List.length_map]
        show (c.db.getMessages _ _ _).length < 2 ^ 16
        omega
      · intro m hm
        obtain ⟨row, hrow, rfl⟩ := List.mem_map.mp hm
        obtain ⟨stored, hstored, rfl, _⟩ := mem_getMessages hrow
        exact withAttachments_fits hs (hs.rowsFit stored hstored)
  | pinned hrow =>
      have hfits := hnamed _ _ hrow
      exact readable_broadcast (bare_fits ⟨hfits.senderName, hfits.text⟩)
  | unpinned hrow =>
      have hfits := hnamed _ _ hrow
      exact readable_broadcast (bare_fits ⟨hfits.senderName, hfits.text⟩)
  | deleted hrow => exact readable_broadcast trivial
  | pinnedList payload channel => exact hreply _ fun hno => absurd rfl (hno _ _)
  | searched payload req =>
      refine hreply _ fun _ => ⟨?_, ?_⟩
      · rw [List.length_map, searchResults, searchMessages, List.length_map]
        have hlength := List.length_take_le (min req.limit.toNat 50)
          (newestFirst (c.db.messages.filter fun m =>
            inPage req.channel req.before m && c.config.ftsMatch (bindText req.query) m.text))
        omega
      · intro m hm
        obtain ⟨row, hrow, rfl⟩ := List.mem_map.mp hm
        obtain ⟨stored, hstored, rfl⟩ := List.mem_map.mp hrow
        exact bare_fits (hs.rowsFit stored
          (List.mem_of_mem_filter (mem_newestFirst.mp (List.mem_of_mem_take hstored))))

end ChatServer

end Parties

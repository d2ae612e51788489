import Mathlib.Data.List.TakeWhile
import Parties.Server.MessageSizes
import Parties.Server.StoredChat

/-!
# Whole or nothing

A `CHAT_SEND` is read and stored in turns: the message row is inserted behind the head of
the request, and each attachment when it has been read. So a request that ends in the
middle of its attachments leaves a message with the first few of them. The other ways to
store less than was sent are a string with a zero byte, which is bound up to that byte, and
an attachment whose statement fails.
-/

namespace Parties

open Parties.Wire Parties.Wire.BinaryReader

namespace ChatServer

/-! ### What a request says -/

/-- All of a `CHAT_SEND`; none if any of it is missing or does not fit. -/
def readWhole (payload : Bytes) : Option (ChatSend × List PendingAttachment) :=
  match parse readChatSend payload with
  | none => none
  | some (send, reader) =>
    let listed := readAttachments send.attachmentCount.toNat reader
    if listed.length = send.attachmentCount.toNat then some (send, listed) else none

/-- The session may send, and the statement that inserts the message succeeds. -/
def Accepts (c : ChatServer) (sid : SessionId) (send : ChatSend) (messageOk : Bool) : Prop :=
  sid ∈ c.server.sessionTable ∧ (c.session sid).authenticated = true ∧ c.Stores send messageOk

/-! ### What becomes of it -/

/-- What a row says about its attachment. -/
def describe (row : AttachmentRow) : PendingAttachment where
  name := row.fileName
  size := row.fileSize
  mime := row.mimeType

/-- Nothing is stored, and at most an error is sent, to the session itself. -/
def NoEffect (c : ChatServer) (sid : SessionId) (outcome : ChatOutcome) : Prop :=
  outcome.1 = c.db ∧ ∀ sent ∈ outcome.2, ∃ text, sent = (sid, .serverError text)

/-- One message is stored, with the attachments listed. -/
def StoresWhole (c : ChatServer) (sid : SessionId) (send : ChatSend)
    (listed : List PendingAttachment) (outcome : ChatOutcome) : Prop :=
  ∃ (message : StoredMessage) (rows : List AttachmentRow),
    outcome.1.messages = c.db.messages ++ [message] ∧
    message.channelId = send.channel ∧
    message.senderId = (c.session sid).userId ∧
    message.text = send.text ∧
    outcome.1.fileAttachments = c.db.fileAttachments ++ rows ∧
    rows.map describe = listed ∧
    ∀ row ∈ rows, row.messageId = message.id

/-- A malformed or refused request has no effect, and any other is stored as it is. -/
def WholeOrNothing (c : ChatServer) (sid : SessionId) (payload : Bytes) (messageOk : Bool)
    (outcome : ChatOutcome) : Prop :=
  match readWhole payload with
  | none => c.NoEffect sid outcome
  | some (send, listed) =>
    (c.Accepts sid send messageOk → c.StoresWhole sid send listed outcome) ∧
      (¬ c.Accepts sid send messageOk → c.NoEffect sid outcome)

/-- The statements that insert attachments from number `i` on, as many as `count`, succeed. -/
def AllInserted (db : ChatDatabase) (ok : Nat → Bool) (i count : Nat) : Prop :=
  ∀ j < count, ok (i + j) = true ∧ db.lastAttachmentId + j + 1 < 2 ^ 63

/-- An accepted request lists all its attachments, its strings have no zero byte, and the
statements that insert the attachments succeed. -/
def SentWhole (c : ChatServer) (sid : SessionId) (payload : Bytes) (messageOk : Bool)
    (attachmentOk : Nat → Bool) : Prop :=
  ∀ send reader, parse readChatSend payload = some (send, reader) →
    c.Accepts sid send messageOk →
    (readAttachments send.attachmentCount.toNat reader).length = send.attachmentCount.toNat ∧
    0 ∉ send.text ∧
    (∀ a ∈ readAttachments send.attachmentCount.toNat reader, 0 ∉ a.name ∧ 0 ∉ a.mime) ∧
    AllInserted c.db attachmentOk 0 send.attachmentCount.toNat

/-! ### The rows of the attachments -/

theorem bindText_eq_self_iff {str : Bytes} : bindText str = str ↔ 0 ∉ str := by
  rw [bindText, List.takeWhile_eq_self_iff]
  constructor
  · intro h hzero
    simpa using h 0 hzero
  · intro h b hb
    have hne : b ≠ 0 := by
      rintro rfl
      exact h hb
    simpa using hne

/-- An attachment with its strings as they are bound. -/
def PendingAttachment.bound (a : PendingAttachment) : PendingAttachment where
  name := bindText a.name
  size := a.size
  mime := bindText a.mime

theorem PendingAttachment.bound_eq_self_iff {a : PendingAttachment} :
    a.bound = a ↔ 0 ∉ a.name ∧ 0 ∉ a.mime := by
  rw [← bindText_eq_self_iff, ← bindText_eq_self_iff]
  constructor
  · intro h
    exact ⟨congrArg PendingAttachment.name h, congrArg PendingAttachment.mime h⟩
  · rintro ⟨hname, hmime⟩
    cases a
    simp only [bound, hname, hmime]

theorem allInserted_succ {db db' : ChatDatabase} {ok : Nat → Bool} {i count : Nat}
    (hlast : db'.lastAttachmentId = db.lastAttachmentId + 1) :
    AllInserted db ok i (count + 1) ↔
      (ok i = true ∧ db.lastAttachmentId + 1 < 2 ^ 63) ∧ AllInserted db' ok (i + 1) count := by
  constructor
  · intro h
    refine ⟨h 0 (Nat.succ_pos count), ?_⟩
    intro j hj
    obtain ⟨hok, hroom⟩ := h (j + 1) (Nat.succ_lt_succ hj)
    rw [hlast]
    exact ⟨by rwa [Nat.add_right_comm, Nat.add_assoc], by omega⟩
  · rintro ⟨hfirst, hrest⟩ j hj
    cases j with
    | zero => exact hfirst
    | succ j =>
        obtain ⟨hok, hroom⟩ := hrest j (by omega)
        rw [hlast] at hroom
        exact ⟨by rwa [Nat.add_right_comm, Nat.add_assoc] at hok, by omega⟩

def attachmentRow (db : ChatDatabase) (messageId : BitVec 64) (month : Bytes) (i : Nat)
    (a : PendingAttachment) : AttachmentRow where
  id := BitVec.ofNat 64 (db.lastAttachmentId + 1)
  messageId := messageId
  fileName := bindText a.name
  fileSize := a.size
  mimeType := bindText a.mime
  diskPath := bindText (diskPath month messageId i a.name)

/-- The rows are those of the attachments whose statements succeed, in order. -/
theorem storeAttachments_rows (messageId : BitVec 64) (month : Bytes) (ok : Nat → Bool) (i : Nat)
    (attachments : List PendingAttachment) (db : ChatDatabase) :
    ∃ rows last, (storeAttachments messageId month ok i attachments db).2 =
        { db with fileAttachments := db.fileAttachments ++ rows, lastAttachmentId := last } ∧
      (∀ row ∈ rows, row.messageId = messageId) ∧
      (rows.map describe).Sublist (attachments.map PendingAttachment.bound) ∧
      (rows.length = attachments.length ↔ AllInserted db ok i attachments.length) := by
  induction attachments generalizing i db with
  | nil =>
      refine ⟨[], db.lastAttachmentId, ?_, by simp, List.Sublist.refl _, ?_⟩
      · rw [List.append_nil]
        rfl
      · simp [AllInserted]
  | cons a rest ih =>
      rw [storeAttachments_cons]
      dsimp only
      rw [ChatDatabase.insertAttachment]
      split
      next hfails =>
        obtain ⟨rows, last, hstored, hmessage, hsub, _⟩ := ih (i + 1) db
        refine ⟨rows, last, hstored, hmessage, hsub.cons _, ?_⟩
        have hshort := hsub.length_le
        rw [List.length_map, List.length_map] at hshort
        rw [Bool.or_eq_true, Bool.not_eq_true', decide_eq_true_eq] at hfails
        constructor
        · intro heq
          rw [List.length_cons] at heq
          omega
        · intro hall
          obtain ⟨hok, hroom⟩ := hall 0 (Nat.succ_pos _)
          rcases hfails with hfails | hfull
          · rw [Nat.add_zero, hfails] at hok
            cases hok
          · omega
      next hinserted =>
        obtain ⟨rows, last, hstored, hmessage, hsub, hall⟩ := ih (i + 1)
          { db with
            lastAttachmentId := db.lastAttachmentId + 1
            fileAttachments := db.fileAttachments ++ [attachmentRow db messageId month i a] }
        refine ⟨attachmentRow db messageId month i a :: rows, last, ?_, ?_, ?_, ?_⟩
        · rw [List.append_cons db.fileAttachments (attachmentRow db messageId month i a) rows]
          exact hstored
        · intro row hrow
          rcases List.mem_cons.mp hrow with rfl | hrest
          · rfl
          · exact hmessage row hrest
        · exact hsub.cons_cons _
        · have hfirst : ok i = true ∧ db.lastAttachmentId + 1 < 2 ^ 63 := by
            rw [Bool.or_eq_true, Bool.not_eq_true', decide_eq_true_eq, not_or,
              Bool.not_eq_false, not_le] at hinserted
            exact hinserted
          rw [List.length_cons, List.length_cons, Nat.succ_inj, hall]
          exact (and_iff_right hfirst).symm.trans (allInserted_succ rfl).symm

/-! ### The request -/

variable {c : ChatServer} {sid : SessionId} {payload : Bytes} {messageOk : Bool} {send : ChatSend}
  {reader : BinaryReader}

theorem noEffect_ignore : c.NoEffect sid c.ignore := ⟨rfl, fun _ hsent => by cases hsent⟩

theorem noEffect_error (text : String) : c.NoEffect sid (c.reply sid (.serverError text)) := by
  refine ⟨rfl, ?_⟩
  intro sent hsent
  exact ⟨text, List.mem_singleton.mp hsent⟩

theorem insertMessage_accepts {db db' : ChatDatabase} {channel sender : BitVec 32}
    {senderName text : Bytes} {timestamp id : BitVec 64} {ok : Bool}
    (h : db.insertMessage channel sender senderName text timestamp ok = some (id, db')) :
    ok = true ∧ db.lastMessageId + 1 < 2 ^ 63 := by
  refine ⟨?_, (ChatDatabase.insertMessage_eq h).1⟩
  cases ok with
  | true => rfl
  | false => cases h

/-- A request that is not accepted has no effect. -/
theorem chatSend_noEffect
    (hno : ∀ send reader, parse readChatSend payload = some (send, reader) →
      ¬ c.Accepts sid send messageOk) (now : BitVec 64) (month : Bytes) (attachmentOk : Nat → Bool) :
    c.NoEffect sid (c.handle sid (.chatSend payload now month messageOk attachmentOk)) := by
  unfold handle
  split
  · exact noEffect_ignore
  next hin =>
    dsimp only
    rw [chatSend]
    split
    · exact noEffect_ignore
    next hauth =>
      split
      · exact noEffect_ignore
      next send reader hparse =>
        split
        · exact noEffect_error _
        next hchannel =>
          split
          · exact noEffect_error _
          next hlong =>
            split
            · exact noEffect_error _
            next id db hinsert =>
              -- every check has passed
              refine absurd ⟨not_not.mp hin, by simpa using hauth, ?_, not_lt.mp hlong, ?_⟩
                (hno send reader hparse)
              · simpa [Option.isNone_iff_eq_none, Option.isSome_iff_ne_none] using hchannel
              · exact insertMessage_accepts hinsert

theorem chatSend_stores (hparse : parse readChatSend payload = some (send, reader))
    (h : c.Accepts sid send messageOk) (now : BitVec 64) (month : Bytes)
    (attachmentOk : Nat → Bool) :
    ∃ (message : StoredMessage) (rows : List AttachmentRow),
      (c.handle sid (.chatSend payload now month messageOk attachmentOk)).1.messages =
        c.db.messages ++ [message] ∧
      message.channelId = send.channel ∧
      message.senderId = (c.session sid).userId ∧
      message.text = bindText send.text ∧
      (c.handle sid (.chatSend payload now month messageOk attachmentOk)).1.fileAttachments =
        c.db.fileAttachments ++ rows ∧
      (∀ row ∈ rows, row.messageId = message.id) ∧
      (rows.map describe).Sublist ((readAttachments send.attachmentCount.toNat reader).map
        PendingAttachment.bound) ∧
      (rows.length = (readAttachments send.attachmentCount.toNat reader).length ↔
        AllInserted c.db attachmentOk 0
          (readAttachments send.attachmentCount.toNat reader).length) := by
  obtain ⟨hin, hauth, hchannel, hshort, hok, hroom⟩ := h
  have hfound : ¬ (c.db.getTextChannel send.channel).isNone = true := by
    rw [← Option.not_isSome, hchannel]
    decide
  have hinsert : ¬ (!messageOk || 2 ^ 63 ≤ c.db.lastMessageId + 1) = true := by
    rw [hok, Bool.not_true, Bool.false_or, decide_eq_true_eq]
    exact not_le.mpr hroom
  have hhandle : c.handle sid (.chatSend payload now month messageOk attachmentOk) =
      c.chatSend sid payload now month messageOk attachmentOk := if_neg (not_not.mpr hin)
  rw [hhandle, chatSend, hparse, if_neg (by simp [hauth])]
  dsimp only
  rw [if_neg hfound, if_neg (not_lt.mpr hshort), ChatDatabase.insertMessage, if_neg hinsert]
  dsimp only
  obtain ⟨rows, last, hstored, hmessage, hsub, hall⟩ := storeAttachments_rows
    (BitVec.ofNat 64 (c.db.lastMessageId + 1)) month attachmentOk 0
    (readAttachments send.attachmentCount.toNat reader) { c.db with
      lastMessageId := c.db.lastMessageId + 1
      messages := c.db.messages ++ [{
        id := BitVec.ofNat 64 (c.db.lastMessageId + 1)
        channelId := send.channel
        senderId := (c.session sid).userId
        senderName := bindText (c.username sid)
        text := bindText send.text
        createdAt := now }] }
  rw [hstored]
  exact ⟨_, rows, rfl, rfl, rfl, rfl, rfl, hmessage, hsub, hall⟩

/-! ### The condition -/

theorem messages_ne_of_stored {messages messages' : List StoredMessage} {message : StoredMessage}
    (h : messages' = messages ++ [message]) : messages' ≠ messages := by
  intro heq
  have hlength := congrArg List.length (h.symm.trans heq)
  rw [List.length_append, List.length_singleton] at hlength
  omega

/-- An accepted request is stored whole exactly when it is sent whole. -/
theorem storesWhole_iff (hparse : parse readChatSend payload = some (send, reader))
    (h : c.Accepts sid send messageOk) (now : BitVec 64) (month : Bytes)
    (attachmentOk : Nat → Bool) :
    c.StoresWhole sid send (readAttachments send.attachmentCount.toNat reader)
        (c.handle sid (.chatSend payload now month messageOk attachmentOk)) ↔
      0 ∉ send.text ∧
      (∀ a ∈ readAttachments send.attachmentCount.toNat reader, 0 ∉ a.name ∧ 0 ∉ a.mime) ∧
      AllInserted c.db attachmentOk 0
        (readAttachments send.attachmentCount.toNat reader).length := by
  obtain ⟨message, rows, hmessages, hchannel, hsender, htext, hrows, hmessage, hsub, hall⟩ :=
    chatSend_stores hparse h now month attachmentOk
  generalize readAttachments send.attachmentCount.toNat reader = listed at hsub hall ⊢
  generalize c.handle sid (.chatSend payload now month messageOk attachmentOk) = outcome
    at hmessages hrows ⊢
  constructor
  · rintro ⟨message', rows', hmessages', _, _, htext', hrows', hdescribed, _⟩
    rw [hmessages] at hmessages'
    rw [hrows] at hrows'
    obtain rfl : message = message' := by
      simpa using List.append_cancel_left hmessages'
    obtain rfl : rows = rows' := List.append_cancel_left hrows'
    rw [hdescribed] at hsub
    have hbound := hsub.eq_of_length (by rw [List.length_map])
    refine ⟨bindText_eq_self_iff.mp (htext.symm.trans htext'), ?_, hall.mp ?_⟩
    · intro a ha
      have hself := List.map_inj_left.mp (hbound.symm.trans (List.map_id _).symm) a ha
      exact PendingAttachment.bound_eq_self_iff.mp hself
    · have hlength := congrArg List.length hdescribed
      rwa [List.length_map] at hlength
  · rintro ⟨hzero, hzeros, hinserted⟩
    refine ⟨message, rows, hmessages, hchannel, hsender, ?_, hrows, ?_, hmessage⟩
    · rw [htext, bindText_eq_self_iff.mpr hzero]
    · have hself : listed.map PendingAttachment.bound = listed := by
        refine (List.map_congr_left fun a ha => ?_).trans (List.map_id _)
        exact PendingAttachment.bound_eq_self_iff.mpr (hzeros a ha)
      rw [hself] at hsub
      refine hsub.eq_of_length ?_
      rw [List.length_map]
      exact hall.mpr hinserted

theorem wholeOrNothing_of_none {outcome : ChatOutcome} (hnone : readWhole payload = none) :
    c.WholeOrNothing sid payload messageOk outcome ↔ c.NoEffect sid outcome := by
  delta WholeOrNothing
  rw [hnone]

theorem wholeOrNothing_of_some {outcome : ChatOutcome} {listed : List PendingAttachment}
    (hsome : readWhole payload = some (send, listed)) :
    c.WholeOrNothing sid payload messageOk outcome ↔
      (c.Accepts sid send messageOk → c.StoresWhole sid send listed outcome) ∧
        (¬ c.Accepts sid send messageOk → c.NoEffect sid outcome) := by
  delta WholeOrNothing
  rw [hsome]

/-- For every payload: a malformed or refused `CHAT_SEND` has no effect and any other is
stored as it is, exactly when an accepted one lists all its attachments, has no zero byte in
a string, and the statements behind the first succeed. -/
theorem wholeOrNothing_iff (c : ChatServer) (sid : SessionId) (payload : Bytes) (now : BitVec 64)
    (month : Bytes) (messageOk : Bool) (attachmentOk : Nat → Bool) :
    c.WholeOrNothing sid payload messageOk
        (c.handle sid (.chatSend payload now month messageOk attachmentOk)) ↔
      c.SentWhole sid payload messageOk attachmentOk := by
  rw [SentWhole]
  cases hparse : parse readChatSend payload with
  | none =>
      have hnone : readWhole payload = none := by rw [readWhole, hparse]
      rw [wholeOrNothing_of_none hnone]
      refine iff_of_true ?_ (fun send reader h => by cases h)
      apply chatSend_noEffect
      intro send reader h
      rw [hparse] at h
      cases h
  | some p =>
      obtain ⟨send, reader⟩ := p
      have hrefused : ¬ c.Accepts sid send messageOk →
          c.NoEffect sid (c.handle sid (.chatSend payload now month messageOk attachmentOk)) := by
        intro hno
        apply chatSend_noEffect
        intro send' reader' h
        rw [hparse] at h
        cases h
        exact hno
      by_cases hcount : (readAttachments send.attachmentCount.toNat reader).length =
          send.attachmentCount.toNat
      · have hsome : readWhole payload =
            some (send, readAttachments send.attachmentCount.toNat reader) := by
          rw [readWhole, hparse]
          exact if_pos hcount
        rw [wholeOrNothing_of_some hsome]
        constructor
        · rintro ⟨hstores, _⟩ send' reader' h haccepts
          cases h
          have hwhole := (storesWhole_iff hparse haccepts now month attachmentOk).mp
            (hstores haccepts)
          rw [hcount] at hwhole
          exact ⟨hcount, hwhole⟩
        · intro h
          refine ⟨fun haccepts => ?_, hrefused⟩
          have hstored := storesWhole_iff hparse haccepts now month attachmentOk
          rw [hcount] at hstored
          exact hstored.mpr (h send reader rfl haccepts).2
      · have hnone : readWhole payload = none := by
          rw [readWhole, hparse]
          exact if_neg hcount
        rw [wholeOrNothing_of_none hnone]
        by_cases haccepts : c.Accepts sid send messageOk
        · -- the list is cut: the message has been stored all the same
          obtain ⟨message, _, hmessages, _⟩ := chatSend_stores hparse haccepts now month attachmentOk
          refine iff_of_false ?_ (fun h => hcount (h send reader rfl haccepts).1)
          rintro ⟨hdb, _⟩
          exact messages_ne_of_stored hmessages (congrArg ChatDatabase.messages hdb)
        · refine iff_of_true (hrefused haccepts) ?_
          intro send' reader' h haccepts'
          cases h
          exact absurd haccepts' haccepts

/-! ### A cut request -/

/-- Session 1 is logged in. -/
def loggedIn : Server :=
  (Server.new .small (.ticking 1)).onNewConnection.modifySession 1 fun session =>
    { session with authenticated := true, userId := 1 }

def oneTextChannel : ChatServer where
  server := loggedIn
  db := { textChannels := [⟨1, [103], 0⟩] }

/-- "hi", and one attachment of which nothing follows. -/
def cutPayload : Bytes := writeU32 1 ++ writeText [104, 105] ++ writeU8 1

theorem not_wholeOrNothing : ¬ ∀ (c : ChatServer) sid payload now month messageOk attachmentOk,
    c.WholeOrNothing sid payload messageOk
      (c.handle sid (.chatSend payload now month messageOk attachmentOk)) := by
  intro hclaim
  have hcut := hclaim oneTextChannel 1 cutPayload 5 [50, 48, 50, 54, 45, 49, 49] true fun _ => true
  obtain ⟨send, reader, hparse, haccepts⟩ : ∃ send reader,
      parse readChatSend cutPayload = some (send, reader) ∧
        oneTextChannel.Accepts 1 send true :=
    ⟨_, _, rfl, by decide, by decide, by decide, by decide, by decide, by decide⟩
  obtain ⟨message, _, hmessages, _⟩ := chatSend_stores hparse haccepts 5
    [50, 48, 50, 54, 45, 49, 49] fun _ => true
  have hnone : readWhole cutPayload = none := by rfl
  have hunchanged := ((wholeOrNothing_of_none hnone).mp hcut).1
  exact messages_ne_of_stored hmessages (congrArg ChatDatabase.messages hunchanged)

end ChatServer

end Parties

import Parties.Client.ChatView

/-!
# Attached files

The files of a message are uploaded when its echo arrives, under the ids in the echo, by
position. The client has one list of files for this. A further send replaces the list,
and every message of the user's own empties it, an update by a pin as well. The files
find their ids as long as neither happens between a send and its echo.

Requests and replies keep their order on the one control stream, so the sends that are not answered
yet can be read off the two queues; if the last of them has files, these are what the client holds.
-/

namespace Parties

open Parties.Wire Parties.Wire.BinaryReader Parties.ChatServer Parties.Client

/-! ### The request is read back -/

namespace Client

/-- A file as the server is told about it. -/
def PendingUpload.pending (pu : PendingUpload) : PendingAttachment where
  name := pu.name
  size := BitVec.ofNat 64 pu.data.length
  mime := OCTET_STREAM

theorem textFits_octetStream : TextFits OCTET_STREAM := by
  have hlength := length_writeString "application/octet-stream"
  rw [writeString, List.length_append, length_writeU16] at hlength
  have hsize : "application/octet-stream".utf8ByteSize = 24 := by decide
  show OCTET_STREAM.length < 2 ^ 16
  rw [OCTET_STREAM]
  omega

theorem readsBack_pendingUpload {pu : PendingUpload} (h : TextFits pu.name) :
    ReadsBack readAttachment pu.write pu.pending := by
  refine (readsBack_text h).bind ?_
  refine (readsBack_u64 _).bind ?_
  exact (readsBack_text textFits_octetStream).map _

theorem readAttachments_write {uploads : List PendingUpload}
    (h : ∀ pu ∈ uploads, TextFits pu.name) :
    readAttachments uploads.length { rest := uploads.flatMap PendingUpload.write } =
      uploads.map PendingUpload.pending := by
  induction uploads with
  | nil => rfl
  | cons pu uploads ih =>
      have hhead := readsBack_pendingUpload (h pu List.mem_cons_self)
        (uploads.flatMap PendingUpload.write)
      rw [List.flatMap_cons, List.length_cons, readAttachments, hhead, List.map_cons]
      dsimp only
      rw [if_neg Bool.false_ne_true, ih fun pu hpu => h pu (List.mem_cons_of_mem _ hpu)]

theorem parse_sendReq (channel : BitVec 32) {text : Bytes} (htext : TextFits text)
    (uploads : List PendingUpload) :
    parse readChatSend (ChatClient.sendReq channel text uploads).payload =
      some (⟨channel, text, BitVec.ofNat 8 uploads.length⟩,
        { rest := uploads.flatMap PendingUpload.write }) := by
  have hhead : ReadsBack readChatSend (writeU32 channel ++ (writeText text ++
      writeU8 (BitVec.ofNat 8 uploads.length)))
      ⟨channel, text, BitVec.ofNat 8 uploads.length⟩ := by
    refine (readsBack_u32 channel).bind ?_
    refine (readsBack_text htext).bind ?_
    exact (readsBack_u8 _).map _
  have hparse := parse_readsBack hhead (uploads.flatMap PendingUpload.write)
  rw [List.append_assoc, List.append_assoc] at hparse
  exact hparse

end Client

/-! ### The answer to a send -/

namespace ChatServer

/-- A send that can be read is answered by an error, or stored and announced with its
attachments. -/
theorem chatSend_answers {c : ChatServer} {sid : SessionId}
    (hauth : (c.session sid).authenticated = true) {payload : Bytes} {send : ChatSend}
    {reader : BinaryReader} (hparse : parse readChatSend payload = some (send, reader))
    (now : BitVec 64) (month : Bytes) (messageOk : Bool) (attachmentOk : Nat → Bool) :
    (∃ text, c.chatSend sid payload now month messageOk attachmentOk =
        c.reply sid (.serverError text)) ∨
      ∃ db m, c.chatSend sid payload now month messageOk attachmentOk =
          (db, c.broadcast (.chatMessage m)) ∧
        m.row.senderId = (c.session sid).userId ∧
        m.attachments.length = (readAttachments send.attachmentCount.toNat reader).length := by
  rw [chatSend, hparse, if_neg (by simp [hauth])]
  dsimp only
  split
  · exact .inl ⟨_, rfl⟩
  · split
    · exact .inl ⟨_, rfl⟩
    · split
      · exact .inl ⟨_, rfl⟩
      · exact .inr ⟨_, _, rfl, rfl, length_storeAttachments ..⟩

/-- The ids that were given out, without the zeros of attachments that could not be stored. -/
def givenIds (ids : List (BitVec 64)) : List Nat := (ids.filter fun id => id ≠ 0).map BitVec.toNat

theorem givenIds_cons {id : BitVec 64} (h : id ≠ 0) (ids : List (BitVec 64)) :
    givenIds (id :: ids) = id.toNat :: givenIds ids := by
  rw [givenIds, List.filter_cons_of_pos (by simpa using h)]
  rfl

theorem givenIds_append (ids ids' : List (BitVec 64)) :
    givenIds (ids ++ ids') = givenIds ids ++ givenIds ids' := by
  rw [givenIds, List.filter_append, List.map_append]
  rfl

/-- The next id, or zero and nothing is stored. -/
theorem insertAttachment_id (db : ChatDatabase) (messageId : BitVec 64) (fileName : Bytes)
    (fileSize : BitVec 64) (mimeType diskPath : Bytes) (ok : Bool) {id : BitVec 64}
    {db' : ChatDatabase}
    (h : db.insertAttachment messageId fileName fileSize mimeType diskPath ok = (id, db')) :
    (id = 0 ∧ db' = db) ∨
      id ≠ 0 ∧ id.toNat = db.lastAttachmentId + 1 ∧
        db'.lastAttachmentId = db.lastAttachmentId + 1 := by
  rw [ChatDatabase.insertAttachment] at h
  split at h
  · cases h
    exact .inl ⟨rfl, rfl⟩
  next hstored =>
    rw [Bool.or_eq_true, decide_eq_true_eq, not_or, not_le] at hstored
    cases h
    have hnat : (BitVec.ofNat 64 (db.lastAttachmentId + 1)).toNat = db.lastAttachmentId + 1 :=
      toNat_ofNat_of_lt (by omega)
    refine .inr ⟨?_, hnat, rfl⟩
    intro hzero
    rw [hzero] at hnat
    exact absurd hnat (Nat.succ_ne_zero _).symm

/-- The ids of a message are new, each larger than the one before. -/
theorem givenIds_storeAttachments (messageId : BitVec 64) (month : Bytes) (ok : Nat → Bool)
    (i : Nat) (attachments : List PendingAttachment) (db : ChatDatabase) :
    let stored := storeAttachments messageId month ok i attachments db
    db.lastAttachmentId ≤ stored.2.lastAttachmentId ∧
      (givenIds (stored.1.map ChatAttachment.id)).Pairwise (· < ·) ∧
      ∀ id ∈ givenIds (stored.1.map ChatAttachment.id),
        db.lastAttachmentId < id ∧ id ≤ stored.2.lastAttachmentId := by
  induction attachments generalizing i db with
  | nil => exact ⟨le_rfl, List.Pairwise.nil, fun id hid => by cases hid⟩
  | cons a rest ih =>
      rw [storeAttachments_cons]
      generalize hinserted : db.insertAttachment messageId a.name a.size a.mime
        (diskPath month messageId i a.name) (ok i) = inserted
      obtain ⟨id, db'⟩ := inserted
      obtain ⟨hle, hascending, hbounds⟩ := ih (i + 1) db'
      dsimp only at hle hascending hbounds ⊢
      rw [List.map_cons]
      rcases insertAttachment_id db _ _ _ _ _ _ hinserted with
        ⟨rfl, rfl⟩ | ⟨hne, hid, hlast⟩
      · exact ⟨hle, hascending, hbounds⟩
      · rw [hlast] at hle hbounds
        rw [givenIds_cons hne, hid]
        refine ⟨Nat.le_of_succ_le hle, ?_, ?_⟩
        · exact List.pairwise_cons.mpr ⟨fun id hid => (hbounds id hid).1, hascending⟩
        · intro id' hid'
          rcases List.mem_cons.mp hid' with rfl | hrest
          · exact ⟨Nat.lt_succ_self _, hle⟩
          · exact ⟨Nat.lt_of_succ_lt (hbounds id' hrest).1, (hbounds id' hrest).2⟩

end ChatServer

/-! ### What the client does with its files -/

namespace Client.ChatClient

theorem uploads_takeMessage (k : ChatClient) (m : ChatMessage) :
    (k.takeMessage m).2 = if m.row.senderId = k.userId then
      List.zipWith Upload.mk (m.attachments.map ChatAttachment.id)
        (k.pendingUploads.map PendingUpload.data) else [] := by
  have huploads : (k.takeMessage m).2 = k.uploadsFor (m.shown k.userId) := by
    rw [takeMessage]
    split <;> rfl
  rw [huploads, uploadsFor]
  show (if m.row.senderId = k.userId then List.zipWith _ (m.attachments.map _) _ else _) = _
  rw [List.zipWith_map, List.zipWith_map_left]
  rfl

theorem pendingUploads_takeMessage (k : ChatClient) (m : ChatMessage) :
    (k.takeMessage m).1.pendingUploads =
      if m.row.senderId = k.userId then [] else k.pendingUploads := by
  have hdrop : (k.dropUploads (m.shown k.userId)).pendingUploads =
      if m.row.senderId = k.userId then [] else k.pendingUploads := by
    rw [dropUploads]
    show (if m.row.senderId = k.userId then _ else _ : ChatClient).pendingUploads = _
    split <;> rfl
  rw [← hdrop, takeMessage]
  split
  · show (showMessage _ _).pendingUploads = _
    rw [showMessage]
    split <;> rfl
  · rfl

/-- All other replies leave the files as they are. -/
theorem take_aside (k : ChatClient) {reply : ChatReply} (h : ∀ m, reply ≠ .chatMessage m) :
    (k.take reply).1.pendingUploads = k.pendingUploads ∧ (k.take reply).2 = [] := by
  cases reply with
  | chatMessage m => exact absurd rfl (h m)
  | chatHistoryResp channel hasMore msgs =>
      refine ⟨?_, rfl⟩
      show (k.takeHistory channel hasMore msgs).pendingUploads = _
      rw [takeHistory]
      split <;> rfl
  | chatMessageDeleted id channel =>
      refine ⟨?_, rfl⟩
      show (k.takeDeleted id channel).pendingUploads = _
      rw [takeDeleted]
      split <;> rfl
  | serverError | channelList | channelUserList | chatSearchResp | chatPinnedResp =>
      exact ⟨rfl, rfl⟩

theorem take_userId (k : ChatClient) (reply : ChatReply) : (k.take reply).1.userId = k.userId := by
  cases reply with
  | chatMessage m => exact k.takeMessage_userId m
  | chatHistoryResp channel hasMore msgs =>
      show (k.takeHistory channel hasMore msgs).userId = _
      rw [takeHistory]
      split <;> rfl
  | chatMessageDeleted id channel =>
      show (k.takeDeleted id channel).userId = _
      rw [takeDeleted]
      split <;> rfl
  | serverError | channelList | channelUserList | chatSearchResp | chatPinnedResp => rfl

end Client.ChatClient

/-! ### What is on its way -/

namespace Client

/-- The files of an echo, each under its id. -/
def Echo.uploads (e : Echo) : List Upload := List.zipWith Upload.mk e.ids e.files

/-- A send as `sendMessage` writes it, with files the server can read back. -/
def SentRequest.Legible (sent : SentRequest) : Prop :=
  sent.message.type = ChatClient.CHAT_SEND → ∃ channel text uploads,
    sent = ⟨ChatClient.sendReq channel text uploads, uploads.map PendingUpload.data⟩ ∧
      TextFits text ∧ (∀ pu ∈ uploads, TextFits pu.name) ∧ uploads.length < 2 ^ 8

namespace SentReply

/-- The echo of a send has an id for each file, and what else is announced of the user's own
has no attachments. -/
structure Matches (userId : UserId) (r : SentReply) : Prop where
  readable : r.reply.Readable
  own : ∀ files m, r.answers = some files → r.reply = .chatMessage m →
    m.row.senderId = userId ∧ m.attachments.length = files.length
  other : ∀ m, r.answers = none → r.reply = .chatMessage m → m.row.senderId = userId →
    m.attachments = []

/-- A message of the user's own that arrives while no later send has files, and when it is the
echo of a send with files, while there is no later send at all. -/
def Undisturbed (userId : UserId) (r : SentReply) (later : List (List Bytes)) : Prop :=
  ∀ m, r.reply = .chatMessage m → m.row.senderId = userId →
    (∀ files ∈ later, files = []) ∧ ∀ files, r.answers = some files → files ≠ [] → later = []

end SentReply

namespace ChatHop

variable {me : SessionId} {userId : UserId}

/-- The files of each send that is not answered yet, oldest first. -/
def unanswered (requests : List SentRequest) (replies : List SentReply) : List (List Bytes) :=
  replies.filterMap SentReply.answers ++
    (requests.filter fun sent => sent.message.type = ChatClient.CHAT_SEND).map SentRequest.files

/-- What was uploaded is what the echoes asked for: each file of the send once, under the id
at its position, and no id twice. -/
structure Attached (h : ChatHop) : Prop where
  uploads : h.uploads = h.echoes.flatMap Echo.uploads
  counts : ∀ e ∈ h.echoes, e.ids.length = e.files.length
  distinct : ((h.echoes.flatMap Echo.ids).filter fun id => id ≠ 0).Nodup

/-- The steps that keep the files and their ids together. -/
def Undisturbed (h : ChatHop) : ChatOp me userId → Prop
  | .deliver => ∀ r replies, h.replies = r :: replies →
      r.Undisturbed userId (unanswered h.requests replies)
  | .sendMessage composeText pendingFiles => h.client.activeChannel ≠ 0 →
      TextFits composeText ∧
        (∀ pu ∈ pendingFiles.filterMap PendingFile.read, TextFits pu.name) ∧
        (pendingFiles.filterMap PendingFile.read).length < 2 ^ 8
  | _ => True

variable {h : ChatHop}

theorem mem_sentTo {sent : List (SessionId × ChatReply)} {reply : ChatReply} :
    reply ∈ sentTo me sent ↔ (me, reply) ∈ sent := by
  rw [sentTo, List.mem_map]
  constructor
  · rintro ⟨⟨sid, reply'⟩, hmem, rfl⟩
    obtain ⟨hmem, hsid⟩ := List.mem_filter.mp hmem
    rw [← of_decide_eq_true hsid]
    exact hmem
  · intro hmem
    exact ⟨_, List.mem_filter.mpr ⟨hmem, decide_eq_true rfl⟩, rfl⟩

/-- What the server sends otherwise than in answer to a send of this client. -/
theorem matches_other (hs : h.db.Sound) (at' : Connected me userId) {sid : SessionId}
    {request : ChatRequest} (hother : request.isSend = true → sid ≠ me) :
    ∀ reply ∈ sentTo me ((h.chatServer at').handle sid request).2,
      SentReply.Matches userId ⟨request, none, reply⟩ := by
  intro reply hreply
  have hmem := mem_sentTo.mp hreply
  have hreadable := readable_handle (c := h.chatServer at') hs at'.namesFit sid request _ hmem
  refine ⟨hreadable, (fun files m hanswers => by cases hanswers), ?_⟩
  intro m _ heq hsender
  obtain rfl : reply = .chatMessage m := heq
  have hhandles := (h.chatServer at').handle_handles sid request
  generalize (h.chatServer at').handle sid request = outcome at hhandles hmem
  cases hhandles with
  | ignored => cases hmem
  | refused | channels | users | pinnedList | searched | history =>
      cases List.mem_singleton.mp hmem
  | deleted =>
      obtain ⟨_, _, heq⟩ := List.mem_map.mp hmem
      cases heq
  | pinned | unpinned =>
      obtain ⟨_, _, heq⟩ := List.mem_map.mp hmem
      cases heq
      rfl
  | stored hin hauth =>
      obtain ⟨_, _, heq⟩ := List.mem_map.mp hmem
      cases heq
      exact absurd (at'.alone sid hin hauth hsender) (hother rfl)

/-- A send of this client is answered once. -/
theorem matches_send (hs : h.db.Sound) (at' : Connected me userId) (channel : BitVec 32)
    {text : Bytes} (htext : TextFits text) {uploads : List PendingUpload}
    (hnames : ∀ pu ∈ uploads, TextFits pu.name) (hcount : uploads.length < 2 ^ 8) (env : ChatEnv) :
    let request := ChatRequest.chatSend (ChatClient.sendReq channel text uploads).payload env.now
      env.month env.messageOk env.attachmentOk
    ∃ reply, sentTo me ((h.chatServer at').handle me request).2 = [reply] ∧
      SentReply.Matches userId ⟨request, some (uploads.map PendingUpload.data), reply⟩ := by
  intro request
  have hparse := parse_sendReq channel htext uploads
  have hread := readAttachments_write hnames
  have hreadable := readable_handle (c := h.chatServer at') hs at'.namesFit me request
  have hhandle : (h.chatServer at').handle me request = (h.chatServer at').chatSend me
      (ChatClient.sendReq channel text uploads).payload env.now env.month env.messageOk
      env.attachmentOk := if_neg (not_not.mpr at'.listed)
  rw [hhandle] at hreadable ⊢
  rcases chatSend_answers (c := h.chatServer at') at'.authenticated hparse env.now env.month
      env.messageOk env.attachmentOk with ⟨text, herror⟩ | ⟨db, m, hstored, hsender, hlength⟩
  · rw [herror] at hreadable ⊢
    refine ⟨.serverError text, by rw [sentTo_reply, if_pos rfl], ?_⟩
    refine ⟨hreadable (me, _) (List.mem_singleton.mpr rfl), ?_, ?_⟩
    · intro files m _ heq
      cases heq
    · intro m _ heq
      cases heq
  · rw [hstored] at hreadable ⊢
    refine ⟨.chatMessage m, sentTo_broadcast h at' _, ?_⟩
    refine ⟨hreadable (me, _) (List.mem_map.mpr
      ⟨me, List.mem_filter.mpr ⟨at'.listed, at'.authenticated⟩, rfl⟩), ?_, ?_⟩
    · intro files m' hanswers heq
      cases hanswers
      cases heq
      refine ⟨hsender.trans at'.user, ?_⟩
      dsimp only at hlength
      rw [toNat_ofNat_of_lt hcount, hread, List.length_map] at hlength
      rw [hlength, List.length_map]
    · intro m' hanswers
      cases hanswers

/-! ### The files and their ids stay together -/

/-- The files of the last send that is not answered are those the client has pending. -/
structure Matching (userId : UserId) (h : ChatHop) : Prop where
  sound : h.db.Sound
  user : h.client.userId = userId
  requests : ∀ sent ∈ h.requests, sent.Legible
  replies : ∀ r ∈ h.replies, r.Matches userId
  pending : ∀ files, (unanswered h.requests h.replies).getLast? = some files → files ≠ [] →
    h.client.pendingUploads.map PendingUpload.data = files
  uploads : h.uploads = h.echoes.flatMap Echo.uploads
  counts : ∀ e ∈ h.echoes, e.ids.length = e.files.length

theorem unanswered_cons (requests : List SentRequest) (r : SentReply) (replies : List SentReply) :
    unanswered requests (r :: replies) = r.answers.toList ++ unanswered requests replies := by
  rw [unanswered, unanswered, List.filterMap_cons]
  cases r.answers <;> rfl

/-- What is answered by the first reply is not the last, or nothing is left. -/
theorem getLast?_unanswered {requests : List SentRequest} {r : SentReply}
    {replies : List SentReply} {files : List Bytes}
    (h : (unanswered requests replies).getLast? = some files) :
    (unanswered requests (r :: replies)).getLast? = some files := by
  rw [unanswered_cons, List.getLast?_append, h, Option.some_or]

/-- Replies that answer no send of this client. -/
theorem unanswered_append_none (requests : List SentRequest) (replies : List SentReply)
    (request : ChatRequest) (added : List ChatReply) :
    unanswered requests (replies ++ added.map fun reply => ⟨request, none, reply⟩) =
      unanswered requests replies := by
  have hnone : (added.map fun reply => (⟨request, none, reply⟩ : SentReply)).filterMap
      SentReply.answers = [] := by
    rw [List.filterMap_map, List.filterMap_eq_nil_iff]
    intro reply _
    rfl
  rw [unanswered, unanswered, List.filterMap_append, hnone, List.append_nil]

/-- The oldest send in the stream to the server becomes the newest answered one. -/
theorem unanswered_answered {sent : SentRequest} (requests : List SentRequest)
    (replies : List SentReply) (hsend : sent.message.type = ChatClient.CHAT_SEND)
    {request : ChatRequest} {reply : ChatReply} :
    unanswered requests (replies ++ [⟨request, some sent.files, reply⟩]) =
      unanswered (sent :: requests) replies := by
  rw [unanswered, unanswered, List.filterMap_append, List.filter_cons_of_pos (by simpa using hsend),
    List.map_cons, List.append_assoc]
  rfl

/-- The client takes the first reply, and its uploads are those of the echo. -/
theorem Matching.received (hm : Matching userId h) {r : SentReply} {replies : List SentReply}
    (hreplies : h.replies = r :: replies) {client : ChatClient} {uploads : List Upload}
    (huser : client.userId = h.client.userId)
    (hpending : ∀ files, (unanswered h.requests replies).getLast? = some files → files ≠ [] →
      client.pendingUploads.map PendingUpload.data = files)
    (huploads : uploads = r.echo.toList.flatMap Echo.uploads)
    (hcounts : ∀ e ∈ r.echo, e.ids.length = e.files.length) :
    Matching userId { h with
      client, replies
      uploads := h.uploads ++ uploads
      echoes := h.echoes ++ r.echo.toList } where
  sound := hm.sound
  user := huser.trans hm.user
  requests := hm.requests
  replies := fun r' hr' => hm.replies r' (by rw [hreplies]; exact List.mem_cons_of_mem _ hr')
  pending := hpending
  uploads := by
    show h.uploads ++ uploads = _
    rw [List.flatMap_append, hm.uploads, huploads]
  counts := by
    intro e he
    rcases List.mem_append.mp he with hold | hnew
    · exact hm.counts e hold
    · exact hcounts e (Option.mem_toList.mp hnew)

/-- A message of the user's own takes the pending files with it. -/
theorem Matching.receivedOwn (hm : Matching userId h) {r : SentReply} {replies : List SentReply}
    (hreplies : h.replies = r :: replies) {m : ChatMessage} (hreply : r.reply = .chatMessage m)
    (hown : m.row.senderId = userId)
    (hundisturbed : r.Undisturbed userId (unanswered h.requests replies)) {client : ChatClient}
    (huser : client.userId = h.client.userId) :
    Matching userId { h with
      client, replies
      uploads := h.uploads ++ List.zipWith Upload.mk (m.attachments.map ChatAttachment.id)
        (h.client.pendingUploads.map PendingUpload.data)
      echoes := h.echoes ++ r.echo.toList } := by
  have hmatches := hm.replies r (by rw [hreplies]; exact List.mem_cons_self)
  obtain ⟨hquiet, hlast⟩ := hundisturbed m hreply hown
  have hpending : ∀ files, (unanswered h.requests replies).getLast? = some files → files ≠ [] →
      client.pendingUploads.map PendingUpload.data = files := by
    intro files hfiles hne
    exact absurd (hquiet files (List.mem_of_getLast? hfiles)) hne
  cases hanswers : r.answers with
  | none =>
      have hecho : r.echo = none := by
        rw [SentReply.echo, hanswers]
      have hnone := hmatches.other m hanswers hreply hown
      refine hm.received hreplies huser hpending ?_ ?_
      · rw [hnone, hecho]
        rfl
      · intro e he
        rw [hecho] at he
        cases he
  | some files =>
      have hecho : r.echo = some ⟨m.attachments.map ChatAttachment.id, files⟩ := by
        rw [SentReply.echo, hanswers, hreply]
      have hlength := (hmatches.own files m hanswers hreply).2
      refine hm.received hreplies huser hpending ?_ ?_
      · rw [hecho, Option.toList_some, List.flatMap_singleton, Echo.uploads]
        dsimp only
        by_cases hfiles : files = []
        · rw [hfiles, List.length_nil, List.length_eq_zero_iff] at hlength
          rw [hlength]
          rfl
        · have hfound := hm.pending files (by
            rw [hreplies, unanswered_cons, hlast files hanswers hfiles, hanswers]
            rfl) hfiles
          rw [hfound]
      · intro e he
        rw [hecho] at he
        cases he
        rw [List.length_map]
        exact hlength

theorem Matching.deliver (hm : Matching userId h)
    (hundisturbed : ∀ r replies, h.replies = r :: replies →
      r.Undisturbed userId (unanswered h.requests replies)) : Matching userId h.deliver := by
  rw [ChatHop.deliver]
  split
  · exact hm
  next r replies hreplies =>
    have hmatches := hm.replies r (by rw [hreplies]; exact List.mem_cons_self)
    obtain ⟨hview, huploads⟩ := h.client.handleServerMessage_view hmatches.readable
    have huser := hview.userId.trans (h.client.take_userId r.reply)
    have hkept : ∀ files, (unanswered h.requests replies).getLast? = some files → files ≠ [] →
        h.client.pendingUploads.map PendingUpload.data = files := by
      intro files hfiles
      refine hm.pending files ?_
      rw [hreplies]
      exact getLast?_unanswered hfiles
    dsimp only
    by_cases hmessage : ∃ m, r.reply = .chatMessage m
    · obtain ⟨m, hreply⟩ := hmessage
      rw [hreply] at huploads hview
      have huploads := huploads.trans (h.client.uploads_takeMessage m)
      have hpending := hview.pendingUploads.trans (h.client.pendingUploads_takeMessage m)
      rw [hm.user] at huploads hpending
      by_cases hown : m.row.senderId = userId
      · rw [if_pos hown] at huploads
        rw [hreply] at huser ⊢
        rw [huploads]
        exact hm.receivedOwn hreplies hreply hown (hundisturbed r replies hreplies) huser
      · rw [if_neg hown] at huploads hpending
        have hanswers : r.answers = none := by
          cases hanswers : r.answers with
          | none => rfl
          | some files => exact absurd (hmatches.own files m hanswers hreply).1 hown
        have hecho : r.echo = none := by
          rw [SentReply.echo, hanswers]
        refine hm.received hreplies huser ?_ ?_ ?_
        · rw [hreply, hpending]
          exact hkept
        · rw [hreply, hecho]
          exact huploads
        · intro e he
          rw [hecho] at he
          cases he
    · have hno : ∀ m, r.reply ≠ .chatMessage m := fun m heq => hmessage ⟨m, heq⟩
      obtain ⟨hpending, hnone⟩ := h.client.take_aside hno
      have hecho : r.echo = none := by
        rw [SentReply.echo]
        split
        next heq =>
          exact absurd heq (hno _)
        · rfl
      refine hm.received hreplies huser ?_ ?_ ?_
      · rw [hview.pendingUploads, hpending]
        exact hkept
      · rw [huploads, hnone, hecho]
        rfl
      · intro e he
        rw [hecho] at he
        cases he

/-! ### The other steps -/

theorem Matching.tables (hm : Matching userId h) {db : ChatDatabase} (hsound : db.Sound) :
    Matching userId { h with db } :=
  ⟨hsound, hm.user, hm.requests, hm.replies, hm.pending, hm.uploads, hm.counts⟩

/-- The client keeps its files, and it asks for other things than a send. -/
theorem Matching.asked (hm : Matching userId h) {client : ChatClient}
    {messages : List Wire.ControlMessage} (huser : client.userId = h.client.userId)
    (hpending : client.pendingUploads = h.client.pendingUploads)
    (hno : ∀ message ∈ messages, message.type ≠ ChatClient.CHAT_SEND) (files : List Bytes) :
    Matching userId (h.withClient (client, messages) files) := by
  have hnone : (messages.map fun message => (⟨message, files⟩ : SentRequest)).filter
      (fun sent => sent.message.type = ChatClient.CHAT_SEND) = [] := by
    rw [List.filter_eq_nil_iff]
    intro sent hsent
    obtain ⟨message, hmessage, rfl⟩ := List.mem_map.mp hsent
    rw [decide_eq_true_eq]
    exact hno message hmessage
  have hsame : unanswered (h.withClient (client, messages) files).requests h.replies =
      unanswered h.requests h.replies := by
    show unanswered (h.requests ++ messages.map _) h.replies = _
    rw [unanswered, unanswered, List.filter_append, hnone, List.append_nil]
  exact {
    sound := hm.sound
    user := huser.trans hm.user
    requests := by
      intro sent hsent
      rcases List.mem_append.mp hsent with hold | hnew
      · exact hm.requests sent hold
      · obtain ⟨message, hmessage, rfl⟩ := List.mem_map.mp hnew
        exact fun hsend => absurd hsend (hno message hmessage)
    replies := hm.replies
    pending := by
      show ∀ files', (unanswered (h.withClient (client, messages) files).requests
        h.replies).getLast? = some files' → files' ≠ [] → client.pendingUploads.map _ = files'
      rw [hsame, hpending]
      exact hm.pending
    uploads := hm.uploads
    counts := hm.counts }

/-- The client asks for nothing. -/
theorem Matching.kept (hm : Matching userId h) {client : ChatClient}
    (huser : client.userId = h.client.userId)
    (hpending : client.pendingUploads = h.client.pendingUploads) :
    Matching userId { h with client } := by
  have hnothing : ∀ message ∈ ([] : List Wire.ControlMessage),
      message.type ≠ ChatClient.CHAT_SEND := fun message hmessage => by cases hmessage
  have hasked := hm.asked huser hpending hnothing []
  rw [withClient, List.map_nil, List.append_nil] at hasked
  exact hasked

/-- A send makes its files the pending ones. -/
theorem Matching.sendMessage (hm : Matching userId h) {composeText : Bytes}
    {pendingFiles : List PendingFile}
    (hfits : h.client.activeChannel ≠ 0 → TextFits composeText ∧
      (∀ pu ∈ pendingFiles.filterMap PendingFile.read, TextFits pu.name) ∧
      (pendingFiles.filterMap PendingFile.read).length < 2 ^ 8) :
    Matching userId (h.withClient (h.client.sendMessage composeText pendingFiles)
      (contents pendingFiles)) := by
  have hnothing : Matching userId (h.withClient (h.client, []) (contents pendingFiles)) :=
    hm.asked rfl rfl (fun message hmessage => by cases hmessage) _
  rw [ChatClient.sendMessage]
  split
  · exact hnothing
  next hactive =>
    split
    · exact hnothing
    · obtain ⟨htext, hnames, hcount⟩ := hfits hactive
      exact {
        sound := hm.sound
        user := hm.user
        requests := by
          intro sent hsent
          rcases List.mem_append.mp hsent with hold | hnew
          · exact hm.requests sent hold
          · intro _
            exact ⟨_, _, _, List.mem_singleton.mp hnew, htext, hnames, hcount⟩
        replies := hm.replies
        pending := by
          intro files hfiles _
          have hlast : (unanswered (h.requests ++ [⟨ChatClient.sendReq h.client.activeChannel
              composeText (pendingFiles.filterMap PendingFile.read), contents pendingFiles⟩])
              h.replies).getLast? = some (contents pendingFiles) := by
            rw [unanswered, List.filter_append, List.map_append, ← List.append_assoc]
            exact List.getLast?_concat
          exact Option.some.inj (hlast.symm.trans hfiles)
        uploads := hm.uploads
        counts := hm.counts }

/-- The server answers something else than a send of this client. -/
theorem Matching.servedOther (hm : Matching userId h) (at' : Connected me userId)
    {sid : SessionId} {request : ChatRequest} (hother : request.isSend = true → sid ≠ me) :
    Matching userId (h.serve at' sid request none) where
  sound := sound_handle (c := h.chatServer at') hm.sound at'.namesFit sid request
  user := hm.user
  requests := hm.requests
  replies := by
    intro r hr
    rcases List.mem_append.mp hr with hold | hnew
    · exact hm.replies r hold
    · obtain ⟨reply, hreply, rfl⟩ := List.mem_map.mp hnew
      exact matches_other hm.sound at' hother reply hreply
  pending := by
    show ∀ files, (unanswered h.requests (h.replies ++ _)).getLast? = some files → _
    rw [unanswered_append_none]
    exact hm.pending
  uploads := hm.uploads
  counts := hm.counts

/-- The server answers the first send. -/
theorem Matching.servedSend (hm : Matching userId h) (at' : Connected me userId) (env : ChatEnv)
    {sent : SentRequest} {requests : List SentRequest} (hrequests : h.requests = sent :: requests)
    (hsend : sent.message.type = ChatClient.CHAT_SEND) :
    Matching userId (({ h with requests } : ChatHop).serve at' me (.chatSend sent.message.payload
      env.now env.month env.messageOk env.attachmentOk) (some sent.files)) := by
  have hlegible := hm.requests sent (by rw [hrequests]; exact List.mem_cons_self)
  obtain ⟨channel, text, uploads, rfl, htext, hnames, hcount⟩ := hlegible hsend
  obtain ⟨reply, hone, hmatches⟩ := matches_send (h := { h with requests }) hm.sound at' channel
    htext hnames hcount env
  exact {
    sound := sound_handle (c := h.chatServer at') hm.sound at'.namesFit me _
    user := hm.user
    requests := fun sent' hsent' => hm.requests sent' (by
      rw [hrequests]
      exact List.mem_cons_of_mem _ hsent')
    replies := by
      intro r hr
      rcases List.mem_append.mp hr with hold | hnew
      · exact hm.replies r hold
      · dsimp only at hone hnew
        rw [hone] at hnew
        rw [List.mem_singleton.mp hnew]
        exact hmatches
    pending := by
      intro files hfiles
      refine hm.pending files ?_
      rw [hrequests, ← unanswered_answered requests h.replies hsend, ← hfiles]
      dsimp only [serve]
      rw [hone]
      rfl
    uploads := hm.uploads
    counts := hm.counts }

theorem Matching.requestArrives (hm : Matching userId h) (at' : Connected me userId)
    (env : ChatEnv) : Matching userId (h.requestArrives at' env) := by
  rw [ChatHop.requestArrives]
  split
  · exact hm
  next sent requests hrequests =>
    by_cases hsend : sent.message.type = ChatClient.CHAT_SEND
    · rw [readRequest, if_pos hsend, if_pos hsend]
      exact hm.servedSend at' env hrequests hsend
    · have htaken : Matching userId { h with requests } := {
        sound := hm.sound
        user := hm.user
        requests := fun sent' hsent' => hm.requests sent' (by
          rw [hrequests]
          exact List.mem_cons_of_mem _ hsent')
        replies := hm.replies
        pending := by
          have hpending := hm.pending
          rw [hrequests, unanswered, List.filter_cons_of_neg (by simpa using hsend)] at hpending
          exact hpending
        uploads := hm.uploads
        counts := hm.counts }
      rw [if_neg hsend]
      split
      · exact htaken
      next request hrequest =>
        refine htaken.servedOther at' ?_
        intro hisSend
        rw [readRequest, if_neg hsend] at hrequest
        repeat' split at hrequest
        all_goals cases hrequest
        all_goals cases hisSend

theorem historyReq_type (channel : BitVec 32) (before : BitVec 64) :
    (ChatClient.historyReq channel before).type ≠ ChatClient.CHAT_SEND := by
  show ChatClient.CHAT_HISTORY_REQ ≠ ChatClient.CHAT_SEND
  decide

theorem onChatFileReady_files (k : ChatClient) (payload : Bytes) :
    (k.onChatFileReady payload).userId = k.userId ∧
      (k.onChatFileReady payload).pendingUploads = k.pendingUploads := by
  rw [ChatClient.onChatFileReady]
  split <;> exact ⟨rfl, rfl⟩

theorem matching_step (hm : Matching userId h) (op : ChatOp me userId)
    (hundisturbed : h.Undisturbed op) : Matching userId (h.step op) := by
  have hnamed : ∀ (type : BitVec 16) (payload : Bytes), type ≠ ChatClient.CHAT_SEND →
      ∀ message ∈ [(⟨type, payload⟩ : Wire.ControlMessage)],
        message.type ≠ ChatClient.CHAT_SEND := by
    intro type payload hne message hmessage
    rw [List.mem_singleton.mp hmessage]
    exact hne
  cases op with
  | requestArrives at' env => exact hm.requestArrives at' env
  | otherRequest at' sid request =>
      show Matching userId (if sid = me then h else h.serve at' sid request none)
      split
      · exact hm
      next hother =>
        exact hm.servedOther at' fun _ => hother
  | setTextChannels rows => exact hm.tables (hm.sound.textChannels rows)
  | attachmentUploaded id => exact hm.tables (hm.sound.markAttachmentUploaded id)
  | deliver => exact hm.deliver hundisturbed
  | fileReady payload =>
      obtain ⟨huser, hpending⟩ := onChatFileReady_files h.client payload
      exact hm.kept huser hpending
  | selectChannel channel =>
      refine @Matching.asked userId h hm (h.client.selectChannel channel).1 _ rfl rfl ?_ []
      intro message hmessage
      rw [List.mem_singleton.mp hmessage]
      exact historyReq_type channel 0
  | joinChannel => exact hm.kept rfl rfl
  | loadMoreHistory =>
      refine hm.asked rfl rfl ?_ []
      intro message hmessage
      rw [ChatClient.loadMoreHistory] at hmessage
      split at hmessage
      · cases hmessage
      · split at hmessage
        · cases hmessage
        · rw [List.mem_singleton.mp hmessage]
          exact historyReq_type _ _
  | sendMessage composeText pendingFiles => exact hm.sendMessage hundisturbed
  | pinMessage id => exact hm.asked rfl rfl (hnamed _ _ (by decide)) []
  | unpinMessage id => exact hm.asked rfl rfl (hnamed _ _ (by decide)) []
  | deleteMessage id => exact hm.asked rfl rfl (hnamed _ _ (by decide)) []

/-! ### No id twice -/

/-- The ids in the echoes that arrived and in those on their way. -/
def announced (echoes : List Echo) (replies : List SentReply) : List Nat :=
  givenIds ((echoes ++ replies.filterMap SentReply.echo).flatMap Echo.ids)

/-- They are given out in ascending order. -/
structure Numbered (h : ChatHop) : Prop where
  ascending : (announced h.echoes h.replies).Pairwise (· < ·)
  given : ∀ id ∈ announced h.echoes h.replies, id ≤ h.db.lastAttachmentId

/-- The ids that the replies to one request announce. -/
def repliedIds (request : ChatRequest) (answers : Option (List Bytes)) (replies : List ChatReply) :
    List (BitVec 64) :=
  ((replies.map fun reply => (⟨request, answers, reply⟩ : SentReply)).filterMap
    SentReply.echo).flatMap Echo.ids

theorem repliedIds_bare {request : ChatRequest} {answers : Option (List Bytes)}
    {replies : List ChatReply} (h : ∀ m, .chatMessage m ∈ replies → m.attachments = []) :
    repliedIds request answers replies = [] := by
  rw [repliedIds, List.flatMap_eq_nil_iff]
  intro e he
  obtain ⟨r, hr, hecho⟩ := List.mem_filterMap.mp he
  obtain ⟨reply, hreply, rfl⟩ := List.mem_map.mp hr
  rw [SentReply.echo] at hecho
  split at hecho
  next m _ heq =>
    cases hecho
    dsimp only at heq ⊢
    rw [heq] at hreply
    rw [h m hreply, List.map_nil]
  · cases hecho

theorem repliedIds_message (request : ChatRequest) (answers : Option (List Bytes))
    (m : ChatMessage) : repliedIds request answers [.chatMessage m] =
      if answers.isSome then m.attachments.map ChatAttachment.id else [] := by
  cases answers with
  | none => rfl
  | some files => exact List.append_nil _

/-- A request gives out new ids, or none. -/
theorem givenIds_handle (h : ChatHop) (at' : Connected me userId) (sid : SessionId)
    (request : ChatRequest) (answers : Option (List Bytes)) :
    let outcome := (h.chatServer at').handle sid request
    let ids := givenIds (repliedIds request answers (sentTo me outcome.2))
    h.db.lastAttachmentId ≤ outcome.1.lastAttachmentId ∧ ids.Pairwise (· < ·) ∧
      ∀ id ∈ ids, h.db.lastAttachmentId < id ∧ id ≤ outcome.1.lastAttachmentId := by
  have hhandles := (h.chatServer at').handle_handles sid request
  generalize (h.chatServer at').handle sid request = outcome at hhandles
  have hbare : h.db.lastAttachmentId ≤ outcome.1.lastAttachmentId →
      (∀ m, (me, .chatMessage m) ∈ outcome.2 → m.attachments = []) →
      let ids := givenIds (repliedIds request answers (sentTo me outcome.2))
      h.db.lastAttachmentId ≤ outcome.1.lastAttachmentId ∧ ids.Pairwise (· < ·) ∧
        ∀ id ∈ ids, h.db.lastAttachmentId < id ∧ id ≤ outcome.1.lastAttachmentId := by
    intro hle hnone
    dsimp only
    rw [repliedIds_bare fun m hm => hnone m (mem_sentTo.mp hm)]
    exact ⟨hle, List.Pairwise.nil, fun id hid => by cases hid⟩
  cases hhandles with
  | ignored =>
      refine hbare le_rfl ?_
      intro m hm
      cases hm
  | refused | channels | users | pinnedList | searched | history =>
      refine hbare le_rfl ?_
      intro m hm
      cases List.mem_singleton.mp hm
  | @deleted _ dbOk =>
      refine hbare (by cases dbOk <;> exact le_rfl) ?_
      intro m hm
      obtain ⟨_, _, heq⟩ := List.mem_map.mp hm
      cases heq
  | @pinned _ dbOk | @unpinned _ dbOk =>
      refine hbare (by cases dbOk <;> exact le_rfl) ?_
      intro m hm
      obtain ⟨_, _, heq⟩ := List.mem_map.mp hm
      cases heq
      rfl
  | @stored payload now month messageOk attachmentOk send reader id db hin hauth hparse hinsert =>
      have hlast : db.lastAttachmentId = h.db.lastAttachmentId := by
        obtain ⟨_, _, hdb⟩ := ChatDatabase.insertMessage_eq hinsert
        rw [hdb]
        rfl
      have hgiven := givenIds_storeAttachments id month attachmentOk 0
        (readAttachments send.attachmentCount.toNat reader) db
      dsimp only at hgiven ⊢
      rw [hlast] at hgiven
      rw [sentTo_broadcast, repliedIds_message]
      cases answers with
      | none => exact ⟨hgiven.1, List.Pairwise.nil, fun id hid => by cases hid⟩
      | some files => exact hgiven

theorem Numbered.serve (hn : Numbered h) (at' : Connected me userId) (sid : SessionId)
    (request : ChatRequest) (answers : Option (List Bytes)) :
    Numbered (h.serve at' sid request answers) := by
  obtain ⟨hle, hascending, hgiven⟩ := givenIds_handle h at' sid request answers
  have hannounced : announced h.echoes (h.serve at' sid request answers).replies =
      announced h.echoes h.replies ++ givenIds (repliedIds request answers
        (sentTo me ((h.chatServer at').handle sid request).2)) := by
    show announced h.echoes (h.replies ++ _) = _
    rw [announced, List.filterMap_append, ← List.append_assoc, List.flatMap_append,
      givenIds_append]
    rfl
  refine ⟨?_, ?_⟩
  · show (announced h.echoes (h.serve at' sid request answers).replies).Pairwise _
    rw [hannounced]
    refine List.pairwise_append.mpr ⟨hn.ascending, hascending, ?_⟩
    intro id hid id' hid'
    exact lt_of_le_of_lt (hn.given id hid) (hgiven id' hid').1
  · intro id hid
    replace hid : id ∈ announced h.echoes (h.serve at' sid request answers).replies := hid
    rw [hannounced] at hid
    rcases List.mem_append.mp hid with hold | hnew
    · exact (hn.given id hold).trans hle
    · exact (hgiven id hnew).2

theorem Numbered.deliver (hn : Numbered h) : Numbered h.deliver := by
  rw [ChatHop.deliver]
  split
  · exact hn
  next r replies hreplies =>
    have hsame : announced (h.echoes ++ r.echo.toList) replies =
        announced h.echoes h.replies := by
      rw [announced, announced, hreplies, List.filterMap_cons, List.append_assoc]
      cases r.echo <;> rfl
    refine ⟨?_, ?_⟩
    · show (announced (h.echoes ++ r.echo.toList) replies).Pairwise _
      rw [hsame]
      exact hn.ascending
    · intro id hid
      replace hid : id ∈ announced (h.echoes ++ r.echo.toList) replies := hid
      rw [hsame] at hid
      exact hn.given id hid

theorem numbered_step (hn : Numbered h) (op : ChatOp me userId) : Numbered (h.step op) := by
  cases op with
  | requestArrives at' env =>
      show Numbered (h.requestArrives at' env)
      rw [ChatHop.requestArrives]
      split
      · exact hn
      next sent requests _ =>
        have htaken : Numbered { h with requests } := ⟨hn.ascending, hn.given⟩
        split
        · exact htaken
        · exact htaken.serve at' me _ _
  | otherRequest at' sid request =>
      show Numbered (if sid = me then h else h.serve at' sid request none)
      split
      · exact hn
      · exact hn.serve at' sid request none
  | deliver => exact hn.deliver
  | setTextChannels | attachmentUploaded | fileReady | selectChannel | joinChannel
  | loadMoreHistory | sendMessage | pinMessage | unpinMessage | deleteMessage =>
      exact ⟨hn.ascending, hn.given⟩

/-! ### Runs -/

theorem Matching.attached (hm : Matching userId h) (hn : Numbered h) : Attached h where
  uploads := hm.uploads
  counts := hm.counts
  distinct := by
    have hascending := hn.ascending
    rw [announced, List.flatMap_append, givenIds_append, List.pairwise_append] at hascending
    have hnodup : (givenIds (h.echoes.flatMap Echo.ids)).Nodup :=
      hascending.1.imp fun hlt => Nat.ne_of_lt hlt
    exact List.Nodup.of_map _ hnodup

/-- In every run in which nothing disturbs the pending files, each file goes up once, under the
id that the echo of its own send has at its position. -/
theorem files_attached {db : ChatDatabase} (hdb : db.Reached) {ops : List (ChatOp me userId)}
    (hundisturbed : Machine.AllSteps step Undisturbed (new db userId) ops) :
    Attached (run db ops) := by
  have hnew : Matching userId (new db userId) := {
    sound := hdb.sound
    user := rfl
    requests := by
      intro sent hsent
      cases hsent
    replies := by
      intro r hr
      cases hr
    pending := by
      intro files hfiles
      cases hfiles
    uploads := rfl
    counts := by
      intro e he
      cases he }
  have hnumbered : Numbered (new db userId) := ⟨List.Pairwise.nil, fun id hid => by cases hid⟩
  have hstep : ∀ (h : ChatHop) (op : ChatOp me userId), Matching userId h ∧ Numbered h →
      h.Undisturbed op → Matching userId (h.step op) ∧ Numbered (h.step op) :=
    fun _ op hboth hop => ⟨matching_step hboth.1 op hop, numbered_step hboth.2 op⟩
  obtain ⟨hm, hn⟩ := Machine.run_invariant hstep ⟨hnew, hnumbered⟩ hundisturbed
  exact hm.attached hn

/-- One text channel without messages. -/
def oneChannel : ChatDatabase := { textChannels := [⟨1, [103], 0⟩] }

theorem reached_oneChannel : oneChannel.Reached := .fresh _

/-- The user has selected the channel and seen its history. -/
def selected : List (ChatOp 1 1) := [.selectChannel 1, .requestArrives pinConnected {}, .deliver]

theorem run_selected : run oneChannel selected =
    { db := oneChannel, client := { userId := 1, activeChannel := 1 } } := rfl

def letterA : PendingFile := ⟨[97], some [1]⟩
def letterB : PendingFile := ⟨[98], some [2]⟩

/-- The first of two sends arrives at the server when both are made, and its echo comes back. -/
def sentTwice : List (ChatOp 1 1) :=
  selected ++ [.sendMessage [] [letterA], .sendMessage [] [letterB],
    .requestArrives pinConnected {}, .deliver]

/-- The send of the first file, as the server reads it. -/
def sendA : ChatRequest :=
  .chatSend (ChatClient.sendReq 1 [] [⟨[97], [1]⟩]).payload 0 [] true fun _ => true

theorem echo_letterA {h : ChatHop} (hdb : h.db = oneChannel) :
    ∃ m, sentTo 1 ((h.chatServer pinConnected).handle 1 sendA).2 = [.chatMessage m] ∧
      (ChatReply.chatMessage m).Readable ∧ m.row.senderId = 1 ∧ m.attachments.length = 1 := by
  have hempty : TextFits [] := Nat.two_pow_pos 16
  have hparse := parse_sendReq 1 hempty [⟨[97], [1]⟩]
  have hname : ∀ pu ∈ [(⟨[97], [1]⟩ : PendingUpload)], TextFits pu.name := by
    intro pu hpu
    rw [List.mem_singleton.mp hpu]
    exact Nat.one_lt_two_pow (by decide)
  have hread := readAttachments_write hname
  have hserver : (h.chatServer pinConnected).db = oneChannel := hdb
  have hsound : (h.chatServer pinConnected).db.Sound := by
    rw [hserver]
    exact reached_oneChannel.sound
  have hreadable := readable_handle hsound pinConnected.namesFit 1 sendA
  have hhandle : (h.chatServer pinConnected).handle 1 sendA =
      (h.chatServer pinConnected).chatSend 1
        (ChatClient.sendReq 1 [] [⟨[97], [1]⟩]).payload 0 [] true fun _ => true := rfl
  rw [hhandle] at hreadable ⊢
  have hauth : ((h.chatServer pinConnected).session 1).authenticated = true := rfl
  rcases chatSend_answers hauth hparse 0 [] true (fun _ => true) with
    ⟨text, herror⟩ | ⟨db, m, hstored, hsender, hlength⟩
  · rw [chatSend, hparse, hserver] at herror
    have htype := congrArg (fun outcome : ChatOutcome => outcome.2.head?.map fun s => s.2.type)
      herror
    exact absurd (show (some 0x0501 : Option (BitVec 16)) = some 0x01FF from htype) (by decide)
  · rw [hstored] at hreadable ⊢
    refine ⟨m, sentTo_broadcast h pinConnected _, hreadable (1, _) ?_, hsender, ?_⟩
    · exact List.mem_singleton.mpr rfl
    · rw [hlength]
      exact congrArg List.length hread

/-- The client after both sends, the request of the first taken from the stream. -/
def bothSent : ChatHop where
  db := oneChannel
  client := { userId := 1, activeChannel := 1, pendingUploads := [⟨[98], [2]⟩] }
  requests := [⟨ChatClient.sendReq 1 [] [⟨[98], [2]⟩], [[2]]⟩]

theorem deliver_cons {h : ChatHop} {r : SentReply} {replies : List SentReply}
    (hreplies : h.replies = r :: replies) (hreadable : r.reply.Readable) :
    h.deliver.uploads = h.uploads ++ (h.client.take r.reply).2 ∧
      h.deliver.echoes = h.echoes ++ r.echo.toList := by
  rw [ChatHop.deliver, hreplies]
  exact ⟨congrArg (h.uploads ++ ·) (h.client.handleServerMessage_view hreadable).2, rfl⟩

/-- The file of the second send goes up under the id of the first. -/
theorem not_files_attached : ¬ ∀ (me : SessionId) (userId : UserId) (db : ChatDatabase),
    db.Reached → ∀ ops : List (ChatOp me userId), Attached (run db ops) := by
  intro hall
  have hattached := hall 1 1 oneChannel reached_oneChannel sentTwice
  rw [sentTwice, run, Machine.run_append, ← run, run_selected] at hattached
  obtain ⟨m, hsent, hreadable, hsender, hlength⟩ := echo_letterA (h := bothSent) rfl
  have hreplies : (bothSent.serve pinConnected 1 sendA (some [[1]])).replies =
      [⟨sendA, some [[1]], .chatMessage m⟩] :=
    congrArg (List.map fun reply => (⟨sendA, some [[1]], reply⟩ : SentReply)) hsent
  obtain ⟨huploads, hechoes⟩ := deliver_cons hreplies hreadable
  have htaken := ChatClient.uploads_takeMessage bothSent.client m
  rw [if_pos (show m.row.senderId = bothSent.client.userId from hsender)] at htaken
  have harrived : Attached (bothSent.serve pinConnected 1 sendA (some [[1]])).deliver := hattached
  obtain ⟨a, hone⟩ := List.length_eq_one_iff.mp hlength
  have hasked : (bothSent.client.takeMessage m).2 =
      Echo.uploads ⟨m.attachments.map ChatAttachment.id, [[1]]⟩ := by
    have hequal := harrived.uploads
    rw [huploads, hechoes] at hequal
    exact hequal.trans (List.append_nil _)
  rw [htaken, hone] at hasked
  have hdata := congrArg (fun uploads : List Upload => uploads.map Upload.data) hasked
  exact absurd (show ([[2]] : List Bytes) = [[1]] from hdata) (by decide)

/-- A send whose echo comes back before anything else is sent disturbs nothing, and leaves
nothing under way. -/
theorem undisturbed_echoed {h : ChatHop} (hrequests : h.requests = []) (hreplies : h.replies = [])
    (at' : Connected me userId) (env : ChatEnv) (composeText : Bytes)
    (pendingFiles : List PendingFile)
    (hfits : h.Undisturbed (.sendMessage composeText pendingFiles : ChatOp me userId)) :
    let ops : List (ChatOp me userId) :=
      [.sendMessage composeText pendingFiles, .requestArrives at' env, .deliver]
    Machine.AllSteps step Undisturbed h ops ∧ (Machine.run step h ops).requests = [] ∧
      (Machine.run step h ops).replies = [] := by
  intro ops
  obtain ⟨hone, -⟩ := sendMessage_sent h.client composeText pendingFiles
  have hsent : (h.step (.sendMessage composeText pendingFiles : ChatOp me userId)).requests.length ≤
      1 := by
    rw [step, withClient, hrequests, List.nil_append, List.length_map]
    exact hone
  obtain ⟨hnone, hleft⟩ := requestArrives_quiet hsent hreplies at' env
  generalize hserved : (h.step (.sendMessage composeText pendingFiles : ChatOp me userId)).requestArrives
    at' env = served at hnone hleft
  have hrun : Machine.run step h ops = served.deliver := congrArg deliver hserved
  have hsteps (hlast : served.Undisturbed (.deliver : ChatOp me userId)) :
      Machine.AllSteps step Undisturbed h ops := by
    rw [← hserved] at hlast
    exact ⟨hfits, trivial, hlast, trivial⟩
  obtain ⟨hgone, hsame⟩ := deliver_quiet hleft
  rw [hrun, hsame]
  refine ⟨hsteps ?_, hnone, hgone⟩
  intro r replies hcons m _ _
  have hlast : replies = [] := by
    rw [hcons, List.length_cons] at hleft
    exact List.length_eq_zero_iff.mp (by omega)
  rw [hlast, hnone]
  exact ⟨(fun files hfiles => by cases hfiles), fun _ _ _ => rfl⟩

def letterC : PendingFile := ⟨[99], some [3, 4]⟩

/-- A message with two files, and one with a third, each echoed before the next. -/
def sentInTurn : List (ChatOp 1 1) :=
  [.sendMessage [104] [letterA, letterB], .requestArrives pinConnected {}, .deliver] ++
    [.sendMessage [] [letterC], .requestArrives pinConnected {}, .deliver]

theorem undisturbed_inTurn {h : ChatHop} (hrequests : h.requests = []) (hreplies : h.replies = []) :
    Machine.AllSteps step Undisturbed h sentInTurn := by
  have hshort : TextFits [97] := Nat.one_lt_two_pow (by decide)
  have hpair : ∀ pu ∈ [letterA, letterB].filterMap PendingFile.read, TextFits pu.name := by
    intro pu hpu
    obtain rfl | rfl := List.mem_pair.mp hpu
    · exact hshort
    · exact hshort
  have hsingle : ∀ pu ∈ [letterC].filterMap PendingFile.read, TextFits pu.name := by
    intro pu hpu
    rw [List.mem_singleton.mp hpu]
    exact hshort
  rw [sentInTurn, Machine.allSteps_append]
  obtain ⟨hfirst, hnone, hquiet⟩ := undisturbed_echoed hrequests hreplies pinConnected {} [104]
    [letterA, letterB] fun _ => ⟨hshort, hpair, by decide⟩
  obtain ⟨hsecond, -, -⟩ := undisturbed_echoed hnone hquiet pinConnected {} [] [letterC] fun _ =>
    ⟨Nat.two_pow_pos 16, hsingle, by decide⟩
  exact ⟨hfirst, hsecond⟩

theorem files_attached_inTurn : Attached (run oneChannel (selected ++ sentInTurn)) := by
  refine files_attached reached_oneChannel ?_
  rw [Machine.allSteps_append]
  refine ⟨⟨trivial, trivial, ?_, trivial⟩, undisturbed_inTurn rfl rfl⟩
  intro r replies hreplies m hreply
  cases hreplies
  cases hreply

end ChatHop

end Client

end Parties

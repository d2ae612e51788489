import Parties.Server.FileTransfers

/-!
# What a download delivers

A file that is downloaded is the one the author of its message uploaded last under this id, byte
for byte, however the two streams were cut into pieces, whatever other streams did meanwhile and
whatever became of the tables in between. The path of an attachment is its own, so no upload
writes into the file of another one, and what is removed is not served.

What a file holds is what has come to the disk. The server looks neither at the answer of the
write nor at that of the close, so a write that fails leaves a prefix, and this is served as the
file. And a request that waits in the queue keeps the handle of its stream: if the stream is closed
in the meantime, the handle may by then be that of another stream. So the law is about runs in
which no request is worked off behind the end of its stream.
-/

namespace Parties

open ByteStream Wire

/-! ### The law -/

/-- The bytes of an attachment behind the events of a log. -/
def contentOf (initial : FileServer) (log : List TransferEvent) (attachmentId : BitVec 64) :
    Option Bytes :=
  log.foldl (fun content e => match e with
    | .written id _ _ data failsAt =>
      if id = attachmentId then some (bytesOnDisk data failsAt) else content
    | _ => content) (initial.readFile attachmentId)

/-- The user of a session behind the events of a log. -/
def userOf (log : List TransferEvent) (sid : SessionId) : Option UserId :=
  log.foldl (fun user e => match e with
    | .session other user' => if other = sid then user' else user
    | _ => user) none

/-- What holds of the events of the transfers, given those in front. -/
def Delivers (initial : FileServer) (front : List TransferEvent) : TransferEvent → Prop
  | .written attachmentId sid author data _ => userOf front sid = some author ∧
    ∃ stream client, .opened stream sid client
      (STREAM_TYPE_FILE_UPLOAD :: (writeU64 attachmentId ++ data)) ∈ front
  | .served stream attachmentId data => contentOf initial front attachmentId = some data ∧
    ∃ sid client rest, (userOf front sid).isSome = true ∧ .opened stream sid client
      (STREAM_TYPE_FILE_DOWNLOAD :: (writeU64 attachmentId ++ rest)) ∈ front
  | .downloaded stream attachmentId data => ∃ sid bytes asked whole,
    .opened stream sid ⟨attachmentId, false, []⟩ bytes ∈ front ∧
    .served stream asked whole ∈ front ∧ data = quicBuffer whole ∧
    (bytes = downloadFile attachmentId → asked = attachmentId)
  | _ => True

variable {initial : FileServer} {log : List TransferEvent}

theorem contentOf_concat (initial : FileServer) (log : List TransferEvent) (e : TransferEvent)
    (id : BitVec 64) : contentOf initial (log ++ [e]) id = match e with
      | .written id' _ _ data failsAt =>
        if id' = id then some (bytesOnDisk data failsAt) else contentOf initial log id
      | _ => contentOf initial log id := by
  rw [contentOf, List.foldl_append]
  rfl

theorem userOf_concat (log : List TransferEvent) (e : TransferEvent) (sid : SessionId) :
    userOf (log ++ [e]) sid = match e with
      | .session other user => if other = sid then user else userOf log sid
      | _ => userOf log sid := by
  rw [userOf, List.foldl_append]
  rfl

/-! ### Headers -/

theorem length_writeU64 (id : BitVec 64) : (writeU64 id).length = 8 := length_le _ _

/-- An id is read back whatever comes behind it. -/
theorem writeU64_append_inj {id other : BitVec 64} {xs ys : Bytes}
    (h : writeU64 id ++ xs = writeU64 other ++ ys) : id = other := by
  have hbytes := List.append_inj_left h ((length_writeU64 id).trans (length_writeU64 other).symm)
  have hnumbers := congrArg readLe hbytes
  rw [writeU64, writeU64, readLe_le (by simpa using id.isLt), readLe_le (by simpa using other.isLt)]
    at hnumbers
  exact BitVec.eq_of_toNat_eq hnumbers

/-- A request is shorter than any buffer. -/
theorem downloadFile_eq (id : BitVec 64) :
    downloadFile id = STREAM_TYPE_FILE_DOWNLOAD :: writeU64 id := by
  have hlength : (STREAM_TYPE_FILE_DOWNLOAD :: writeU64 id).length = 9 := by
    rw [List.length_cons, length_writeU64]
  rw [downloadFile, quicBuffer, hlength]
  exact List.take_of_length_le (by rw [hlength]; decide)

/-! ### Streams -/

namespace FileStreamContext

variable {ctx : FileStreamContext} {bytes left : Bytes}

/-- Of what was written to the stream `left` is under way, and the server has read the rest. -/
def Reads (ctx : FileStreamContext) (bytes left : Bytes) : Prop :=
  if ctx.headerParsed then
    bytes = ctx.streamType :: (writeU64 ctx.attachmentId ++ (ctx.buffer ++ left))
  else ctx.buffer.length < 9 ∧ bytes = ctx.buffer ++ left

/-- The server has read a request for an attachment. -/
def Asks (ctx : FileStreamContext) (sid : SessionId) (attachmentId : BitVec 64) : Prop :=
  ctx.headerParsed = true ∧ ctx.streamType = STREAM_TYPE_FILE_DOWNLOAD ∧
    ctx.sessionId = sid ∧ ctx.attachmentId = attachmentId

theorem writeU64_readLe {bytes : Bytes} (h : bytes.length = 8) :
    writeU64 (BitVec.ofNat 64 (readLe bytes)) = bytes := by
  have hlt := readLe_lt bytes
  rw [h] at hlt
  rw [writeU64, BitVec.toNat_ofNat, Nat.mod_eq_of_lt (by simpa using hlt), ← h]
  exact le_readLe bytes

/-- What the header says does not change. -/
theorem receive_of_parsed (h : ctx.headerParsed = true) (data : Bytes) :
    ctx.receive data = { ctx with buffer := ctx.buffer ++ data } := by
  simp [receive, h]

theorem Reads.receive (h : ctx.Reads bytes left) (count : Nat) :
    (ctx.receive (left.take count)).Reads bytes (left.drop count) := by
  cases hparsed : ctx.headerParsed with
  | true =>
    rw [Reads, if_pos hparsed] at h
    rw [receive_of_parsed hparsed, Reads, if_pos hparsed, List.append_assoc, List.take_append_drop]
    exact h
  | false =>
    rw [Reads, if_neg (by simp [hparsed])] at h
    obtain ⟨_, hbytes⟩ := h
    have hsplit : bytes = (ctx.buffer ++ left.take count) ++ left.drop count := by
      rw [List.append_assoc, List.take_append_drop]
      exact hbytes
    simp only [FileStreamContext.receive, hparsed, Bool.not_false, Bool.true_and, decide_eq_true_eq]
    split
    next hlength =>
      rw [Reads, if_pos rfl, hsplit]
      -- the header is complete with this piece
      generalize ctx.buffer ++ left.take count = buffer at hlength
      obtain ⟨type, rest, rfl⟩ : ∃ type rest, buffer = type :: rest :=
        List.exists_cons_of_length_pos (by omega)
      rw [List.length_cons] at hlength
      have height : (rest.take 8).length = 8 := by
        rw [List.length_take]
        omega
      show _ = type :: (writeU64 (BitVec.ofNat 64 (readLe (rest.take 8))) ++
        (rest.drop 8 ++ left.drop count))
      rw [writeU64_readLe height, ← List.append_assoc, List.take_append_drop, List.cons_append]
    next hlength =>
      rw [Reads, if_neg (by simp)]
      exact ⟨by simpa using hlength, hsplit⟩

theorem receive_sessionId (ctx : FileStreamContext) (data : Bytes) :
    (ctx.receive data).sessionId = ctx.sessionId := by
  simp only [FileStreamContext.receive]
  split <;> rfl

theorem Asks.receive {sid : SessionId} {id : BitVec 64} (h : ctx.Asks sid id) (data : Bytes) :
    (ctx.receive data).Asks sid id := by
  obtain ⟨hparsed, hrest⟩ := h
  rw [receive_of_parsed hparsed]
  exact ⟨hparsed, hrest⟩

end FileStreamContext

/-! ### The bytes of an attachment -/

namespace FileServer

open ChatDatabase

variable {s s' : FileServer} {id : BitVec 64} {data : Bytes}

theorem readFile_eq_some : s.readFile id = some data ↔ ∃ att f, s.db.getAttachment id = some att ∧
    att.uploaded = true ∧ (s.disk.find? fun f => f.path = att.diskPath) = some f ∧ f.data = data := by
  unfold readFile
  cases s.db.getAttachment id with
  | none => simp
  | some att => cases huploaded : att.uploaded <;> simp [huploaded]

/-- A row is found by its id. -/
theorem getAttachment_eq_some (h : s.db.Filed) {att : AttachmentRow} :
    s.db.getAttachment id = some att ↔ att ∈ s.db.fileAttachments ∧ att.id = id := by
  constructor
  · intro hfound
    exact ⟨List.mem_of_find?_eq_some hfound, by simpa using List.find?_some hfound⟩
  · rintro ⟨hatt, rfl⟩
    obtain ⟨found, hfound⟩ : ∃ found, s.db.getAttachment att.id = some found :=
      Option.isSome_iff_exists.mp (List.find?_isSome.mpr ⟨att, hatt, by simp⟩)
    have hmem := List.mem_of_find?_eq_some hfound
    have hid : found.id = att.id := by simpa using List.find?_some hfound
    have hapart : s.db.fileAttachments.Pairwise fun a b => a.id ≠ b.id :=
      h.ascending.imp fun hlt heq => by
        rw [heq] at hlt
        exact lt_irrefl _ hlt
    by_contra hne
    have hdistinct : found ≠ att := fun heq => hne (heq ▸ hfound)
    have : Std.Symm fun a b : AttachmentRow => a.id ≠ b.id := ⟨fun _ _ => Ne.symm⟩
    exact hapart.forall hmem hatt hdistinct hid

/-- Where only rows and files have gone, or rows come that are not uploaded, what is read is what was
read before. -/
theorem readFile_of_fewer (h : s.db.Filed) (h' : s'.db.Filed)
    (hrows : ∀ att ∈ s'.db.fileAttachments, att.uploaded = true → att ∈ s.db.fileAttachments)
    (hdisk : ∃ keeps : Bytes → Bool, s'.disk = s.disk.filter fun f => keeps f.path)
    (hread : s'.readFile id = some data) : s.readFile id = some data := by
  obtain ⟨att, f, hatt, huploaded, hf, hdata⟩ := readFile_eq_some.mp hread
  obtain ⟨hmem, hid⟩ := (getAttachment_eq_some h').mp hatt
  refine readFile_eq_some.mpr ⟨att, f, (getAttachment_eq_some h).mpr ⟨hrows att hmem huploaded, hid⟩,
    huploaded, ?_, hdata⟩
  obtain ⟨keeps, hkeeps⟩ := hdisk
  rw [hkeeps, List.find?_filter] at hf
  have hkept : keeps att.diskPath = true ∧ f.path = att.diskPath := by
    have hfound := List.find?_some hf
    simp only [decide_eq_true_eq] at hfound
    exact ⟨hfound.2 ▸ hfound.1, hfound.2⟩
  have hpred : (fun f : StoredFile => decide (keeps f.path = true ∧
      decide (f.path = att.diskPath) = true)) = fun f => decide (f.path = att.diskPath) := by
    funext file
    by_cases hpath : file.path = att.diskPath
    · simp [hpath, hkept.1]
    · simp [hpath]
  rwa [hpred] at hf

/-! What the main loop does to the tables and the files. -/

theorem storeAttachments_uploaded (messageId : BitVec 64) (month : Bytes) (ok : Nat → Bool) (i : Nat)
    (attachments : List ChatServer.PendingAttachment) (db : ChatDatabase) :
    ∀ att ∈ (ChatServer.storeAttachments messageId month ok i attachments db).2.fileAttachments,
      att.uploaded = true → att ∈ db.fileAttachments := by
  induction attachments generalizing i db with
  | nil => exact fun att hatt _ => hatt
  | cons a rest ih =>
    intro att hatt huploaded
    rw [ChatServer.storeAttachments_cons] at hatt
    have hinserted := ih (i + 1) _ att hatt huploaded
    simp only [insertAttachment] at hinserted
    split at hinserted
    · exact hinserted
    · obtain hold | hnew := List.mem_append.mp hinserted
      · exact hold
      · rw [List.mem_singleton.mp hnew] at huploaded
        cases huploaded

theorem handle_uploaded (c : ChatServer) (sid : SessionId) (request : ChatRequest) :
    ∀ att ∈ (c.handle sid request).1.fileAttachments, att.uploaded = true →
      att ∈ c.db.fileAttachments := by
  have hhandles := c.handle_handles sid request
  generalize c.handle sid request = outcome at hhandles ⊢
  cases hhandles with
  | stored hin hauth hparse hinsert =>
    obtain ⟨_, _, hdb⟩ := ChatDatabase.insertMessage_eq hinsert
    subst hdb
    exact storeAttachments_uploaded _ _ _ _ _ _
  | @pinned _ dbOk | @unpinned _ dbOk | @deleted _ dbOk =>
    cases dbOk <;> exact fun att hatt _ => hatt
  | _ => exact fun att hatt _ => hatt

/-- Nothing but an upload changes what is read, unless it goes. -/
theorem readFile_step (h : s.db.Filed) {op : FileOp} (hop : op.isUpload = false)
    (hread : (s.step op).readFile id = some data) : s.readFile id = some data := by
  have h' := filed_step h op
  cases op with
  | upload maxFileSize ev => cases hop
  | request c sid request =>
    refine readFile_of_fewer h h' ?_ ⟨fun _ => true, by simp [step]⟩ hread
    exact handle_uploaded { c with db := s.db } sid request
  | deleteTextChannel channel =>
    refine readFile_of_fewer h h' (fun att hatt _ => List.mem_of_mem_filter hatt) ?_ hread
    exact ⟨fun _ => true, by simp [step]⟩
  | purgeOldMessages cutoff =>
    refine readFile_of_fewer h h' (fun att hatt _ => hatt) ?_ hread
    exact ⟨fun _ => true, by simp [step]⟩
  | purgeOldFiles isOld deleteOk =>
    refine readFile_of_fewer h h' (fun att hatt _ => List.mem_of_mem_filter hatt) ?_ hread
    exact ⟨fun path => decide (path ∉ (s.db.fileAttachments.filter isOld).map AttachmentRow.diskPath),
      rfl⟩
  | purgeOldestFiles limit deleteOk =>
    obtain ⟨k, _, _, _, hpurge⟩ := s.purgeOldestFiles_spec limit deleteOk
    simp only [step, hpurge] at hread h'
    refine readFile_of_fewer h h' (fun att hatt _ => List.mem_of_mem_filter hatt) ?_ hread
    exact ⟨fun path => decide (path ∉ (s.db.uploadedFiles.take k).map AttachmentRow.diskPath), rfl⟩

theorem find?_writeFile (s : FileServer) (path data other : Bytes) :
    ((s.writeFile path data).disk.find? fun f => f.path = other) =
      if path = other then some ⟨path, data⟩ else s.disk.find? fun f => f.path = other := by
  rw [writeFile, List.find?_cons]
  by_cases hpath : path = other
  · simp [hpath]
  · simp only [hpath, decide_false, if_false, List.find?_filter]
    congr 1
    funext f
    by_cases hf : f.path = other
    · have hne : ¬ f.path = path := fun heq => hpath (heq.symm.trans hf)
      simp [hf, Ne.symm hpath]
    · simp [hf]

theorem uploadRow_eq_some {maxFileSize : Int} {ev : FileUpload} {att : AttachmentRow}
    {author : UserId} (h : s.uploadRow maxFileSize ev = some (att, author)) :
    ev.sender = some author ∧ s.db.getAttachment ev.attachmentId = some att ∧
      att.uploaded = false := by
  unfold uploadRow at h
  cases hsender : ev.sender with
  | none => simp [hsender] at h
  | some user =>
    cases hatt : s.db.getAttachment ev.attachmentId with
    | none => simp [hsender, hatt] at h
    | some found =>
      simp only [hsender, hatt] at h
      split at h
      · cases h
      next huploaded =>
        split at h
        · cases h
        next owner howner =>
          split at h
          · cases h
          next hauthor =>
            split at h
            · cases h
            split at h
            · cases h
            obtain ⟨rfl, rfl⟩ := Prod.mk.inj (Option.some_inj.mp h)
            rw [not_not] at hauthor
            exact ⟨by rw [hauthor], rfl, Bool.eq_false_of_not_eq_true huploaded⟩

/-- An upload changes what is read of its own attachment only, and there it is what has come to the
disk. -/
theorem readFile_processUpload (h : s.db.Filed) {maxFileSize : Int} {ev : FileUpload}
    {att : AttachmentRow} {author : UserId}
    (haccepted : s.uploadRow maxFileSize ev = some (att, author))
    (hread : (s.processUpload maxFileSize ev).readFile id = some data) :
    if ev.attachmentId = id then data = ev.onDisk else s.readFile id = some data := by
  obtain ⟨_, hatt, hfresh⟩ := uploadRow_eq_some haccepted
  obtain ⟨hrow, hid⟩ := (getAttachment_eq_some h).mp hatt
  have h' := filed_processUpload h maxFileSize ev
  rw [processUpload_eq, haccepted] at hread h'
  obtain ⟨found, f, hfound, huploaded, hf, rfl⟩ := readFile_eq_some.mp hread
  obtain ⟨hmem, hfoundId⟩ := (getAttachment_eq_some h').mp hfound
  -- the row before the upload, with the same path
  have hbefore : ∃ old ∈ s.db.fileAttachments, old.id = id ∧ old.diskPath = found.diskPath ∧
      (ev.attachmentId ≠ id → old = found) := by
    cases hmark : ev.markOk with
    | false =>
      simp only [hmark, Bool.false_eq_true, if_false] at hmem
      exact ⟨found, hmem, hfoundId, rfl, fun _ => rfl⟩
    | true =>
      simp only [hmark, if_true, markAttachmentUploaded] at hmem
      obtain ⟨old, hold, rfl⟩ := List.mem_map.mp hmem
      refine ⟨old, hold, ?_⟩
      by_cases hsame : old.id = ev.attachmentId
      · rw [if_pos hsame] at hfoundId ⊢
        exact ⟨hfoundId, rfl, fun hne => absurd (hsame.symm.trans hfoundId) hne⟩
      · rw [if_neg hsame] at hfoundId ⊢
        exact ⟨hfoundId, rfl, fun _ => rfl⟩
  obtain ⟨old, hold, holdId, hpath, hother⟩ := hbefore
  have hdisk : ((s.writeFile att.diskPath ev.onDisk).disk.find? fun g => g.path = found.diskPath) =
      some f := by
    cases hmark : ev.markOk <;> simpa [hmark] using hf
  rw [find?_writeFile] at hdisk
  split
  next hsame =>
    have hsameRow : old = att := by
      have hone := (getAttachment_eq_some h).mpr ⟨hold, holdId.trans hsame.symm⟩
      exact Option.some_inj.mp (hone.symm.trans hatt)
    rw [if_pos (by rw [← hpath, hsameRow])] at hdisk
    exact (congrArg StoredFile.data (Option.some_inj.mp hdisk)).symm
  next hne =>
    have hapart : att.diskPath ≠ old.diskPath := by
      have : Std.Symm fun a b : AttachmentRow => a.diskPath ≠ b.diskPath := ⟨fun _ _ => Ne.symm⟩
      refine h.apart.forall hrow hold fun heq => hne ?_
      rw [← hid, heq, holdId]
    rw [if_neg (fun heq => hapart (heq.trans hpath.symm))] at hdisk
    obtain rfl := hother hne
    exact readFile_eq_some.mpr ⟨old, f, (getAttachment_eq_some h).mpr ⟨hold, holdId⟩, huploaded,
      hdisk, rfl⟩

end FileServer

/-! ### The invariant -/

namespace FileTransfers

/-- What is known of a stream. -/
structure StreamSound (log : List TransferEvent) (stream : Nat) (st : FileStream) : Prop where
  /-- Where it came from, and how far it is read. -/
  opened : ∃ bytes, .opened stream st.server.sessionId
    ⟨st.client.attachmentId, st.client.isUpload, []⟩ bytes ∈ log ∧ st.server.Reads bytes st.inbound
  /-- What has come back and what is under way is a file that was served on it. -/
  reply : ∀ left ∈ st.outbound, ∃ whole, .served stream st.server.attachmentId whole ∈ log ∧
    st.client.recvData ++ left = quicBuffer whole ∧ st.server.headerParsed = true ∧
    st.server.streamType = STREAM_TYPE_FILE_DOWNLOAD
  silent : st.outbound = none → st.client.recvData = []

/-- An upload is what a client wrote to a stream of its session. -/
def UploadSound (log : List TransferEvent) (ev : FileUploadEvent) : Prop :=
  ∃ stream client, .opened stream ev.sessionId client
    (STREAM_TYPE_FILE_UPLOAD :: (writeU64 ev.attachmentId ++ ev.data)) ∈ log

/-- A request is what the server has read from its stream. -/
def RequestSound (streams : List FileStream) (req : FileDownloadRequest) : Prop :=
  ∃ st, streams[req.stream]? = some st ∧
    st.server.Asks req.sessionId req.attachmentId

structure Delivering (initial : FileServer) (s : FileTransfers) (log : List TransferEvent) :
    Prop where
  law : EventLog.Law (Delivers initial) log
  filed : s.files.db.Filed
  content : ∀ id data, s.files.readFile id = some data → contentOf initial log id = some data
  users : ∀ sid, s.users sid = userOf log sid
  streams : ∀ stream st, s.streams[stream]? = some st → StreamSound log stream st
  uploads : ∀ ev ∈ s.uploads ++ s.fileUploads, UploadSound log ev
  requests : ∀ req ∈ s.downloads ++ s.fileDownloads, RequestSound s.streams req

variable {s : FileTransfers} {stream : Nat} {st st' : FileStream}

theorem StreamSound.mono (h : StreamSound log stream st) (events : List TransferEvent) :
    StreamSound (log ++ events) stream st where
  opened := by
    obtain ⟨bytes, hopened, hreads⟩ := h.opened
    exact ⟨bytes, List.mem_append_left _ hopened, hreads⟩
  reply := fun left hleft => by
    obtain ⟨whole, hserved, hrest⟩ := h.reply left hleft
    exact ⟨whole, List.mem_append_left _ hserved, hrest⟩
  silent := h.silent

theorem UploadSound.mono {ev : FileUploadEvent} (h : UploadSound log ev)
    (events : List TransferEvent) : UploadSound (log ++ events) ev := by
  obtain ⟨stream, client, hopened⟩ := h
  exact ⟨stream, client, List.mem_append_left _ hopened⟩

/-- A stream changes, and keeps what the server has read of its header. -/
theorem RequestSound.set {req : FileDownloadRequest} (h : RequestSound s.streams req)
    (hst : s.streams[stream]? = some st)
    (hkeeps : ∀ sid id, st.server.Asks sid id →
      st'.server.Asks sid id) :
    RequestSound (s.streams.set stream st') req := by
  obtain ⟨old, hold, hasks⟩ := h
  by_cases hsame : stream = req.stream
  · subst hsame
    obtain rfl := Option.some_inj.mp (hst.symm.trans hold)
    have hlt := (List.getElem?_eq_some_iff.mp hst).1
    exact ⟨st', by rw [List.getElem?_set_self hlt], hkeeps _ _ hasks⟩
  · exact ⟨old, by rw [List.getElem?_set_ne hsame]; exact hold, hasks⟩

namespace Delivering

/-- An event that is neither about the users nor about the files. -/
theorem event (h : Delivering initial s log) {e : TransferEvent} (hlaw : Delivers initial log e)
    (hquiet : (∀ sid user, e ≠ .session sid user) ∧
      ∀ id sid author data failsAt, e ≠ .written id sid author data failsAt) :
    Delivering initial s (log ++ [e]) where
  law := EventLog.law_concat.mpr ⟨h.law, hlaw⟩
  filed := h.filed
  content := fun id data hread => by
    rw [contentOf_concat]
    cases e with
    | written id sid author data failsAt =>
      exact absurd rfl (hquiet.2 id sid author data failsAt)
    | _ => exact h.content id data hread
  users := fun sid => by
    rw [userOf_concat]
    cases e with
    | session sid user => exact absurd rfl (hquiet.1 sid user)
    | _ => exact h.users sid
  streams := fun stream st hst => (h.streams stream st hst).mono _
  uploads := fun ev hev => (h.uploads ev hev).mono _
  requests := h.requests

/-- A stream changes. -/
theorem set (h : Delivering initial s log) (hst : s.streams[stream]? = some st)
    (hsound : StreamSound log stream st')
    (hkeeps : ∀ sid id, st.server.Asks sid id →
      st'.server.Asks sid id) :
    Delivering initial (s.setStream stream st') log where
  law := h.law
  filed := h.filed
  content := h.content
  users := h.users
  streams := fun other found hfound => by
    by_cases hsame : stream = other
    · subst hsame
      have hlt := (List.getElem?_eq_some_iff.mp hst).1
      simp only [setStream, List.getElem?_set_self hlt, Option.some_inj] at hfound
      exact hfound ▸ hsound
    · simp only [setStream, List.getElem?_set_ne hsame] at hfound
      exact h.streams other found hfound
  uploads := h.uploads
  requests := fun req hreq => (h.requests req hreq).set hst hkeeps

/-- How a stream ends is no part of what it carries. -/
theorem setEnds (h : Delivering initial s log) (hst : s.streams[stream]? = some st)
    (inboundEnded outboundEnded aborted closed : Bool) : Delivering initial
      (s.setStream stream { st with inboundEnded, outboundEnded, aborted, closed }) log := by
  have hsound := h.streams stream st hst
  exact h.set hst ⟨hsound.opened, hsound.reply, hsound.silent⟩ fun _ _ hasks => hasks

theorem onStream (h : Delivering initial s log)
    {event : FileStream → FileTransfers × List TransferEvent}
    (hevent : ∀ st, s.streams[stream]? = some st →
      Delivering initial (event st).1 (log ++ (event st).2)) :
    Delivering initial (s.onStream stream event).1 (log ++ (s.onStream stream event).2) := by
  unfold FileTransfers.onStream
  split
  · simpa using h
  next st hst =>
    split
    · simpa using h
    · exact hevent st hst

theorem session (h : Delivering initial s log) (sid : SessionId) (user : Option UserId) :
    Delivering initial { s with users := Function.update s.users sid user }
      (log ++ [.session sid user]) where
  law := EventLog.law_concat.mpr ⟨h.law, trivial⟩
  filed := h.filed
  content := fun id data hread => by
    rw [contentOf_concat]
    exact h.content id data hread
  users := fun other => by
    rw [userOf_concat]
    by_cases hsame : sid = other
    · subst hsame
      simp
    · simp only [hsame, if_false, Function.update_of_ne (Ne.symm hsame)]
      exact h.users other
  streams := fun stream st hst => (h.streams stream st hst).mono _
  uploads := fun ev hev => (h.uploads ev hev).mono _
  requests := h.requests

theorem openStream (h : Delivering initial s log) (sid : SessionId) (id : BitVec 64)
    (isUpload : Bool) (bytes : Bytes) :
    Delivering initial (s.step (.openStream sid id isUpload bytes)).1
      (log ++ (s.step (.openStream sid id isUpload bytes)).2) := by
  have hlogged := h.event (e := .opened s.streams.length sid { attachmentId := id, isUpload } bytes)
    trivial ⟨nofun, nofun⟩
  refine ⟨hlogged.law, hlogged.filed, hlogged.content, hlogged.users, fun stream st hst => ?_,
    hlogged.uploads, fun req hreq => ?_⟩
  · simp only [step] at hst
    by_cases hlt : stream < s.streams.length
    · rw [List.getElem?_append_left hlt] at hst
      exact hlogged.streams stream st hst
    · rw [List.getElem?_append_right (by omega), List.getElem?_singleton] at hst
      split at hst
      next hzero =>
        obtain rfl : stream = s.streams.length := by omega
        obtain rfl := Option.some_inj.mp hst
        refine ⟨⟨bytes, List.mem_append_right _ (List.mem_singleton_self _), ?_⟩, nofun, fun _ => rfl⟩
        rw [FileStreamContext.Reads, if_neg (by simp)]
        exact ⟨by simp, rfl⟩
      · cases hst
  · obtain ⟨st, hst, hasks⟩ := hlogged.requests req hreq
    have hlt := (List.getElem?_eq_some_iff.mp hst).1
    exact ⟨st, by simpa only [step, List.getElem?_append_left hlt] using hst, hasks⟩

theorem receive (h : Delivering initial s log) (hst : s.streams[stream]? = some st) (count : Nat) :
    Delivering initial (s.setStream stream { st with
      server := st.server.receive (st.inbound.take count), inbound := st.inbound.drop count }) log := by
  have hsound := h.streams stream st hst
  refine h.set hst ⟨?_, fun left hleft => ?_, hsound.silent⟩ fun sid id hasks => hasks.receive _
  · obtain ⟨bytes, hopened, hreads⟩ := hsound.opened
    exact ⟨bytes, by rwa [FileStreamContext.receive_sessionId], hreads.receive count⟩
  · obtain ⟨whole, hserved, hwhole, hparsed, htype⟩ := hsound.reply left hleft
    refine ⟨whole, ?_⟩
    rw [FileStreamContext.receive_of_parsed hparsed]
    exact ⟨hserved, hwhole, hparsed, htype⟩

theorem peerSendShutdown (h : Delivering initial s log) (hst : s.streams[stream]? = some st)
    (hend : st.inbound = []) : Delivering initial
      ((s.setStream stream { st with inboundEnded := true }).onPeerSendShutdown stream st.server)
      log := by
  have hsound := h.streams stream st hst
  have hset : Delivering initial (s.setStream stream { st with inboundEnded := true }) log :=
    h.setEnds hst true st.outboundEnded st.aborted st.closed
  unfold onPeerSendShutdown
  split
  · exact hset
  next hparsed =>
    have hparsed' : st.server.headerParsed = true := by simpa using hparsed
    obtain ⟨bytes, hopened, hreads⟩ := hsound.opened
    rw [FileStreamContext.Reads, if_pos hparsed', hend, List.append_nil] at hreads
    split
    next htype =>
      refine ⟨hset.law, hset.filed, hset.content, hset.users, hset.streams, fun ev hev => ?_,
        hset.requests⟩
      rw [← List.append_assoc, List.mem_append, List.mem_singleton] at hev
      obtain hold | rfl := hev
      · exact hset.uploads ev hold
      · exact ⟨stream, _, by rwa [hreads, htype] at hopened⟩
    split
    next htype =>
      refine ⟨hset.law, hset.filed, hset.content, hset.users, hset.streams, hset.uploads,
        fun req hreq => ?_⟩
      rw [← List.append_assoc, List.mem_append, List.mem_singleton] at hreq
      obtain hold | rfl := hreq
      · exact hset.requests req hold
      · have hlt := (List.getElem?_eq_some_iff.mp hst).1
        refine ⟨{ st with inboundEnded := true }, ?_, hparsed', htype, rfl, rfl⟩
        exact List.getElem?_set_self hlt
    · exact hset

theorem clientReceive (h : Delivering initial s log) (hst : s.streams[stream]? = some st)
    (count : Nat) : Delivering initial (s.setStream stream { st with
      client := { st.client with
        recvData := st.client.recvData ++ (st.outbound.getD []).take count }
      outbound := st.outbound.map (List.drop count) }) log := by
  have hsound := h.streams stream st hst
  refine h.set hst ⟨hsound.opened, fun left hleft => ?_, fun hnone => ?_⟩ fun _ _ hasks => hasks
  · obtain ⟨before, hbefore, rfl⟩ := Option.map_eq_some_iff.mp hleft
    obtain ⟨whole, hserved, hwhole, hrest⟩ := hsound.reply before hbefore
    refine ⟨whole, hserved, ?_, hrest⟩
    rw [hbefore, Option.getD_some, List.append_assoc, List.take_append_drop]
    exact hwhole
  · have hbefore : st.outbound = none := Option.map_eq_none_iff.mp hnone
    simp [hbefore, hsound.silent hbefore]

/-- The client has all of a file. -/
theorem clientPeerSendShutdown (h : Delivering initial s log) (hst : s.streams[stream]? = some st)
    (hall : st.outbound = some []) :
    Delivering initial (s.setStream stream { st with outboundEnded := true })
      (log ++ if st.client.isUpload then []
        else [.downloaded stream st.client.attachmentId st.client.recvData]) := by
  have hsound := h.streams stream st hst
  have hset : Delivering initial (s.setStream stream { st with outboundEnded := true }) log :=
    h.setEnds hst st.inboundEnded true st.aborted st.closed
  split
  · simpa using hset
  next hdownload =>
    refine hset.event ?_ ⟨nofun, nofun⟩
    obtain ⟨bytes, hopened, hreads⟩ := hsound.opened
    obtain ⟨whole, hserved, hwhole, hparsed, htype⟩ := hsound.reply [] hall
    rw [List.append_nil] at hwhole
    rw [Bool.eq_false_of_not_eq_true hdownload] at hopened
    refine ⟨_, bytes, _, whole, hopened, hserved, hwhole, fun hasked => ?_⟩
    -- the header of the request is all there is
    rw [FileStreamContext.Reads, if_pos hparsed, hasked, downloadFile_eq] at hreads
    obtain ⟨_, hid⟩ := List.cons_eq_cons.mp hreads
    exact (writeU64_append_inj ((List.append_nil _).trans hid)).symm

theorem processUpload (h : Delivering initial s log) (openOk markOk : Bool)
    (failsAt : Option Nat) :
    Delivering initial (s.processUpload openOk markOk failsAt).1
      (log ++ (s.processUpload openOk markOk failsAt).2) := by
  unfold FileTransfers.processUpload
  split
  · simpa using h
  next ev rest huploads =>
    extract_lets upload
    have hsound := h.uploads ev (by simp [huploads])
    have hrest : ∀ ev ∈ rest ++ s.fileUploads, UploadSound log ev := by
      intro later hlater
      refine h.uploads later ?_
      rw [huploads]
      exact List.mem_cons_of_mem _ hlater
    have hfiled := FileServer.filed_processUpload h.filed s.maxFileSize upload
    cases hrow : s.files.uploadRow s.maxFileSize upload with
    | none =>
      rw [FileServer.processUpload_eq, hrow]
      simpa using ⟨h.law, h.filed, h.content, h.users, h.streams, hrest, h.requests⟩
    | some row =>
      obtain ⟨att, author⟩ := row
      obtain ⟨hsender, _⟩ := FileServer.uploadRow_eq_some hrow
      have hlaw : Delivers initial log (.written ev.attachmentId ev.sessionId author ev.data failsAt) :=
        ⟨(h.users ev.sessionId).symm.trans hsender, hsound⟩
      refine ⟨EventLog.law_concat.mpr ⟨h.law, hlaw⟩, hfiled, fun id data hread => ?_, fun sid => ?_,
        fun stream st hst => (h.streams stream st hst).mono _, fun later hlater => ?_, h.requests⟩
      · have hnow := FileServer.readFile_processUpload h.filed hrow hread
        rw [contentOf_concat]
        by_cases hsame : ev.attachmentId = id
        · rw [if_pos hsame] at hnow
          simp only [hsame, if_true, hnow, FileUpload.onDisk, upload]
        · rw [if_neg hsame] at hnow
          simp only [hsame, if_false]
          exact h.content id data hnow
      · rw [userOf_concat]
        exact h.users sid
      · exact (hrest later hlater).mono _

theorem processDownload (h : Delivering initial s log) {reused : Option Nat}
    (htime : s.InTime (.processDownload reused)) :
    Delivering initial (s.processDownload reused).1 (log ++ (s.processDownload reused).2) := by
  unfold FileTransfers.processDownload
  split
  · simpa using h
  next req rest hdownloads =>
    extract_lets t
    have hrest : Delivering initial t log := by
      refine ⟨h.law, h.filed, h.content, h.users, h.streams, h.uploads, fun later hlater => ?_⟩
      refine h.requests later ?_
      rw [hdownloads]
      exact List.mem_cons_of_mem _ hlater
    -- its own handle still
    have hown : t.streamOf req reused = some req.stream := by
      have hopen : t.isClosed req.stream = false := htime req (by simp [hdownloads])
      rw [streamOf, if_neg (by simpa using hopen)]
    rw [hown]
    split
    next user data stream huser hdata hstream =>
      obtain rfl := Option.some_inj.mp hstream
      obtain ⟨st, hst, hparsed, htype, hsession, hid⟩ := h.requests req (by simp [hdownloads])
      refine hrest.onStream fun st' hst' => ?_
      obtain rfl := Option.some_inj.mp (hst.symm.trans hst')
      split
      · simpa using hrest
      next hfirst =>
        have hnone : st.outbound = none := by simpa using hfirst
        have hsound := h.streams _ st hst
        obtain ⟨bytes, hopened, hreads⟩ := hsound.opened
        rw [FileStreamContext.Reads, if_pos hparsed, htype, hid] at hreads
        rw [hreads, hsession] at hopened
        have hlaw : Delivers initial log (.served req.stream req.attachmentId data) := by
          refine ⟨h.content _ _ hdata, _, _, _, ?_, hopened⟩
          rw [← h.users, show s.users req.sessionId = some user from huser]
          rfl
        have hlogged := hrest.event hlaw ⟨nofun, nofun⟩
        refine hlogged.set hst ⟨(hlogged.streams _ st hst).opened, fun left hleft => ?_, nofun⟩
          fun _ _ hasks => hasks
        obtain rfl := Option.some_inj.mp hleft
        refine ⟨data, ?_, by rw [hsound.silent hnone, List.nil_append], hparsed, htype⟩
        rw [hid]
        exact List.mem_append_right _ (List.mem_singleton_self _)
    · simpa using hrest

theorem step (h : Delivering initial s log) {op : TransferOp} (htime : s.InTime op) :
    Delivering initial (s.step op).1 (log ++ (s.step op).2) := by
  cases op with
  | session sid user => exact h.session sid user
  | openStream sid id isUpload bytes => exact h.openStream sid id isUpload bytes
  | receive stream count =>
    refine h.onStream fun st hst => ?_
    simpa using h.receive hst count
  | peerSendShutdown stream =>
    refine h.onStream fun st hst => ?_
    split
    next hend => simpa using h.peerSendShutdown hst hend.1
    · simpa using h
  | abort stream =>
    refine h.onStream fun st hst => ?_
    have haborted : Delivering initial (s.setStream stream { st with aborted := true }) log :=
      h.setEnds hst st.inboundEnded st.outboundEnded true st.closed
    simpa using haborted
  | shutdownComplete stream =>
    simp only [FileTransfers.step]
    split
    · simpa using h
    next st hst =>
      split
      · have hclosed : Delivering initial (s.setStream stream { st with closed := true }) log :=
          h.setEnds hst st.inboundEnded st.outboundEnded st.aborted true
        simpa using hclosed
      · simpa using h
  | clientReceive stream count =>
    refine h.onStream fun st hst => ?_
    simpa using h.clientReceive hst count
  | clientPeerSendShutdown stream =>
    refine h.onStream fun st hst => ?_
    split
    next hall => exact h.clientPeerSendShutdown hst hall.1
    · simpa using h
  | drainUploads =>
    simp only [FileTransfers.step]
    split
    next hidle =>
      have hdrained : Delivering initial { s with uploads := s.fileUploads, fileUploads := [] } log :=
        ⟨h.law, h.filed, h.content, h.users, h.streams,
          fun ev hev => h.uploads ev (by simpa [hidle.1] using hev), h.requests⟩
      simpa using hdrained
    · simpa using h
  | processUpload openOk markOk failsAt => exact h.processUpload openOk markOk failsAt
  | drainDownloads =>
    simp only [FileTransfers.step]
    split
    next hidle =>
      have hdrained :
          Delivering initial { s with downloads := s.fileDownloads, fileDownloads := [] } log :=
        ⟨h.law, h.filed, h.content, h.users, h.streams, h.uploads,
          fun req hreq => h.requests req (by simpa [hidle.2] using hreq)⟩
      simpa using hdrained
    · simpa using h
  | processDownload reused => exact h.processDownload htime
  | table op =>
    simp only [FileTransfers.step]
    split
    next hop =>
      obtain ⟨_, _, hop⟩ := hop
      have hstep : Delivering initial { s with files := s.files.step op } log :=
        ⟨h.law, FileServer.filed_step h.filed op,
          fun id data hread => h.content id data (FileServer.readFile_step h.filed hop hread), h.users,
          h.streams, h.uploads, h.requests⟩
      simpa using hstep
    · simpa using h

end Delivering

/-- The invariant of the transfers and their log. -/
def Delivered (initial : FileServer) (r : FileTransfers × List TransferEvent) : Prop :=
  Delivering initial r.1 r.2

/-- Three bytes go up and come back, in pieces, while another stream is given up. -/
def threeBytes : List TransferOp :=
  [.session 5 (some 1), .openStream 5 1 true (uploadFile 1 [7, 8, 9]), .receive 0 4, .receive 0 8,
    .peerSendShutdown 0, .drainUploads, .processUpload true true none,
    .openStream 5 1 false (downloadFile 1), .openStream 5 1 false (downloadFile 1), .receive 2 4,
    .receive 1 9, .abort 2, .shutdownComplete 2, .peerSendShutdown 1, .drainDownloads,
    .processDownload none, .clientReceive 1 2, .clientReceive 1 2, .clientPeerSendShutdown 1]

end FileTransfers

end Parties

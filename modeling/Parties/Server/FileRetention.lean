import Mathlib.Algebra.BigOperators.Group.List.Basic
import Mathlib.Algebra.Order.BigOperators.Group.List
import Parties.Lib.Machine
import Parties.Server.AttachmentPaths
import Parties.Server.StoredChat

/-!
# The files of the attachments

Mirror of the uploads in `Server::process_file_transfers` (`server/src/server.cpp`) and of
`Database::get_total_file_size` and `Database::purge_oldest_files`
(`server/src/database.cpp`). Retention in ring mode sums the sizes that were declared when
the messages were sent, while what is on the disk is what was uploaded later. So what it
removes is right as long as the two sums tell the same about the limit. A file that cannot
be removed ends the server by an exception and is left out. What else the system answers is part
of the operation: whether a file can be opened, how much of it is written, and whether the row
can be changed or removed. The server does not look at the second.
-/

namespace Parties

/-! ### Rows and files -/

structure StoredFile where
  path : Bytes
  data : Bytes
deriving DecidableEq, Repr

/-- The attachments in the database, and the files under the storage path. -/
structure FileServer where
  db : ChatDatabase
  disk : List StoredFile := []

namespace ChatDatabase

def getAttachment (db : ChatDatabase) (id : BitVec 64) : Option AttachmentRow :=
  db.fileAttachments.find? fun a => a.id = id

/-- `WHERE uploaded = 1 ORDER BY id ASC`. -/
def uploadedFiles (db : ChatDatabase) : List AttachmentRow :=
  (db.fileAttachments.filter fun a => a.uploaded).insertionSort fun a b => a.id.toInt ≤ b.id.toInt

/-- `SUM` of a column of integers; none if it leaves their 64 bits on the way. -/
def sumColumn (values : List Int) : Option Int :=
  values.foldlM (fun sum value =>
    if -2 ^ 63 ≤ sum + value ∧ sum + value < 2 ^ 63 then some (sum + value) else none) 0

/-- The declared sizes of the uploaded files; zero when the statement fails. -/
def getTotalFileSize (db : ChatDatabase) : Int :=
  (sumColumn (db.uploadedFiles.map fun a => a.fileSize.toInt)).getD 0

end ChatDatabase

/-- What is in a file once `data` has been written to it. The results of the write and of the close
are not looked at: a write that fails leaves the bytes in front of `failsAt`. -/
def bytesOnDisk (data : Bytes) : Option Nat → Bytes
  | none => data
  | some failsAt => data.take failsAt

/-- A completed upload. `sender` is the user of its session, if that is authenticated; the others
are whether the file can be opened, where its write fails and whether the row can be marked. -/
structure FileUpload where
  sender : Option UserId
  attachmentId : BitVec 64
  data : Bytes
  openOk : Bool := true
  failsAt : Option Nat := none
  markOk : Bool := true

def FileUpload.onDisk (ev : FileUpload) : Bytes := bytesOnDisk ev.data ev.failsAt

namespace FileServer

def writeFile (s : FileServer) (path data : Bytes) : FileServer :=
  { s with disk := { path, data } :: s.disk.filter fun f => f.path ≠ path }

def removeFile (s : FileServer) (path : Bytes) : FileServer :=
  { s with disk := s.disk.filter fun f => f.path ≠ path }

def deleteAttachment (s : FileServer) (id : BitVec 64) : FileServer :=
  { s with db := { s.db with
      fileAttachments := s.db.fileAttachments.filter fun a => a.id ≠ id } }

/-- `process_file_transfers`, one upload. Only the author of the message may supply the
bytes of its attachments. -/
def processUpload (s : FileServer) (maxFileSize : Int) (ev : FileUpload) : FileServer :=
  match ev.sender, s.db.getAttachment ev.attachmentId with
  | some user, some att =>
    if att.uploaded then s
    else match s.db.getMessage att.messageId with
      | none => s
      | some owner =>
        if owner.senderId ≠ user then s
        else if maxFileSize < ev.data.length then s
        else if !ev.openOk then s
        else
          let s := s.writeFile att.diskPath ev.onDisk
          if ev.markOk then { s with db := s.db.markAttachmentUploaded ev.attachmentId } else s
  | _, _ => s

/-- The loop of `purge_oldest_files`. `i` is the count so far, `total` the running total in
64 bits. -/
def purgeLoop (limit : Int) (deleteOk : Nat → Bool) :
    Nat → List AttachmentRow → BitVec 64 → FileServer → Nat × FileServer
  | i, [], _, s => (i, s)
  | i, row :: rest, total, s =>
    if limit < total.toInt then
      let s := s.removeFile row.diskPath
      let s := if deleteOk i then s.deleteAttachment row.id else s
      purgeLoop limit deleteOk (i + 1) rest (total - row.fileSize) s
    else (i, s)

/-- The number of files removed, and what is left. -/
def purgeOldestFiles (s : FileServer) (limit : Int) (deleteOk : Nat → Bool) : Nat × FileServer :=
  if s.db.getTotalFileSize ≤ limit then (0, s)
  else purgeLoop limit deleteOk 0 s.db.uploadedFiles (BitVec.ofInt 64 s.db.getTotalFileSize) s

/-! ### What retention is for -/

def storedBytes (disk : List StoredFile) : Int := (disk.map fun f => f.data.length).sum

/-- The files without those of the `k` oldest uploaded attachments. -/
def withoutOldest (s : FileServer) (k : Nat) : List StoredFile :=
  s.disk.filter fun f => f.path ∉ (s.db.uploadedFiles.take k).map AttachmentRow.diskPath

-- row ids are compared by their bits
local instance : LawfulBEq (BitVec 64) := inferInstance

/-- The rows without those of the `k` oldest uploaded attachments. -/
def rowsWithoutOldest (s : FileServer) (k : Nat) : List AttachmentRow :=
  s.db.fileAttachments.filter fun a => a.id ∉ (s.db.uploadedFiles.take k).map AttachmentRow.id

/-- The oldest uploaded attachments are removed, as many as it takes. -/
structure Retains (limit : Int) (s : FileServer) (outcome : Nat × FileServer) : Prop where
  files : outcome.2.disk = s.withoutOldest outcome.1
  rows : outcome.2.db = { s.db with fileAttachments := s.rowsWithoutOldest outcome.1 }
  /-- The files of the others are still there. -/
  newer : ∀ row ∈ s.db.uploadedFiles.drop outcome.1, ∀ f ∈ s.disk, f.path = row.diskPath →
    f ∈ outcome.2.disk
  enough : storedBytes outcome.2.disk ≤ limit ∨ s.db.uploadedFiles.length ≤ outcome.1
  needed : outcome.1 = 0 ∨ limit < storedBytes (s.withoutOldest (outcome.1 - 1))

/-- The declared total without the sizes declared for the `k` oldest, in 64 bits. -/
def declaredLeft (s : FileServer) (k : Nat) : BitVec 64 :=
  BitVec.ofInt 64 s.db.getTotalFileSize -
    ((s.db.uploadedFiles.take k).map AttachmentRow.fileSize).sum

/-- As far as the limit requires to go: the declared sizes tell the same about it as the
bytes on the disk, and the rows of the files to remove can be deleted. -/
def Agrees (limit : Int) (s : FileServer) (deleteOk : Nat → Bool) : Prop :=
  ∀ j < s.db.uploadedFiles.length, (∀ i < j, limit < storedBytes (s.withoutOldest i)) →
    (limit < (s.declaredLeft j).toInt ↔ limit < storedBytes (s.withoutOldest j)) ∧
    (limit < storedBytes (s.withoutOldest j) → deleteOk j = true)

/-! ### The loop -/

/-- The ids of the rows that are deleted, from number `i` on. -/
def deletedIds (deleteOk : Nat → Bool) : Nat → List AttachmentRow → List (BitVec 64)
  | _, [] => []
  | i, row :: rest =>
    if deleteOk i then row.id :: deletedIds deleteOk (i + 1) rest
    else deletedIds deleteOk (i + 1) rest

theorem mem_deletedIds {deleteOk : Nat → Bool} {i : Nat} {rows : List AttachmentRow}
    {id : BitVec 64} :
    id ∈ deletedIds deleteOk i rows ↔ ∃ j row, rows[j]? = some row ∧ deleteOk (i + j) = true ∧
      row.id = id := by
  induction rows generalizing i with
  | nil => simp [deletedIds]
  | cons row rest ih =>
      have htail : id ∈ deletedIds deleteOk (i + 1) rest ↔ ∃ j row', rest[j]? = some row' ∧
          deleteOk (i + (j + 1)) = true ∧ row'.id = id := by
        rw [ih]
        simp only [Nat.add_assoc, Nat.add_comm 1]
      rw [deletedIds]
      constructor
      · intro h
        split at h
        next hok =>
          rcases List.mem_cons.mp h with rfl | hrest
          · exact ⟨0, row, rfl, hok, rfl⟩
          · obtain ⟨j, row', hget, hok', hid⟩ := htail.mp hrest
            exact ⟨j + 1, row', hget, hok', hid⟩
        · obtain ⟨j, row', hget, hok', hid⟩ := htail.mp h
          exact ⟨j + 1, row', hget, hok', hid⟩
      · rintro ⟨j, row', hget, hok', hid⟩
        cases j with
        | zero =>
            obtain rfl : row = row' := by simpa using hget
            rw [if_pos (by simpa using hok'), hid]
            exact List.mem_cons_self
        | succ j =>
            have hrest := htail.mpr ⟨j, row', hget, hok', hid⟩
            split
            · exact List.mem_cons_of_mem _ hrest
            · exact hrest

/-- The loop removes the files in front as long as the running total exceeds the limit. -/
theorem purgeLoop_spec (limit : Int) (deleteOk : Nat → Bool) (i : Nat) (rows : List AttachmentRow)
    (total : BitVec 64) (s : FileServer) :
    ∃ k, k ≤ rows.length ∧ (purgeLoop limit deleteOk i rows total s).1 = i + k ∧
      (∀ j < k, limit < (total - ((rows.take j).map AttachmentRow.fileSize).sum).toInt) ∧
      (k < rows.length →
        (total - ((rows.take k).map AttachmentRow.fileSize).sum).toInt ≤ limit) ∧
      (purgeLoop limit deleteOk i rows total s).2 = {
        db := { s.db with fileAttachments := s.db.fileAttachments.filter fun a =>
          a.id ∉ deletedIds deleteOk i (rows.take k) }
        disk := s.disk.filter fun f => f.path ∉ (rows.take k).map AttachmentRow.diskPath } := by
  induction rows generalizing i total s with
  | nil =>
      refine ⟨0, le_rfl, rfl, by simp, by simp, ?_⟩
      simp [purgeLoop, deletedIds]
  | cons row rest ih =>
      rw [purgeLoop]
      split
      next hover =>
        obtain ⟨k, hk, hcount, hbefore, hafter, hleft⟩ := ih (i + 1) (total - row.fileSize)
          (if deleteOk i then (s.removeFile row.diskPath).deleteAttachment row.id
            else s.removeFile row.diskPath)
        have hsum : ∀ j, total - ((((row :: rest).take (j + 1)).map AttachmentRow.fileSize).sum) =
            total - row.fileSize - ((rest.take j).map AttachmentRow.fileSize).sum := by
          intro j
          rw [List.take_succ_cons, List.map_cons, List.sum_cons]
          exact sub_add_eq_sub_sub _ _ _
        refine ⟨k + 1, Nat.succ_le_succ hk, by rw [hcount]; omega, ?_, ?_, ?_⟩
        · intro j hj
          cases j with
          | zero => simpa using hover
          | succ j =>
              rw [hsum]
              exact hbefore j (by omega)
        · intro hlt
          rw [hsum]
          exact hafter (by simpa using hlt)
        · have hdisk : (s.removeFile row.diskPath).disk.filter
              (fun f => f.path ∉ (rest.take k).map AttachmentRow.diskPath) =
              s.disk.filter fun f =>
                f.path ∉ ((row :: rest).take (k + 1)).map AttachmentRow.diskPath := by
            rw [removeFile, List.filter_filter]
            refine List.filter_congr fun f _ => ?_
            simp [not_or, Bool.and_comm]
          rw [hleft, List.take_succ_cons, deletedIds]
          by_cases hok : deleteOk i = true
          · have hrows : (s.db.fileAttachments.filter fun a => a.id ≠ row.id).filter
                (fun a => a.id ∉ deletedIds deleteOk (i + 1) (rest.take k)) =
                s.db.fileAttachments.filter fun a =>
                  a.id ∉ row.id :: deletedIds deleteOk (i + 1) (rest.take k) := by
              rw [List.filter_filter]
              refine List.filter_congr fun a _ => ?_
              simp [not_or, Bool.and_comm]
            rw [if_pos hok, if_pos hok, ← List.take_succ_cons, ← hdisk, ← hrows]
            rfl
          · rw [if_neg hok, if_neg hok, ← List.take_succ_cons, ← hdisk]
            rfl
      next hfits =>
        refine ⟨0, Nat.zero_le _, rfl, by simp, ?_, ?_⟩
        · intro _
          simpa using hfits
        · simp [deletedIds]

theorem sumColumn_bounds {values : List Int} {sum : Int}
    (h : ChatDatabase.sumColumn values = some sum) : -2 ^ 63 ≤ sum ∧ sum < 2 ^ 63 := by
  have hfold : ∀ {values : List Int} {start sum : Int}, -2 ^ 63 ≤ start ∧ start < 2 ^ 63 →
      values.foldlM (fun sum value => if -2 ^ 63 ≤ sum + value ∧ sum + value < 2 ^ 63 then
        some (sum + value) else none) start = some sum → -2 ^ 63 ≤ sum ∧ sum < 2 ^ 63 := by
    intro values
    induction values with
    | nil =>
        intro start sum hstart heq
        obtain rfl : start = sum := by simpa using heq
        exact hstart
    | cons value rest ih =>
        intro start sum hstart heq
        rw [List.foldlM_cons] at heq
        split at heq
        next hnext =>
          exact ih hnext heq
        · cases heq
  exact hfold (by decide) h

/-- The total is a number of 64 bits. -/
theorem toInt_total (db : ChatDatabase) :
    (BitVec.ofInt 64 db.getTotalFileSize).toInt = db.getTotalFileSize := by
  have hbounds : -2 ^ 63 ≤ db.getTotalFileSize ∧ db.getTotalFileSize < 2 ^ 63 := by
    rw [ChatDatabase.getTotalFileSize]
    cases hsum : ChatDatabase.sumColumn (db.uploadedFiles.map fun a => a.fileSize.toInt) with
    | none => decide
    | some sum => exact sumColumn_bounds hsum
  exact BitVec.toInt_ofInt_eq_self (by decide) hbounds.1 hbounds.2

/-- What a purge does: it stops at the first number of files for which the declared sizes of
the others fit. -/
theorem purgeOldestFiles_spec (s : FileServer) (limit : Int) (deleteOk : Nat → Bool) :
    ∃ k, k ≤ s.db.uploadedFiles.length ∧
      (∀ j < k, limit < (s.declaredLeft j).toInt) ∧
      (k < s.db.uploadedFiles.length → (s.declaredLeft k).toInt ≤ limit) ∧
      s.purgeOldestFiles limit deleteOk = (k, {
        db := { s.db with fileAttachments := s.db.fileAttachments.filter fun a =>
          a.id ∉ deletedIds deleteOk 0 (s.db.uploadedFiles.take k) }
        disk := s.withoutOldest k }) := by
  rw [purgeOldestFiles]
  split
  next hfits =>
    refine ⟨0, Nat.zero_le _, by simp, ?_, ?_⟩
    · intro _
      rw [declaredLeft, List.take_zero, List.map_nil, List.sum_nil, sub_zero, toInt_total]
      exact hfits
    · simp [deletedIds, withoutOldest]
  · obtain ⟨k, hk, hcount, hbefore, hafter, hleft⟩ := purgeLoop_spec limit deleteOk 0
      s.db.uploadedFiles (BitVec.ofInt 64 s.db.getTotalFileSize) s
    rw [Nat.zero_add] at hcount
    exact ⟨k, hk, hbefore, hafter, Prod.ext hcount hleft⟩

/-! ### The bytes on the disk -/

theorem storedBytes_filter_le {disk : List StoredFile} {p q : StoredFile → Bool}
    (h : ∀ f ∈ disk, p f = true → q f = true) :
    storedBytes (disk.filter p) ≤ storedBytes (disk.filter q) := by
  induction disk with
  | nil => exact le_rfl
  | cons f rest ih =>
      have hrest := ih fun g hg => h g (List.mem_cons_of_mem _ hg)
      have hf := h f List.mem_cons_self
      simp only [storedBytes, List.filter_cons] at hrest ⊢
      split
      next hp =>
        rw [if_pos (hf hp), List.map_cons, List.map_cons, List.sum_cons, List.sum_cons]
        omega
      · split
        · rw [List.map_cons, List.sum_cons]
          omega
        · exact hrest

/-- Removing more files leaves fewer bytes. -/
theorem storedBytes_withoutOldest_anti (s : FileServer) {j k : Nat} (h : j ≤ k) :
    storedBytes (s.withoutOldest k) ≤ storedBytes (s.withoutOldest j) := by
  apply storedBytes_filter_le
  intro f _ hkept
  rw [decide_eq_true_eq] at hkept ⊢
  intro hmem
  obtain ⟨row, hrow, hpath⟩ := List.mem_map.mp hmem
  exact hkept (List.mem_map.mpr ⟨row, (List.take_sublist_take_left h).subset hrow, hpath⟩)

end FileServer

/-! ### The table of attachments -/

namespace ChatDatabase

/-- The rows stand in the order of their ids, and each is stored under a path of its own. -/
structure Filed (db : ChatDatabase) : Prop where
  ascending : db.fileAttachments.Pairwise fun a b => a.id.toInt < b.id.toInt
  given : ∀ a ∈ db.fileAttachments, a.id.toInt ≤ db.lastAttachmentId
  used : ∀ a ∈ db.fileAttachments, a.messageId.toInt ≤ db.lastMessageId
  named : ∀ a ∈ db.fileAttachments, ∃ month i name, IsMonth month ∧
    a.diskPath = ChatServer.diskPath month a.messageId i name
  apart : db.fileAttachments.Pairwise fun a b => a.diskPath ≠ b.diskPath

variable {db : ChatDatabase}

theorem Filed.uploadedFiles_eq (h : db.Filed) :
    db.uploadedFiles = db.fileAttachments.filter fun a => a.uploaded :=
  List.Pairwise.insertionSort_eq ((h.ascending.filter _).imp fun hlt => le_of_lt hlt)

theorem Filed.uploadedFiles_subset (h : db.Filed) {a : AttachmentRow}
    (ha : a ∈ db.uploadedFiles) : a ∈ db.fileAttachments := by
  rw [h.uploadedFiles_eq] at ha
  exact List.mem_of_mem_filter ha

theorem Filed.uploadedFiles_ascending (h : db.Filed) :
    db.uploadedFiles.Pairwise fun a b => a.id.toInt < b.id.toInt := by
  rw [h.uploadedFiles_eq]
  exact h.ascending.filter _

theorem Filed.uploadedFiles_apart (h : db.Filed) :
    db.uploadedFiles.Pairwise fun a b => a.diskPath ≠ b.diskPath := by
  rw [h.uploadedFiles_eq]
  exact h.apart.filter _

/-- The uploaded rows are told apart by their ids. -/
theorem Filed.index_eq (h : db.Filed) {i j : Nat} {a b : AttachmentRow}
    (hi : db.uploadedFiles[i]? = some a) (hj : db.uploadedFiles[j]? = some b)
    (hid : a.id = b.id) : i = j := by
  obtain ⟨hilt, rfl⟩ := List.getElem?_eq_some_iff.mp hi
  obtain ⟨hjlt, rfl⟩ := List.getElem?_eq_some_iff.mp hj
  have hpair := List.pairwise_iff_getElem.mp h.uploadedFiles_ascending
  rcases Nat.lt_trichotomy i j with hlt | heq | hgt
  · have hless := hpair i j hilt hjlt hlt
    rw [hid] at hless
    omega
  · exact heq
  · have hless := hpair j i hjlt hilt hgt
    rw [hid] at hless
    omega

/-- Neither the messages nor the channels matter, and row ids are only given out. -/
theorem Filed.of_rows {db' : ChatDatabase} (h : db.Filed)
    (hrows : db'.fileAttachments = db.fileAttachments)
    (hattachment : db.lastAttachmentId ≤ db'.lastAttachmentId)
    (hmessage : db.lastMessageId ≤ db'.lastMessageId) : db'.Filed where
  ascending := by
    rw [hrows]
    exact h.ascending
  given := by
    intro a ha
    have hgiven := h.given a (hrows ▸ ha)
    omega
  used := by
    intro a ha
    have hused := h.used a (hrows ▸ ha)
    omega
  named := fun a ha => h.named a (hrows ▸ ha)
  apart := by
    rw [hrows]
    exact h.apart

/-- Fewer attachments. -/
theorem Filed.filterAttachments (h : db.Filed) (keeps : AttachmentRow → Bool) :
    Filed { db with fileAttachments := db.fileAttachments.filter keeps } where
  ascending := h.ascending.filter _
  given := fun a ha => h.given a (List.mem_of_mem_filter ha)
  used := fun a ha => h.used a (List.mem_of_mem_filter ha)
  named := fun a ha => h.named a (List.mem_of_mem_filter ha)
  apart := h.apart.filter _

theorem Filed.deleteTextChannel (h : db.Filed) (id : BitVec 32) :
    (db.deleteTextChannel id).Filed :=
  (h.filterAttachments _).of_rows rfl le_rfl le_rfl

theorem Filed.markAttachmentUploaded (h : db.Filed) (id : BitVec 64) :
    (db.markAttachmentUploaded id).Filed := by
  have hkeeps : ∀ a : AttachmentRow, ∀ b, b = (if a.id = id then { a with uploaded := true }
      else a) → b.id = a.id ∧ b.messageId = a.messageId ∧ b.diskPath = a.diskPath := by
    rintro a b rfl
    split <;> exact ⟨rfl, rfl, rfl⟩
  constructor
  · refine List.pairwise_map.mpr (h.ascending.imp fun {a b} hlt => ?_)
    rw [(hkeeps a _ rfl).1, (hkeeps b _ rfl).1]
    exact hlt
  · intro b hb
    obtain ⟨a, ha, heq⟩ := List.mem_map.mp hb
    rw [(hkeeps a b heq.symm).1]
    exact h.given a ha
  · intro b hb
    obtain ⟨a, ha, heq⟩ := List.mem_map.mp hb
    rw [(hkeeps a b heq.symm).2.1]
    exact h.used a ha
  · intro b hb
    obtain ⟨a, ha, heq⟩ := List.mem_map.mp hb
    obtain ⟨_, hmessage, hpath⟩ := hkeeps a b heq.symm
    rw [hmessage, hpath]
    exact h.named a ha
  · refine List.pairwise_map.mpr (h.apart.imp fun {a b} hne => ?_)
    rw [(hkeeps a _ rfl).2.2, (hkeeps b _ rfl).2.2]
    exact hne

/-- The attachments of a message that have rows already have smaller numbers. -/
def Numbered (db : ChatDatabase) (messageId : BitVec 64) (i : Nat) : Prop :=
  ∀ a ∈ db.fileAttachments, a.messageId = messageId → ∃ month j name, IsMonth month ∧ j < i ∧
    a.diskPath = ChatServer.diskPath month messageId j name

/-- One row more, under a path that no other has. -/
theorem Filed.insertAttachment (h : db.Filed) {messageId : BitVec 64} {month : Bytes} {i : Nat}
    (hmonth : IsMonth month) (hused : messageId.toInt ≤ db.lastMessageId)
    (hnumbered : db.Numbered messageId i) (fileName : Bytes) (fileSize : BitVec 64)
    (mimeType : Bytes) (ok : Bool) :
    let db' := (db.insertAttachment messageId fileName fileSize mimeType
      (ChatServer.diskPath month messageId i fileName) ok).2
    db'.Filed ∧ db'.lastMessageId = db.lastMessageId ∧ db'.Numbered messageId (i + 1) := by
  rw [ChatDatabase.insertAttachment]
  split
  · refine ⟨h, rfl, ?_⟩
    intro a ha heq
    obtain ⟨month', j, name, hmonth', hj, hpath⟩ := hnumbered a ha heq
    exact ⟨month', j, name, hmonth', by omega, hpath⟩
  next hroom =>
    rw [Bool.or_eq_true, decide_eq_true_eq, not_or, not_le] at hroom
    have hid : (BitVec.ofNat 64 (db.lastAttachmentId + 1)).toInt = (db.lastAttachmentId + 1 : Nat) :=
      toInt_rowId hroom.2
    dsimp only
    rw [ChatServer.bindText_diskPath hmonth]
    refine ⟨⟨?_, ?_, ?_, ?_, ?_⟩, rfl, ?_⟩
    · refine List.pairwise_append.mpr ⟨h.ascending, List.pairwise_singleton _ _, ?_⟩
      intro a ha b hb
      rw [List.mem_singleton.mp hb, hid]
      have hgiven := h.given a ha
      push_cast
      omega
    · intro a ha
      rcases List.mem_append.mp ha with hold | hnew
      · have hgiven := h.given a hold
        push_cast
        omega
      · rw [List.mem_singleton.mp hnew, hid]
    · intro a ha
      rcases List.mem_append.mp ha with hold | hnew
      · exact h.used a hold
      · rw [List.mem_singleton.mp hnew]
        exact hused
    · intro a ha
      rcases List.mem_append.mp ha with hold | hnew
      · exact h.named a hold
      · rw [List.mem_singleton.mp hnew]
        exact ⟨month, i, fileName, hmonth, rfl⟩
    · refine List.pairwise_append.mpr ⟨h.apart, List.pairwise_singleton _ _, ?_⟩
      intro a ha b hb heq
      rw [List.mem_singleton.mp hb] at heq
      change a.diskPath = ChatServer.diskPath month messageId i fileName at heq
      by_cases hmessage : a.messageId = messageId
      · obtain ⟨month', j, name, hmonth', hj, hpath⟩ := hnumbered a ha hmessage
        have hindex := (ChatServer.diskPath_inj hmonth' hmonth (hpath.symm.trans heq)).2
        omega
      · obtain ⟨month', j, name, hmonth', hpath⟩ := h.named a ha
        exact hmessage (ChatServer.diskPath_inj hmonth' hmonth (hpath.symm.trans heq)).1
    · intro a ha heq
      rcases List.mem_append.mp ha with hold | hnew
      · obtain ⟨month', j, name, hmonth', hj, hpath⟩ := hnumbered a hold heq
        exact ⟨month', j, name, hmonth', by omega, hpath⟩
      · rw [List.mem_singleton.mp hnew]
        exact ⟨month, i, fileName, hmonth, by omega, rfl⟩

theorem Filed.storeAttachments (h : db.Filed) {messageId : BitVec 64} {month : Bytes} {i : Nat}
    (hmonth : IsMonth month) (hused : messageId.toInt ≤ db.lastMessageId)
    (hnumbered : db.Numbered messageId i) (ok : Nat → Bool)
    (attachments : List ChatServer.PendingAttachment) :
    (ChatServer.storeAttachments messageId month ok i attachments db).2.Filed := by
  induction attachments generalizing i db with
  | nil => exact h
  | cons a rest ih =>
      obtain ⟨hfiled, hlast, hnext⟩ := h.insertAttachment hmonth hused hnumbered a.name a.size
        a.mime (ok i)
      rw [ChatServer.storeAttachments_cons]
      exact ih hfiled (hlast.symm ▸ hused) hnext

end ChatDatabase

/-- The clock gives a month. -/
def ChatRequest.Dated : ChatRequest → Prop
  | .chatSend _ _ month _ _ => IsMonth month
  | _ => True

/-- What one request preserves. -/
theorem filed_handle {c : ChatServer} (h : c.db.Filed) (sid : SessionId) {request : ChatRequest}
    (hdated : request.Dated) : (c.handle sid request).1.Filed := by
  have hhandles := c.handle_handles sid request
  generalize c.handle sid request = outcome at hhandles ⊢
  cases hhandles with
  | ignored | refused | history | pinnedList | searched | channels | users => exact h
  | stored hin hauth hparse hinsert =>
      obtain ⟨hroom, hid, hdb⟩ := ChatDatabase.insertMessage_eq hinsert
      have hidInt := ChatDatabase.toInt_rowId hroom
      rw [← hid] at hidInt
      subst hdb
      refine ChatDatabase.Filed.storeAttachments ?_ hdated (le_of_eq hidInt) ?_ _ _
      · exact h.of_rows rfl le_rfl (Nat.le_succ _)
      · -- the id is new, so no row has it
        intro a ha heq
        have hold := h.used a ha
        rw [heq, hidInt] at hold
        push_cast at hold
        omega
  | @pinned _ dbOk | @unpinned _ dbOk | @deleted _ dbOk =>
      cases dbOk with
      | false => exact h
      | true => exact h.of_rows rfl le_rfl le_rfl

namespace FileServer

open ChatDatabase

variable {s : FileServer} {limit : Int} {deleteOk : Nat → Bool} {k : Nat}

/-- The rows of the removed files are gone exactly when their statements succeed. -/
theorem rows_removed_iff (h : s.db.Filed) (hk : k ≤ s.db.uploadedFiles.length) :
    (s.db.fileAttachments.filter fun a =>
        a.id ∉ deletedIds deleteOk 0 (s.db.uploadedFiles.take k)) = s.rowsWithoutOldest k ↔
      ∀ j < k, deleteOk j = true := by
  constructor
  · intro heq j hj
    by_contra hfails
    have hlt : j < s.db.uploadedFiles.length := by omega
    have hget := List.getElem?_eq_getElem hlt
    have htake : (s.db.uploadedFiles.take k)[j]? = some s.db.uploadedFiles[j] := by
      rw [List.getElem?_take_of_lt hj, hget]
    have hmem := h.uploadedFiles_subset (List.getElem_mem hlt)
    have hkept : s.db.uploadedFiles[j] ∈ s.db.fileAttachments.filter fun a =>
        a.id ∉ deletedIds deleteOk 0 (s.db.uploadedFiles.take k) := by
      refine List.mem_filter.mpr ⟨hmem, decide_eq_true ?_⟩
      intro hdeleted
      obtain ⟨j', row, hget', hok, hid⟩ := mem_deletedIds.mp hdeleted
      have hget'' : s.db.uploadedFiles[j']? = some row := by
        rw [List.getElem?_take] at hget'
        split at hget'
        · exact hget'
        · cases hget'
      obtain rfl := h.index_eq hget'' hget hid
      rw [Nat.zero_add] at hok
      exact hfails hok
    rw [heq] at hkept
    have hgone := of_decide_eq_true (List.mem_filter.mp hkept).2
    exact hgone (List.mem_map_of_mem (List.mem_of_getElem? htake))
  · intro hall
    refine List.filter_congr fun a _ => ?_
    have hsame : a.id ∈ deletedIds deleteOk 0 (s.db.uploadedFiles.take k) ↔
        a.id ∈ (s.db.uploadedFiles.take k).map AttachmentRow.id := by
      rw [mem_deletedIds, List.mem_map]
      constructor
      · rintro ⟨j, row, hget, _, hid⟩
        exact ⟨row, List.mem_of_getElem? hget, hid⟩
      · rintro ⟨row, hrow, hid⟩
        obtain ⟨j, hget⟩ := List.mem_iff_getElem?.mp hrow
        have hj : j < k := by
          have hlt := (List.getElem?_eq_some_iff.mp hget).1
          rw [List.length_take] at hlt
          omega
        exact ⟨j, row, hget, by rw [Nat.zero_add]; exact hall j hj, hid⟩
    simp only [hsame]

/-- The files of the newer attachments are not among those removed. -/
theorem newer_kept (h : s.db.Filed) {row : AttachmentRow}
    (hrow : row ∈ s.db.uploadedFiles.drop k) {f : StoredFile} (hf : f ∈ s.disk)
    (hpath : f.path = row.diskPath) : f ∈ s.withoutOldest k := by
  refine List.mem_filter.mpr ⟨hf, decide_eq_true ?_⟩
  intro hmem
  obtain ⟨old, hold, heq⟩ := List.mem_map.mp hmem
  have hpair := h.uploadedFiles_apart
  rw [← List.take_append_drop k s.db.uploadedFiles] at hpair
  exact (List.pairwise_append.mp hpair).2.2 old hold row hrow (heq.trans hpath)

/-- A purge removes the oldest files, as many as it takes, exactly when the declared sizes
agree with the stored ones about the limit. -/
theorem retains_iff (h : s.db.Filed) :
    Retains limit s (s.purgeOldestFiles limit deleteOk) ↔ Agrees limit s deleteOk := by
  obtain ⟨k, hk, hbefore, hafter, hpurge⟩ := s.purgeOldestFiles_spec limit deleteOk
  rw [hpurge]
  constructor
  · intro hret
    have hdeleted : ∀ j < k, deleteOk j = true :=
      (rows_removed_iff h hk).mp (congrArg ChatDatabase.fileAttachments hret.rows)
    have hover : ∀ i < k, limit < storedBytes (s.withoutOldest i) := by
      intro i hi
      rcases hret.needed with hzero | hlast
      · change k = 0 at hzero
        omega
      · exact lt_of_lt_of_le hlast (s.storedBytes_withoutOldest_anti (by show i ≤ k - 1; omega))
    intro j hj hstored
    rcases Nat.lt_trichotomy j k with hlt | rfl | hgt
    · exact ⟨iff_of_true (hbefore j hlt) (hover j hlt), fun _ => hdeleted j hlt⟩
    · -- the purge stops here, and it may
      have hstop : ¬ limit < storedBytes (s.withoutOldest j) := by
        rcases hret.enough with hfits | hall
        · exact not_lt.mpr hfits
        · change s.db.uploadedFiles.length ≤ j at hall
          omega
      exact ⟨iff_of_false (not_lt.mpr (hafter hj)) hstop, fun hlimit => absurd hlimit hstop⟩
    · have hstop := hstored k hgt
      rcases hret.enough with hfits | hall
      · exact absurd hstop (not_lt.mpr hfits)
      · change s.db.uploadedFiles.length ≤ k at hall
        omega
  · intro hagrees
    have hover : ∀ i < k, limit < storedBytes (s.withoutOldest i) := by
      intro i
      induction i using Nat.strongRecOn with
      | ind i ih =>
          intro hi
          have hearlier : ∀ j < i, limit < storedBytes (s.withoutOldest j) :=
            fun j hj => ih j hj (by omega)
          exact (hagrees i (by omega) hearlier).1.mp (hbefore i hi)
    refine ⟨rfl, ?_, fun row hrow f hf hpath => newer_kept h hrow hf hpath, ?_, ?_⟩
    · have hdeleted : ∀ j < k, deleteOk j = true := fun j hj =>
        (hagrees j (by omega) fun i hi => hover i (by omega)).2 (hover j hj)
      have hrows := (rows_removed_iff h hk).mpr hdeleted
      dsimp only
      rw [hrows]
    · rcases Nat.lt_or_ge k s.db.uploadedFiles.length with hlt | hge
      · left
        have hstop := (hagrees k hlt hover).1
        exact not_lt.mp fun hlimit => absurd (hstop.mpr hlimit) (not_lt.mpr (hafter hlt))
      · exact Or.inr hge
    · rcases Nat.eq_zero_or_pos k with rfl | hpos
      · exact Or.inl rfl
      · exact Or.inr (hover (k - 1) (by omega))

/-! ### Honest senders -/

/-- The files on the disk are those of the uploaded attachments, each of its declared size,
and their bytes can be counted. -/
structure Honest (s : FileServer) : Prop where
  files : (s.disk.map fun f => (f.path, (f.data.length : Int))).Perm
    (s.db.uploadedFiles.map fun a => (a.diskPath, a.fileSize.toInt))
  counted : storedBytes s.disk < 2 ^ 63

theorem sumColumn_eq {values : List Int} (hsizes : ∀ v ∈ values, 0 ≤ v) (hsum : values.sum < 2 ^ 63) :
    sumColumn values = some values.sum := by
  have hfold : ∀ {values : List Int} {start : Int}, 0 ≤ start → (∀ v ∈ values, 0 ≤ v) →
      start + values.sum < 2 ^ 63 → values.foldlM (fun sum value =>
        if -2 ^ 63 ≤ sum + value ∧ sum + value < 2 ^ 63 then some (sum + value) else none) start =
        some (start + values.sum) := by
    intro values
    induction values with
    | nil =>
        intro start _ _ _
        simp
    | cons value rest ih =>
        intro start hstart hsizes hsum
        have hvalue := hsizes value List.mem_cons_self
        have hrest := List.sum_nonneg fun v hv => hsizes v (List.mem_cons_of_mem _ hv)
        rw [List.sum_cons] at hsum ⊢
        rw [List.foldlM_cons, if_pos ⟨by omega, by omega⟩, Option.bind_eq_bind, Option.bind_some,
          ih (by omega) (fun v hv => hsizes v (List.mem_cons_of_mem _ hv)) (by omega), add_assoc]
  have heq := hfold le_rfl hsizes (by rwa [zero_add])
  rwa [zero_add] at heq

theorem sum_fileSize (rows : List AttachmentRow) :
    (rows.map AttachmentRow.fileSize).sum =
      BitVec.ofInt 64 (rows.map fun a => a.fileSize.toInt).sum := by
  induction rows with
  | nil => rfl
  | cons row rest ih =>
      rw [List.map_cons, List.map_cons, List.sum_cons, List.sum_cons, ih, BitVec.ofInt_add,
        BitVec.ofInt_toInt]

/-- The bytes left by removing the oldest files, from the declared sizes. -/
theorem Honest.storedBytes_eq (hh : Honest s) (h : s.db.Filed) (j : Nat) :
    storedBytes (s.withoutOldest j) =
      ((s.db.uploadedFiles.drop j).map fun a => a.fileSize.toInt).sum := by
  let removed := (s.db.uploadedFiles.take j).map AttachmentRow.diskPath
  have hpairs := (hh.files.filter fun x => decide (x.1 ∉ removed)).map Prod.snd
  have hdisk : (((s.disk.map fun f => (f.path, (f.data.length : Int))).filter
      fun x => decide (x.1 ∉ removed)).map Prod.snd).sum = storedBytes (s.withoutOldest j) := by
    rw [List.filter_map, List.map_map]
    rfl
  have hdropped : s.db.uploadedFiles.filter (fun a => decide (a.diskPath ∉ removed)) =
      s.db.uploadedFiles.drop j := by
    have hpair := h.uploadedFiles_apart
    rw [← List.take_append_drop j s.db.uploadedFiles] at hpair
    obtain ⟨_, _, hcross⟩ := List.pairwise_append.mp hpair
    nth_rewrite 1 [← List.take_append_drop j s.db.uploadedFiles]
    rw [List.filter_append, List.filter_eq_nil_iff.mpr, List.filter_eq_self.mpr, List.nil_append]
    · intro row hrow
      refine decide_eq_true fun hmem => ?_
      obtain ⟨old, hold, heq⟩ := List.mem_map.mp hmem
      exact hcross old hold row hrow heq
    · intro row hrow hkept
      exact of_decide_eq_true hkept (List.mem_map_of_mem hrow)
  rw [← hdisk, hpairs.sum_eq, List.filter_map, List.map_map, ← hdropped]
  rfl

/-- Where the files have the sizes that their senders declared, every purge does what it
must. -/
theorem agrees_of_honest (hh : Honest s) (h : s.db.Filed) (limit : Int) :
    Agrees limit s fun _ => true := by
  let size : AttachmentRow → Int := fun a => a.fileSize.toInt
  have hsizes : ∀ v ∈ s.db.uploadedFiles.map size, 0 ≤ v := by
    intro v hv
    obtain ⟨row, hrow, rfl⟩ := List.mem_map.mp hv
    have hmem := hh.files.symm.subset (List.mem_map_of_mem hrow)
    obtain ⟨f, _, heq⟩ := List.mem_map.mp hmem
    have hlen := (Prod.mk.inj heq).2
    show 0 ≤ row.fileSize.toInt
    omega
  have hall := hh.storedBytes_eq h 0
  have hstored : storedBytes (s.withoutOldest 0) = storedBytes s.disk := by
    simp [withoutOldest]
  rw [hstored, List.drop_zero] at hall
  have htotal : s.db.getTotalFileSize = (s.db.uploadedFiles.map size).sum := by
    rw [getTotalFileSize, sumColumn_eq hsizes (hall ▸ hh.counted), Option.getD_some]
  intro j hj _
  have hleft : (s.declaredLeft j).toInt = storedBytes (s.withoutOldest j) := by
    have hsplit : (s.db.uploadedFiles.map size).sum =
        ((s.db.uploadedFiles.take j).map size).sum +
          ((s.db.uploadedFiles.drop j).map size).sum := by
      rw [← List.sum_append, ← List.map_append, List.take_append_drop]
    have hrange := storedBytes_withoutOldest_anti s (Nat.zero_le j)
    have hnonneg : 0 ≤ storedBytes (s.withoutOldest j) := by
      refine List.sum_nonneg fun size hsize => ?_
      obtain ⟨f, _, rfl⟩ := List.mem_map.mp hsize
      exact Int.natCast_nonneg _
    rw [hstored] at hrange
    have hcounted := hh.counted
    rw [declaredLeft, sum_fileSize, htotal, hsplit, BitVec.ofInt_add, add_sub_cancel_left,
      ← hh.storedBytes_eq h]
    exact BitVec.toInt_ofInt_eq_self (by decide) (by omega) (by omega)
  exact ⟨by rw [hleft], fun _ => rfl⟩

/-! ### Every history of the files -/

/-- `Database::purge_old_files`. `isOld` is whether a row was created before the cutoff. -/
def purgeOldFiles (s : FileServer) (isOld deleteOk : AttachmentRow → Bool) : FileServer where
  db := s.db.purgeFiles fun a => isOld a && deleteOk a
  disk := s.disk.filter fun f =>
    f.path ∉ (s.db.fileAttachments.filter isOld).map AttachmentRow.diskPath

end FileServer

/-- What happens to the attachments and their files. A chat request comes with the sessions
and the configuration that it meets. -/
inductive FileOp where
  | request (c : ChatServer) (sid : SessionId) (request : { r : ChatRequest // r.Dated })
  | upload (maxFileSize : Int) (ev : FileUpload)
  | deleteTextChannel (id : BitVec 32)
  | purgeOldMessages (cutoff : Int)
  | purgeOldFiles (isOld deleteOk : AttachmentRow → Bool)
  | purgeOldestFiles (limit : Int) (deleteOk : Nat → Bool)

/-- A table of attachments as the server keeps it, and any files. -/
structure FileTable extends FileServer where
  filed : db.Filed

namespace FileServer

open ChatDatabase

variable {s : FileServer}

def step (s : FileServer) : FileOp → FileServer
  | .request c sid request => { s with db := (ChatServer.handle { c with db := s.db } sid request).1 }
  | .upload maxFileSize ev => s.processUpload maxFileSize ev
  | .deleteTextChannel id => { s with db := s.db.deleteTextChannel id }
  | .purgeOldMessages cutoff => { s with db := s.db.purgeOldMessages cutoff }
  | .purgeOldFiles isOld deleteOk => s.purgeOldFiles isOld deleteOk
  | .purgeOldestFiles limit deleteOk => (s.purgeOldestFiles limit deleteOk).2

theorem filed_processUpload (h : s.db.Filed) (maxFileSize : Int) (ev : FileUpload) :
    (s.processUpload maxFileSize ev).db.Filed := by
  fun_cases processUpload s maxFileSize ev
  case case6 => exact h.markAttachmentUploaded _
  all_goals exact h

theorem filed_step (h : s.db.Filed) (op : FileOp) : (s.step op).db.Filed := by
  cases op with
  | request c sid request =>
      exact filed_handle (c := { c with db := s.db }) h sid request.property
  | upload maxFileSize ev => exact filed_processUpload h maxFileSize ev
  | deleteTextChannel id => exact h.deleteTextChannel id
  | purgeOldMessages cutoff => exact h.of_rows rfl le_rfl le_rfl
  | purgeOldFiles isOld deleteOk => exact h.filterAttachments _
  | purgeOldestFiles limit deleteOk =>
      obtain ⟨k, _, _, _, hpurge⟩ := s.purgeOldestFiles_spec limit deleteOk
      rw [step, hpurge]
      exact h.filterAttachments _

/-- After any history of requests, uploads and purges, a purge for a limit removes the oldest
uploaded attachments and just as many as it takes, if and only if the declared sizes agree
with the stored bytes about the limit and the rows can be deleted. -/
theorem purge_retains_iff (table : FileTable) (ops : List FileOp) (limit : Int)
    (deleteOk : Nat → Bool) :
    let s := Machine.run step table.toFileServer ops
    Retains limit s (s.purgeOldestFiles limit deleteOk) ↔ Agrees limit s deleteOk := by
  have hpreserves : ∀ (s : FileServer) (op : FileOp), s.db.Filed → (s.step op).db.Filed :=
    fun _ op h => filed_step h op
  exact retains_iff (Machine.run_preserves hpreserves table.filed ops)

/-- One message with an attachment of one byte, as the sender says. -/
def oneByteDeclared : FileTable where
  db := {
    messages := [{ id := 1, channelId := 1, senderId := 1, senderName := [], text := [] }]
    fileAttachments := [{
      id := 1
      messageId := 1
      fileName := []
      fileSize := 1
      mimeType := []
      diskPath := ChatServer.diskPath ChatServer.november 1 0 [] }]
    lastMessageId := 1
    lastAttachmentId := 1 }
  filed := {
    ascending := List.pairwise_singleton _ _
    given := by decide
    used := by decide
    named := by
      intro a ha
      rw [List.mem_singleton.mp ha]
      exact ⟨ChatServer.november, 0, [], ChatServer.isMonth_november, rfl⟩
    apart := List.pairwise_singleton _ _ }

/-- The sender uploads three bytes. A purge for two bytes finds that one byte is stored and
removes nothing. -/
theorem not_purge_retains : ¬ ∀ (table : FileTable) (ops : List FileOp) (limit : Int)
    (deleteOk : Nat → Bool), Retains limit (Machine.run step table.toFileServer ops)
      ((Machine.run step table.toFileServer ops).purgeOldestFiles limit deleteOk) := by
  intro hall
  have hret := hall oneByteDeclared
    [.upload 100 { sender := some 1, attachmentId := 1, data := [1, 2, 3] }] 2 (fun _ => true)
  rcases hret.enough with hfits | hnone
  · revert hfits
    decide
  · revert hnone
    decide

end FileServer

end Parties

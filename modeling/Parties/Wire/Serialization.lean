import Parties.Lib.ByteStream
import Parties.Types

/-!
# The binary writer and reader

Mirror of `BinaryWriter` and `BinaryReader` (`common/src/serialization.cpp`). Writing
appends, so what a sequence of calls leaves in the buffer is the concatenation of
what each of them writes. A reader keeps what it has not read yet; a field that does
not fit sets its error and reads as zero.
-/

namespace Parties.Wire

open ByteStream

def writeU8 (val : BitVec 8) : Bytes := le 1 val.toNat
def writeU16 (val : BitVec 16) : Bytes := le 2 val.toNat
def writeU32 (val : BitVec 32) : Bytes := le 4 val.toNat
def writeU64 (val : BitVec 64) : Bytes := le 8 val.toNat

/-- The bytes of a string, behind their number in 16 bits. -/
def writeString (str : String) : Bytes :=
  writeU16 (BitVec.ofNat 16 str.utf8ByteSize) ++ str.toUTF8.toList

/-- A string given by its bytes. -/
def writeText (str : Bytes) : Bytes := writeU16 (BitVec.ofNat 16 str.length) ++ str

@[simp] theorem length_writeU8 (val : BitVec 8) : (writeU8 val).length = 1 := length_le 1 _
@[simp] theorem length_writeU16 (val : BitVec 16) : (writeU16 val).length = 2 := length_le 2 _
@[simp] theorem length_writeU32 (val : BitVec 32) : (writeU32 val).length = 4 := length_le 4 _
@[simp] theorem length_writeU64 (val : BitVec 64) : (writeU64 val).length = 8 := length_le 8 _

@[simp] theorem length_writeText (str : Bytes) : (writeText str).length = 2 + str.length := by
  simp [writeText]

theorem length_toList_loop (bytes : ByteArray) (i : Nat) (done : List UInt8) :
    (ByteArray.toList.loop bytes i done).length = bytes.size - i + done.length := by
  fun_induction ByteArray.toList.loop bytes i done with
  | case1 i done hlt ih =>
      rw [ih, List.length_cons]
      omega
  | case2 i done hge =>
      rw [List.length_reverse]
      omega

@[simp] theorem length_writeString (str : String) :
    (writeString str).length = 2 + str.utf8ByteSize := by
  have hbytes : str.toUTF8.toList.length = str.utf8ByteSize := length_toList_loop _ 0 []
  rw [writeString, List.length_append, length_writeU16, hbytes]

/-! ### The reader -/

structure BinaryReader where
  rest : Bytes
  error : Bool := false
deriving DecidableEq, Repr

abbrev Reads := StateM BinaryReader

namespace BinaryReader

def hasRemaining (r : BinaryReader) (bytes : Nat) : Bool := bytes ≤ r.rest.length

def readNumber (width : Nat) : Reads Nat := fun r =>
  if r.hasRemaining width then
    (readLe (r.rest.take width), { r with rest := r.rest.drop width })
  else (0, { r with error := true })

def readU8 : Reads (BitVec 8) := do return BitVec.ofNat 8 (← readNumber 1)
def readU16 : Reads (BitVec 16) := do return BitVec.ofNat 16 (← readNumber 2)
def readU32 : Reads (BitVec 32) := do return BitVec.ofNat 32 (← readNumber 4)
def readU64 : Reads (BitVec 64) := do return BitVec.ofNat 64 (← readNumber 8)

def readString : Reads Bytes := do
  let len ← readU16
  let r ← get
  if r.error || !r.hasRemaining len.toNat then
    set { r with error := true }
    return []
  else
    set { r with rest := r.rest.drop len.toNat }
    return r.rest.take len.toNat

/-- Fill the caller's buffer, or leave it alone. -/
def readBytes (out : Bytes) : Reads Bytes := fun r =>
  if r.hasRemaining out.length then
    (r.rest.take out.length, { r with rest := r.rest.drop out.length })
  else (out, { r with error := true })

/-- Read some fields of a payload and check the error behind the last. -/
def parse {α : Type} (reads : Reads α) (payload : Bytes) : Option (α × BinaryReader) :=
  let (value, reader) := reads.run { rest := payload }
  if reader.error then none else some (value, reader)

/-! ### What was written is read back -/

theorem run_bind {α β : Type} (reads : Reads α) (next : α → Reads β) (r : BinaryReader) :
    (reads >>= next).run r = (next (reads.run r).1).run (reads.run r).2 := rfl

/-- In front of whatever follows, the reader finds `value` in `bytes`. -/
def ReadsBack {α : Type} (reads : Reads α) (bytes : Bytes) (value : α) : Prop :=
  ∀ rest, reads.run { rest := bytes ++ rest } = (value, { rest })

theorem ReadsBack.pure {α : Type} (value : α) : ReadsBack (Pure.pure value) [] value :=
  fun _ => rfl

/-- One field after the other. -/
theorem ReadsBack.bind {α β : Type} {reads : Reads α} {next : α → Reads β} {bytes more : Bytes}
    {value : α} {result : β} (h : ReadsBack reads bytes value)
    (hnext : ReadsBack (next value) more result) :
    ReadsBack (reads >>= next) (bytes ++ more) result := by
  intro rest
  rw [run_bind, List.append_assoc, h (more ++ rest)]
  exact hnext rest

/-- The last field, with what is made of it. -/
theorem ReadsBack.map {α β : Type} {reads : Reads α} {bytes : Bytes} {value : α}
    (h : ReadsBack reads bytes value) (f : α → β) :
    ReadsBack (reads >>= fun a => Pure.pure (f a)) bytes (f value) := by
  intro rest
  rw [run_bind, h rest]
  rfl

theorem readsBack_number {width n : Nat} (h : n < 256 ^ width) :
    ReadsBack (readNumber width) (le width n) n := by
  intro rest
  have hlong : hasRemaining { rest := le width n ++ rest } width = true := by
    rw [hasRemaining, List.length_append, length_le, decide_eq_true_iff]
    exact Nat.le_add_right _ _
  have hnumber : readLe ((le width n ++ rest).take width) = n := by
    rw [List.take_left' (length_le width n), readLe_le h]
  show (if hasRemaining { rest := le width n ++ rest } width = true then _ else _) = _
  rw [if_pos hlong, hnumber, List.drop_left' (length_le width n)]

theorem readsBack_u8 (val : BitVec 8) : ReadsBack readU8 (writeU8 val) val := by
  have h := (readsBack_number (show val.toNat < 256 ^ 1 from val.isLt)).map (BitVec.ofNat 8)
  rw [BitVec.ofNat_toNat, BitVec.setWidth_eq] at h
  exact h

theorem readsBack_u16 (val : BitVec 16) : ReadsBack readU16 (writeU16 val) val := by
  have h := (readsBack_number (show val.toNat < 256 ^ 2 from val.isLt)).map (BitVec.ofNat 16)
  rw [BitVec.ofNat_toNat, BitVec.setWidth_eq] at h
  exact h

theorem readsBack_u32 (val : BitVec 32) : ReadsBack readU32 (writeU32 val) val := by
  have h := (readsBack_number (show val.toNat < 256 ^ 4 from val.isLt)).map (BitVec.ofNat 32)
  rw [BitVec.ofNat_toNat, BitVec.setWidth_eq] at h
  exact h

theorem readsBack_u64 (val : BitVec 64) : ReadsBack readU64 (writeU64 val) val := by
  have h := (readsBack_number (show val.toNat < 256 ^ 8 from val.isLt)).map (BitVec.ofNat 64)
  rw [BitVec.ofNat_toNat, BitVec.setWidth_eq] at h
  exact h

theorem run_readString (r : BinaryReader) :
    readString.run r =
      if (readU16.run r).2.error || !(readU16.run r).2.hasRemaining (readU16.run r).1.toNat then
        ([], { (readU16.run r).2 with error := true })
      else ((readU16.run r).2.rest.take (readU16.run r).1.toNat,
        { (readU16.run r).2 with
          rest := (readU16.run r).2.rest.drop (readU16.run r).1.toNat }) := by
  rw [readString, run_bind, run_bind]
  by_cases hshort : ((readU16.run r).2.error ||
      !(readU16.run r).2.hasRemaining (readU16.run r).1.toNat) = true
  · rw [if_pos hshort]
    exact congrArg (fun reads : Reads Bytes => reads.run (readU16.run r).2) (if_pos hshort)
  · rw [if_neg hshort]
    exact congrArg (fun reads : Reads Bytes => reads.run (readU16.run r).2) (if_neg hshort)

/-- A string whose length fits its 16 bits. -/
theorem readsBack_text {str : Bytes} (h : str.length < 2 ^ 16) :
    ReadsBack readString (writeText str) str := by
  intro rest
  have hlen := readsBack_u16 (BitVec.ofNat 16 str.length) (str ++ rest)
  have hnat : (BitVec.ofNat 16 str.length).toNat = str.length := by
    rw [BitVec.toNat_ofNat, Nat.mod_eq_of_lt h]
  have hlong : hasRemaining { rest := str ++ rest } str.length = true := by
    rw [hasRemaining, List.length_append, decide_eq_true_iff]
    exact Nat.le_add_right _ _
  rw [run_readString, writeText, List.append_assoc, hlen]
  simp only [hnat, hlong, Bool.not_true, Bool.or_false, List.take_left, List.drop_left]
  rfl

/-- `count` elements, up to the first that does not fit. -/
def readWhileOk {α : Type} (reads : Reads α) : Nat → Reads (List α)
  | 0 => Pure.pure []
  | count + 1 => do
    if (← get).error then return []
    let first ← reads
    return first :: (← readWhileOk reads count)

theorem readsBack_whileOk {α β : Type} {reads : Reads β} {write : α → Bytes} {view : α → β}
    {items : List α} (h : ∀ item ∈ items, ReadsBack reads (write item) (view item)) :
    ReadsBack (readWhileOk reads items.length) (items.flatMap write) (items.map view) := by
  induction items with
  | nil => exact ReadsBack.pure []
  | cons item items ih =>
      intro rest
      have hhead := h item List.mem_cons_self (items.flatMap write ++ rest)
      have htail := ih (fun i hi => h i (List.mem_cons_of_mem _ hi)) rest
      rw [List.flatMap_cons, List.append_assoc]
      show StateT.run (do
        let first ← reads
        return first :: (← readWhileOk reads items.length)) _ = _
      rw [run_bind, hhead]
      show StateT.run (do return view item :: (← readWhileOk reads items.length)) _ = _
      rw [run_bind, htail]
      rfl

end BinaryReader

end Parties.Wire

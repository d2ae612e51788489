import Parties.Wire.Serialization

/-!
# The writer's vector and the reader's memory

What `Serialization` leaves out of `BinaryWriter` and `BinaryReader`: the vector of the
writer can be full, and the reader has a pointer into memory that goes on behind the end.
Sizes are `size_t`; no object is larger than `PTRDIFF_MAX`. The reader here computes what
the one that keeps its unread bytes computes, whatever the memory holds behind the end.
-/

namespace Parties.Wire

open ByteStream

def maxSize : Nat := 2 ^ 63 - 1

/-- An array of bytes in memory. -/
abbrev Block := { bytes : Bytes // bytes.length ≤ maxSize }

/-! ### The writer -/

/-- What is written by one call. -/
inductive Field where
  | u8 (val : BitVec 8)
  | u16 (val : BitVec 16)
  | u32 (val : BitVec 32)
  | u64 (val : BitVec 64)
  | bytes (data : Bytes)
  | string (str : Bytes)
deriving DecidableEq, Repr

/-- The vector of the writer. -/
structure BinaryWriter where
  buf : Bytes := []
  fits : buf.length ≤ maxSize := by decide
deriving DecidableEq

namespace BinaryWriter

/-- Append to the vector, which throws `length_error` when it is full. -/
def append (w : BinaryWriter) (bytes : Bytes) : Option BinaryWriter :=
  if h : (w.buf ++ bytes).length ≤ maxSize then some { buf := w.buf ++ bytes, fits := h } else none

def write (w : BinaryWriter) : Field → Option BinaryWriter
  | .u8 val => w.append (writeU8 val)
  | .u16 val => w.append (writeU16 val)
  | .u32 val => w.append (writeU32 val)
  | .u64 val => w.append (writeU64 val)
  | .bytes data => w.append data
  | .string str => do (← w.append (writeU16 (BitVec.ofNat 16 str.length))).append str

def writeAll (w : BinaryWriter) : List Field → Option BinaryWriter
  | [] => some w
  | field :: fields => do (← w.write field).writeAll fields

end BinaryWriter

def Field.encoding : Field → Bytes
  | .u8 val => writeU8 val
  | .u16 val => writeU16 val
  | .u32 val => writeU32 val
  | .u64 val => writeU64 val
  | .bytes data => data
  | .string str => writeText str

/-- The bytes of a sequence of fields. -/
def encodings (fields : List Field) : Bytes := fields.flatMap Field.encoding

namespace BinaryWriter

variable {w w' : BinaryWriter}

theorem buf_append {bytes : Bytes} (h : w.append bytes = some w') : w'.buf = w.buf ++ bytes := by
  unfold append at h
  split at h
  · obtain rfl := Option.some.inj h
    rfl
  · cases h

theorem buf_write {field : Field} (h : w.write field = some w') :
    w'.buf = w.buf ++ field.encoding := by
  cases field with
  | string str =>
      obtain ⟨w₁, hlength, hbytes⟩ := Option.bind_eq_some_iff.mp h
      rw [buf_append hbytes, buf_append hlength, List.append_assoc]
      rfl
  | u8 | u16 | u32 | u64 | bytes => exact buf_append h

theorem buf_writeAll {fields : List Field} (h : w.writeAll fields = some w') :
    w'.buf = w.buf ++ encodings fields := by
  induction fields generalizing w with
  | nil =>
      obtain rfl := Option.some.inj h
      exact (List.append_nil _).symm
  | cons field fields ih =>
      obtain ⟨w₁, hfield, hfields⟩ := Option.bind_eq_some_iff.mp h
      rw [ih hfields, buf_write hfield, List.append_assoc]
      rfl

end BinaryWriter

/-! ### The reader -/

/-- What is read by one call; a block is read into a buffer of the caller. -/
inductive Read where
  | u8
  | u16
  | u32
  | u64
  | bytes (out : Block)
  | string
deriving DecidableEq

/-- A pointer, the length of what it points to, and what is behind that. -/
structure MemoryReader where
  data : Nat → UInt8
  len : Nat
  fits : len ≤ maxSize
  pos : Nat := 0
  error : Bool := false
  inside : pos ≤ len := by exact Nat.zero_le _

/-- `count` bytes of memory. -/
def window (data : Nat → UInt8) (pos count : Nat) : Bytes := (List.range' pos count).map data

namespace MemoryReader

/-- The sum is one of `size_t`. -/
def hasRemaining (r : MemoryReader) (bytes : Nat) : Bool := (r.pos + bytes) % 2 ^ 64 ≤ r.len

def remaining (r : MemoryReader) : Nat := r.len - r.pos

def fail (r : MemoryReader) : MemoryReader := { r with error := true }

variable {r : MemoryReader} {count : Nat}

/-- The sum does not wrap. -/
theorem hasRemaining_iff (h : count ≤ maxSize) :
    r.hasRemaining count = true ↔ r.pos + count ≤ r.len := by
  have hinside := r.inside
  have hfits := r.fits
  unfold maxSize at h hfits
  rw [hasRemaining, decide_eq_true_iff, Nat.mod_eq_of_lt (by omega)]

/-- The next bytes, if they are there. -/
def take (r : MemoryReader) (count : Nat) (h : count ≤ maxSize) : Option (Bytes × MemoryReader) :=
  if hthere : r.hasRemaining count = true then
    some (window r.data r.pos count,
      { r with pos := r.pos + count, inside := (hasRemaining_iff h).mp hthere })
  else none

def readNumber (r : MemoryReader) (width : Nat) (h : width ≤ maxSize) : Nat × MemoryReader :=
  match r.take width h with
  | some (bytes, r) => (readLe bytes, r)
  | none => (0, r.fail)

def readString (r : MemoryReader) : Bytes × MemoryReader :=
  let (number, r) := r.readNumber 2 (by decide)
  let len := BitVec.ofNat 16 number
  if r.error then ([], r.fail)
  else
    match r.take len.toNat (by have := len.isLt; unfold maxSize; omega) with
    | some (bytes, r) => (bytes, r)
    | none => ([], r.fail)

def read (r : MemoryReader) : Read → Field × MemoryReader
  | .u8 => let (n, r) := r.readNumber 1 (by decide); (.u8 (BitVec.ofNat 8 n), r)
  | .u16 => let (n, r) := r.readNumber 2 (by decide); (.u16 (BitVec.ofNat 16 n), r)
  | .u32 => let (n, r) := r.readNumber 4 (by decide); (.u32 (BitVec.ofNat 32 n), r)
  | .u64 => let (n, r) := r.readNumber 8 (by decide); (.u64 (BitVec.ofNat 64 n), r)
  | .bytes out =>
    match r.take out.1.length out.2 with
    | some (bytes, r) => (.bytes bytes, r)
    | none => (.bytes out.1, r.fail)
  | .string => let (str, r) := r.readString; (.string str, r)

def readAll (r : MemoryReader) : List Read → List Field × MemoryReader
  | [] => ([], r)
  | read :: reads =>
    let (field, r) := r.read read
    let (fields, r) := r.readAll reads
    (field :: fields, r)

/-! ### The unread bytes -/

/-- The reader that keeps its unread bytes. -/
def view (r : MemoryReader) : BinaryReader :=
  { rest := window r.data r.pos r.remaining, error := r.error }

theorem length_window (data : Nat → UInt8) (pos count : Nat) :
    (window data pos count).length = count := by
  rw [window, List.length_map, List.length_range']

theorem window_append (data : Nat → UInt8) (pos m n : Nat) :
    window data pos m ++ window data (pos + m) n = window data pos (m + n) := by
  rw [window, window, window, ← List.map_append, List.range'_append_1]

/-- Taking bytes off the memory is taking them off the unread ones. -/
theorem take_cases (r : MemoryReader) (h : count ≤ maxSize) :
    (∃ r', r.take count h = some (r.view.rest.take count, r') ∧
        r.view.hasRemaining count = true ∧
        r'.view = { r.view with rest := r.view.rest.drop count }) ∨
      r.take count h = none ∧ r.view.hasRemaining count = false := by
  have hlength : r.view.rest.length = r.len - r.pos := length_window ..
  unfold take
  by_cases hthere : r.hasRemaining count = true
  · left
    have hfits := (hasRemaining_iff h).mp hthere
    have hsplit : r.view.rest = window r.data r.pos count ++
        window r.data (r.pos + count) (r.len - (r.pos + count)) := by
      rw [window_append]
      show window r.data r.pos (r.len - r.pos) = _
      congr 1
      omega
    have hwindow := length_window r.data r.pos count
    rw [dif_pos hthere]
    refine ⟨{ r with pos := r.pos + count, inside := hfits }, ?_, ?_, ?_⟩
    · rw [hsplit, List.take_left' hwindow]
    · rw [BinaryReader.hasRemaining, hlength, decide_eq_true_iff]
      omega
    · rw [hsplit, List.drop_left' hwindow]
      rfl
  · right
    have hshort := (not_congr (hasRemaining_iff h)).mp hthere
    rw [dif_neg hthere]
    refine ⟨rfl, ?_⟩
    rw [BinaryReader.hasRemaining, hlength, decide_eq_false_iff_not]
    have hinside := r.inside
    omega

theorem readNumber_view (r : MemoryReader) {width : Nat} (h : width ≤ maxSize) :
    (BinaryReader.readNumber width).run r.view =
      ((r.readNumber width h).1, (r.readNumber width h).2.view) := by
  unfold readNumber BinaryReader.readNumber
  obtain ⟨r', htake, hthere, hview⟩ | ⟨htake, hshort⟩ := r.take_cases h
  · rw [htake]
    show (if r.view.hasRemaining width = true then _ else _) = _
    rw [if_pos hthere, hview]
  · rw [htake]
    show (if r.view.hasRemaining width = true then _ else _) = _
    rw [hshort, if_neg Bool.false_ne_true]
    rfl

theorem readString_view (r : MemoryReader) :
    BinaryReader.readString.run r.view = (r.readString.1, r.readString.2.view) := by
  have hnumber : BinaryReader.readU16.run r.view =
      (BitVec.ofNat 16 (r.readNumber 2 (by decide)).1, (r.readNumber 2 (by decide)).2.view) := by
    rw [BinaryReader.readU16, BinaryReader.run_bind, r.readNumber_view (by decide)]
    rfl
  rw [BinaryReader.run_readString, hnumber, readString]
  dsimp only
  generalize r.readNumber 2 (by decide) = first
  obtain ⟨number, r₁⟩ := first
  dsimp only
  cases herror : r₁.error with
  | true =>
      have hview : r₁.view.error = true := herror
      rw [hview, Bool.true_or, if_pos rfl, if_pos rfl]
      rfl
  | false =>
      have hview : r₁.view.error = false := herror
      rw [hview, Bool.false_or, if_neg Bool.false_ne_true]
      have hfits : (BitVec.ofNat 16 number).toNat ≤ maxSize := by
        have hlt := (BitVec.ofNat 16 number).isLt
        unfold maxSize
        omega
      obtain ⟨r₂, htake, hthere, hrest⟩ | ⟨htake, hshort⟩ := r₁.take_cases hfits
      · rw [htake, hthere, Bool.not_true, if_neg Bool.false_ne_true, hrest]
        dsimp only
        rw [hview]
      · rw [htake, hshort, Bool.not_false, if_pos rfl]
        rfl

end MemoryReader

namespace BinaryReader

/-- The field that a call reads. -/
def readField : Read → Reads Field
  | .u8 => do return .u8 (← readU8)
  | .u16 => do return .u16 (← readU16)
  | .u32 => do return .u32 (← readU32)
  | .u64 => do return .u64 (← readU64)
  | .bytes out => do return .bytes (← readBytes out.1)
  | .string => do return .string (← readString)

def readFields : List Read → Reads (List Field)
  | [] => Pure.pure []
  | read :: reads => do
    let field ← readField read
    return field :: (← readFields reads)

end BinaryReader

namespace MemoryReader

theorem read_view (r : MemoryReader) (read : Read) :
    (BinaryReader.readField read).run r.view = ((r.read read).1, (r.read read).2.view) := by
  cases read with
  | u8 =>
      rw [BinaryReader.readField, BinaryReader.readU8, BinaryReader.run_bind,
        BinaryReader.run_bind, r.readNumber_view (by decide)]
      rfl
  | u16 =>
      rw [BinaryReader.readField, BinaryReader.readU16, BinaryReader.run_bind,
        BinaryReader.run_bind, r.readNumber_view (by decide)]
      rfl
  | u32 =>
      rw [BinaryReader.readField, BinaryReader.readU32, BinaryReader.run_bind,
        BinaryReader.run_bind, r.readNumber_view (by decide)]
      rfl
  | u64 =>
      rw [BinaryReader.readField, BinaryReader.readU64, BinaryReader.run_bind,
        BinaryReader.run_bind, r.readNumber_view (by decide)]
      rfl
  | bytes out =>
      have hread : (BinaryReader.readBytes out.1).run r.view =
          if r.view.hasRemaining out.1.length then
            (r.view.rest.take out.1.length,
              { r.view with rest := r.view.rest.drop out.1.length })
          else (out.1, { r.view with error := true }) := rfl
      rw [BinaryReader.readField, BinaryReader.run_bind, hread, read]
      obtain ⟨r', htake, hthere, hview⟩ | ⟨htake, hshort⟩ := r.take_cases out.2
      · rw [htake, if_pos hthere, hview]
        rfl
      · rw [htake, hshort, if_neg Bool.false_ne_true]
        rfl
  | string =>
      rw [BinaryReader.readField, BinaryReader.run_bind, r.readString_view]
      rfl

theorem readAll_view (r : MemoryReader) (reads : List Read) :
    (BinaryReader.readFields reads).run r.view = ((r.readAll reads).1, (r.readAll reads).2.view) := by
  induction reads generalizing r with
  | nil => rfl
  | cons read reads ih =>
      rw [BinaryReader.readFields, BinaryReader.run_bind, r.read_view, BinaryReader.run_bind, ih]
      rfl

end MemoryReader

end Parties.Wire

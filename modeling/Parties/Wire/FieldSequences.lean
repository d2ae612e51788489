import Mathlib.Data.List.Forall2
import Parties.Wire.MemoryReader

/-!
# Sequences of fields

What one sequence of calls of the writer leaves in its vector, the same sequence of calls of
the reader reads back. Cut off anywhere, the bytes are read up to the first field that does
not fit, and from there on the error stays.
-/

namespace Parties.Wire

/-- The call reads what the field was written as. -/
def Read.Reads : Read → Field → Prop
  | .u8, .u8 _ | .u16, .u16 _ | .u32, .u32 _ | .u64, .u64 _ | .string, .string _ => True
  | .bytes out, .bytes data => out.1.length = data.length
  | _, _ => False

/-- The length of a string is written in 16 bits. -/
def Field.Fits : Field → Prop
  | .string str => str.length ≤ 65535
  | _ => True

namespace BinaryReader

variable {read : Read} {reads : List Read} {field : Field} {fields : List Field}

/-! ### The whole bytes -/

theorem readsBack_bytes {out data : Bytes} (h : out.length = data.length) :
    ReadsBack (readBytes out) data data := by
  intro rest
  have hthere : hasRemaining { rest := data ++ rest } out.length = true := by
    rw [hasRemaining, List.length_append, decide_eq_true_iff]
    omega
  show (if hasRemaining { rest := data ++ rest } out.length = true then _ else _) = _
  rw [if_pos hthere, h, List.take_left, List.drop_left]

theorem readsBack_field (hread : read.Reads field) (hfits : field.Fits) :
    ReadsBack (readField read) field.encoding field := by
  cases read <;> cases field <;> try exact hread.elim
  case u8 val => exact (readsBack_u8 val).map Field.u8
  case u16 val => exact (readsBack_u16 val).map Field.u16
  case u32 val => exact (readsBack_u32 val).map Field.u32
  case u64 val => exact (readsBack_u64 val).map Field.u64
  case bytes out data => exact (readsBack_bytes hread).map Field.bytes
  case string str =>
    have hlength : str.length ≤ 65535 := hfits
    exact (readsBack_text (by omega)).map Field.string

theorem readsBack_fields (hreads : List.Forall₂ Read.Reads reads fields)
    (hfits : ∀ field ∈ fields, field.Fits) :
    ReadsBack (readFields reads) (encodings fields) fields := by
  induction hreads with
  | nil => exact ReadsBack.pure []
  | cons hread _ ih =>
      rw [List.forall_mem_cons] at hfits
      exact (readsBack_field hread hfits.1).bind ((ih hfits.2).map _)

/-! ### The error stays -/

theorem error_number {width : Nat} {r : BinaryReader} (h : r.error = true) :
    ((readNumber width).run r).2.error = true := by
  show (if r.hasRemaining width = true then _ else _ : Nat × BinaryReader).2.error = true
  split
  · exact h
  · rfl

theorem error_string {r : BinaryReader} (h : r.error = true) :
    (readString.run r).2.error = true := by
  rw [run_readString]
  split
  · rfl
  next hok =>
    simp only [Bool.or_eq_true, not_or, Bool.not_eq_true] at hok
    have hnumber : (readU16.run r).2.error = true := error_number h
    rw [hnumber] at hok
    cases hok.1

theorem error_field {r : BinaryReader} (h : r.error = true) :
    ((readField read).run r).2.error = true := by
  cases read with
  | u8 | u16 | u32 | u64 => exact error_number h
  | bytes out =>
      show (if r.hasRemaining out.1.length = true then _ else _ : Bytes × BinaryReader).2.error = true
      split
      · exact h
      · rfl
  | string => exact error_string h

theorem error_fields {r : BinaryReader} (h : r.error = true) :
    ((readFields reads).run r).2.error = true := by
  induction reads generalizing r with
  | nil => exact h
  | cons read reads ih =>
      rw [readFields, run_bind, run_bind]
      exact ih (error_field h)

theorem run_readFields_append (first second : List Read) (r : BinaryReader) :
    (readFields (first ++ second)).run r =
      (((readFields first).run r).1 ++ ((readFields second).run ((readFields first).run r).2).1,
        ((readFields second).run ((readFields first).run r).2).2) := by
  induction first generalizing r with
  | nil => rfl
  | cons read first ih =>
      rw [List.cons_append, readFields, readFields, run_bind, run_bind, ih, run_bind, run_bind]
      rfl

/-! ### Bytes cut off -/

theorem error_short_number {width : Nat} {r : BinaryReader} (h : r.rest.length < width) :
    ((readNumber width).run r).2.error = true := by
  have hshort : r.hasRemaining width = false := by
    rw [hasRemaining, decide_eq_false_iff_not]
    omega
  show (if r.hasRemaining width = true then _ else _ : Nat × BinaryReader).2.error = true
  rw [hshort]
  rfl

theorem error_short_string {str front missing : Bytes} (hsplit : front ++ missing = writeText str)
    (hmissing : missing ≠ []) (hfits : str.length ≤ 65535) :
    (readString.run { rest := front }).2.error = true := by
  have hlength := congrArg List.length hsplit
  rw [List.length_append, length_writeText] at hlength
  have hpos := List.length_pos_iff.mpr hmissing
  rw [run_readString]
  by_cases hcut : front.length < 2
  · have hnumber : (readU16.run { rest := front }).2.error = true :=
      error_short_number (r := { rest := front }) hcut
    rw [hnumber]
    rfl
  · -- the length is there, the string is not
    obtain ⟨rest, hfront⟩ : writeU16 (BitVec.ofNat 16 str.length) <+: front := by
      refine List.prefix_of_prefix_length_le (List.prefix_append _ str) ⟨missing, hsplit⟩ ?_
      rw [length_writeU16]
      omega
    have hnumber := readsBack_u16 (BitVec.ofNat 16 str.length) rest
    rw [hfront] at hnumber
    have hcount : (BitVec.ofNat 16 str.length).toNat = str.length := by
      rw [BitVec.toNat_ofNat]
      omega
    have hshort : hasRemaining { rest } str.length = false := by
      have hrest := congrArg List.length hfront
      rw [List.length_append, length_writeU16] at hrest
      rw [hasRemaining, decide_eq_false_iff_not]
      dsimp only
      omega
    rw [hnumber, hcount, hshort]
    rfl

/-- A field that is cut off. -/
theorem error_short_field {front missing : Bytes} (hread : read.Reads field) (hfits : field.Fits)
    (hsplit : front ++ missing = field.encoding) (hmissing : missing ≠ []) :
    ((readField read).run { rest := front }).2.error = true := by
  have hlength := congrArg List.length hsplit
  rw [List.length_append] at hlength
  have hpos := List.length_pos_iff.mpr hmissing
  cases read <;> cases field <;> try exact hread.elim
  case u8 val =>
    rw [Field.encoding, length_writeU8] at hlength
    exact error_short_number (r := { rest := front }) (by dsimp only; omega)
  case u16 val =>
    rw [Field.encoding, length_writeU16] at hlength
    exact error_short_number (r := { rest := front }) (by dsimp only; omega)
  case u32 val =>
    rw [Field.encoding, length_writeU32] at hlength
    exact error_short_number (r := { rest := front }) (by dsimp only; omega)
  case u64 val =>
    rw [Field.encoding, length_writeU64] at hlength
    exact error_short_number (r := { rest := front }) (by dsimp only; omega)
  case bytes out data =>
    have hsame : out.1.length = data.length := hread
    have hshort : hasRemaining { rest := front } out.1.length = false := by
      rw [Field.encoding] at hlength
      rw [hasRemaining, decide_eq_false_iff_not]
      dsimp only
      omega
    show (if hasRemaining { rest := front } out.1.length = true then _ else _ :
      Bytes × BinaryReader).2.error = true
    rw [hshort]
    rfl
  case string str => exact error_short_string hsplit hmissing hfits

/-- The first field that does not fit. -/
theorem first_short {n : Nat} (h : n < (encodings fields).length) : ∃ k < fields.length,
    (encodings (fields.take k)).length ≤ n ∧ n < (encodings (fields.take (k + 1))).length := by
  induction fields generalizing n with
  | nil => exact absurd h (Nat.not_lt_zero n)
  | cons field fields ih =>
      have hcons : ∀ more, (encodings (field :: more)).length =
          field.encoding.length + (encodings more).length := by
        intro more
        rw [encodings, List.flatMap_cons, List.length_append]
        rfl
      by_cases hfirst : n < field.encoding.length
      · refine ⟨0, by simp, Nat.zero_le n, ?_⟩
        rw [List.take_succ_cons, List.take_zero, hcons]
        omega
      · rw [hcons] at h
        obtain ⟨k, hk, hle, hlt⟩ := ih (n := n - field.encoding.length) (by omega)
        refine ⟨k + 1, by simpa using hk, ?_, ?_⟩
        · rw [List.take_succ_cons, hcons]
          omega
        · rw [List.take_succ_cons, hcons]
          omega

/-- The bytes up to somewhere inside of the first field that does not fit. -/
theorem readFields_cut {n k : Nat} (hreads : List.Forall₂ Read.Reads reads fields)
    (hfits : ∀ field ∈ fields, field.Fits) (hk : k < fields.length)
    (hle : (encodings (fields.take k)).length ≤ n)
    (hlt : n < (encodings (fields.take (k + 1))).length) :
    (∀ j ≤ k, ((readFields (reads.take j)).run { rest := (encodings fields).take n }).1 =
        fields.take j ∧
      ((readFields (reads.take j)).run { rest := (encodings fields).take n }).2.error = false) ∧
    ∀ j, k < j → ∀ later, ((readFields (reads.take j ++ later)).run
      { rest := (encodings fields).take n }).2.error = true := by
  have hsplit : ∀ j, encodings fields =
      encodings (fields.take j) ++ encodings (fields.drop j) := by
    intro j
    rw [encodings, encodings, encodings, ← List.flatMap_append, List.take_append_drop]
  -- the fields in front of the first that does not fit
  have hfront : ∀ j ≤ k, ∀ left, left = n - (encodings (fields.take j)).length →
      (readFields (reads.take j)).run { rest := (encodings fields).take n } =
        (fields.take j, { rest := (encodings (fields.drop j)).take left }) := by
    rintro j hj left rfl
    have hshort : (encodings (fields.take j)).length ≤ n := by
      refine Nat.le_trans ?_ hle
      have hprefix : fields.take j <+: fields.take k := List.take_prefix_take_left hj
      obtain ⟨more, hmore⟩ := hprefix
      rw [← hmore, encodings, encodings, List.flatMap_append, List.length_append]
      exact Nat.le_add_right _ _
    rw [hsplit j, List.take_append, List.take_of_length_le hshort]
    exact readsBack_fields (List.forall₂_take j hreads)
      (fun field hfield => hfits field (List.mem_of_mem_take hfield)) _
  refine ⟨fun j hj => ?_, fun j hj later => ?_⟩
  · rw [hfront j hj _ rfl]
    exact ⟨rfl, rfl⟩
  · have hdropped := List.forall₂_drop k hreads
    rw [List.drop_eq_getElem_cons hk] at hdropped
    obtain ⟨read, behind, hread, -, hbehind⟩ := List.forall₂_cons_right_iff.mp hdropped
    have hcut : reads.take j ++ later =
        reads.take k ++ read :: (behind.take (j - (k + 1)) ++ later) := by
      have htake : reads.take j = reads.take k ++ (reads.drop k).take (j - k) := by
        rw [← List.take_add]
        congr 1
        omega
      rw [htake, hbehind, show j - k = j - (k + 1) + 1 by omega, List.take_succ_cons,
        List.append_assoc, List.cons_append]
    rw [hcut, run_readFields_append, hfront k le_rfl _ rfl, readFields, run_bind, run_bind]
    refine error_fields ?_
    have hfield : encodings (fields.take (k + 1)) =
        encodings (fields.take k) ++ fields[k].encoding := by
      rw [← List.take_append_getElem hk, encodings, encodings, List.flatMap_append,
        List.flatMap_singleton]
    rw [hfield, List.length_append] at hlt
    have hhead : encodings (fields.drop k) =
        fields[k].encoding ++ encodings (fields.drop (k + 1)) := by
      rw [List.drop_eq_getElem_cons hk]
      rfl
    rw [hhead, List.take_append_of_le_length (by omega)]
    refine error_short_field hread (hfits _ (List.getElem_mem hk)) (List.take_append_drop _ _) ?_
    rw [← List.length_pos_iff, List.length_drop]
    omega

end BinaryReader

/-! ### In memory -/

namespace MemoryReader

/-- A reader at the start of the first `len` bytes of memory. -/
def new (data : Nat → UInt8) (len : Nat) (fits : len ≤ maxSize) : MemoryReader :=
  { data := data, len := len, fits := fits }

/-- Only the bytes in front of the end are seen. -/
theorem view_new {data : Nat → UInt8} {bytes : Bytes} (hdata : ∀ i, ∀ h : i < bytes.length,
    data i = bytes[i]) {n : Nat} (hn : n ≤ bytes.length) (fits : n ≤ maxSize) :
    (new data n fits).view = { rest := bytes.take n } := by
  have hrest : window data 0 n = bytes.take n := by
    refine List.ext_getElem ?_ fun i hi hi' => ?_
    · rw [length_window, List.length_take]
      omega
    · have hbyte : (window data 0 n)[i] = data i := by simp [window]
      rw [length_window] at hi
      rw [hbyte, List.getElem_take]
      exact hdata i (by omega)
  show BinaryReader.mk (window data 0 (n - 0)) false = _
  rw [Nat.sub_zero, hrest]

/-- No read returns what is behind the end. -/
def Contained (r : MemoryReader) : Prop :=
  ∀ data : Nat → UInt8, (∀ i < r.len, data i = r.data i) →
    ∀ reads, ({ r with data := data }.readAll reads).1 = (r.readAll reads).1

theorem contained (r : MemoryReader) : r.Contained := by
  intro data hdata reads
  have hview : ({ r with data := data } : MemoryReader).view = r.view := by
    have hwindow : window data r.pos r.remaining = window r.data r.pos r.remaining := by
      refine List.map_congr_left fun i hi => hdata i ?_
      have hrange := List.mem_range'_1.mp hi
      have hinside := r.inside
      rw [remaining] at hrange
      omega
    exact congrArg (BinaryReader.mk · r.error) hwindow
  have hread := readAll_view { r with data := data } reads
  rw [hview, r.readAll_view reads] at hread
  exact (Prod.mk.inj hread).1.symm

/-- The reader reads `k` fields, and from the next one on the error stays. -/
structure StopsAt (r : MemoryReader) (reads : List Read) (fields : List Field) (k : Nat) :
    Prop where
  read : ∀ j ≤ k, (r.readAll (reads.take j)).1 = fields.take j ∧
    (r.readAll (reads.take j)).2.error = false
  failed : ∀ j, k < j → ∀ later, (r.readAll (reads.take j ++ later)).2.error = true

variable {reads : List Read} {fields : List Field} {w : BinaryWriter} {data : Nat → UInt8}

theorem readAll_new (hdata : ∀ i, ∀ h : i < w.buf.length, data i = w.buf[i]) {n : Nat}
    (hn : n ≤ w.buf.length) (fits : n ≤ maxSize) (reads : List Read) :
    (BinaryReader.readFields reads).run { rest := w.buf.take n } =
      (((new data n fits).readAll reads).1, ((new data n fits).readAll reads).2.view) := by
  rw [← view_new hdata hn fits]
  exact readAll_view _ reads

/-- What is written is read back, and what is cut off stops the reader where it is cut. -/
theorem fields_read_back (hreads : List.Forall₂ Read.Reads reads fields)
    (hfits : ∀ field ∈ fields, field.Fits) (hwrites : BinaryWriter.writeAll {} fields = some w)
    (hdata : ∀ i, ∀ h : i < w.buf.length, data i = w.buf[i]) :
    (((new data w.buf.length w.fits).readAll reads).1 = fields ∧
      ((new data w.buf.length w.fits).readAll reads).2.error = false ∧
      ((new data w.buf.length w.fits).readAll reads).2.remaining = 0) ∧
    ∀ n, ∀ hn : n < w.buf.length,
      (∃ k < fields.length, (encodings (fields.take k)).length ≤ n ∧
        n < (encodings (fields.take (k + 1))).length ∧
        (new data n (hn.le.trans w.fits)).StopsAt reads fields k) ∧
      (new data n (hn.le.trans w.fits)).Contained := by
  have hbuf : w.buf = encodings fields := BinaryWriter.buf_writeAll hwrites
  constructor
  · have hall := BinaryReader.readsBack_fields hreads hfits []
    have hread := readAll_new hdata le_rfl w.fits reads
    rw [List.append_nil, ← hbuf] at hall
    rw [List.take_length, hall] at hread
    obtain ⟨hfields, hview⟩ := Prod.mk.inj hread
    refine ⟨hfields.symm, (congrArg BinaryReader.error hview).symm, ?_⟩
    have hrest := congrArg (List.length ∘ BinaryReader.rest) hview
    exact (hrest.trans (length_window ..)).symm
  · intro n hn
    refine ⟨?_, contained _⟩
    rw [hbuf] at hn
    obtain ⟨k, hk, hle, hlt⟩ := BinaryReader.first_short hn
    obtain ⟨hfront, hfailed⟩ := BinaryReader.readFields_cut hreads hfits hk hle hlt
    rw [← hbuf] at hn hfront hfailed
    refine ⟨k, hk, hle, hlt, fun j hj => ?_, fun j hj later => ?_⟩
    · have hread := readAll_new hdata hn.le (hn.le.trans w.fits) (reads.take j)
      obtain ⟨hvalues, herror⟩ := hfront j hj
      rw [hread] at hvalues herror
      exact ⟨hvalues, herror⟩
    · have hread := readAll_new hdata hn.le (hn.le.trans w.fits) (reads.take j ++ later)
      have herror := hfailed j hj later
      rw [hread] at herror
      exact herror

/-- A number, a block and a string, and what is left of them in four bytes. -/
theorem fields_read_back_four : ∃ k < 3,
    (new (fun i => ([1, 2, 7, 2, 0, 104, 105] : Bytes).getD i 0) 4 (by decide)).StopsAt
      [.u16, .bytes ⟨[0], by decide⟩, .string] [.u16 513, .bytes [7], .string [104, 105]] k := by
  have hreads : List.Forall₂ Read.Reads [.u16, .bytes ⟨[0], by decide⟩, .string]
      [.u16 513, .bytes [7], .string [104, 105]] :=
    .cons trivial (.cons rfl (.cons trivial .nil))
  have hwrites : BinaryWriter.writeAll {} [.u16 513, .bytes [7], .string [104, 105]] =
      some { buf := [1, 2, 7, 2, 0, 104, 105] } := rfl
  have hdata : ∀ i, ∀ h : i < ([1, 2, 7, 2, 0, 104, 105] : Bytes).length,
      ([1, 2, 7, 2, 0, 104, 105] : Bytes).getD i 0 = [1, 2, 7, 2, 0, 104, 105][i] := by decide
  have hcut := (fields_read_back hreads (by simp [Field.Fits]) hwrites hdata).2 4 (by decide)
  obtain ⟨⟨k, hk, -, -, hstops⟩, -⟩ := hcut
  exact ⟨k, hk, hstops⟩

end MemoryReader

end Parties.Wire

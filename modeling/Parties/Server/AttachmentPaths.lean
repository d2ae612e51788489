import Mathlib.Data.List.TakeWhile
import Parties.Server.ChatHandlers

/-!
# Where attachments are stored

The server makes the path of an attachment from the month, the id of the message, the
number of the attachment in it and an extension cut out of the name the client gave.
Whatever that name is, the path stays inside the directory of the month, and the two
numbers can be read back from it: digits end at the underscore, and the extension starts
with a dot if it is not empty.
-/

namespace Parties

/-! ### Characters -/

def IsDigit (b : UInt8) : Prop := 48 ≤ b ∧ b ≤ 57

instance (b : UInt8) : Decidable (IsDigit b) := inferInstanceAs (Decidable (_ ∧ _))

def IsLower (b : UInt8) : Prop := 97 ≤ b ∧ b ≤ 122

instance (b : UInt8) : Decidable (IsLower b) := inferInstanceAs (Decidable (_ ∧ _))

/-- What `strftime` writes for `%Y-%m`. -/
def IsMonth (month : Bytes) : Prop :=
  ∃ year number : Bytes, month = year ++ [45] ++ number ∧ year.length = 4 ∧ number.length = 2 ∧
    ∀ b ∈ year ++ number, IsDigit b

theorem IsMonth.length {month : Bytes} (h : IsMonth month) : month.length = 7 := by
  obtain ⟨year, number, rfl, hyear, hnumber, _⟩ := h
  simp [hyear, hnumber]

theorem IsMonth.digit_or_dash {month : Bytes} (h : IsMonth month) {b : UInt8} (hb : b ∈ month) :
    IsDigit b ∨ b = 45 := by
  obtain ⟨year, number, rfl, _, _, hdigits⟩ := h
  rw [List.mem_append, List.mem_append, List.mem_singleton] at hb
  rcases hb with (hb | hb) | hb
  · exact Or.inl (hdigits b (List.mem_append_left _ hb))
  · exact Or.inr hb
  · exact Or.inl (hdigits b (List.mem_append_right _ hb))

namespace ChatServer

/-! ### Numbers in decimal -/

theorem toList_toByteArray_loop (bytes : ByteArray) (i : Nat) (done : List UInt8) :
    ByteArray.toList.loop bytes i done = done.reverse ++ bytes.data.toList.drop i := by
  fun_induction ByteArray.toList.loop bytes i done with
  | case1 i done hlt ih =>
      have hlt' : i < bytes.data.toList.length := by simpa using hlt
      have hget : bytes.get! i = bytes.data.toList[i] := by
        rw [Array.getElem_toList]
        exact getElem!_pos bytes.data i (by simpa using hlt)
      rw [ih, List.drop_eq_getElem_cons hlt', hget]
      simp
  | case2 i done hge =>
      rw [List.drop_eq_nil_of_le (by simpa using hge), List.append_nil]

theorem toList_toByteArray (bytes : List UInt8) : bytes.toByteArray.toList = bytes := by
  show ByteArray.toList.loop _ 0 [] = _
  rw [toList_toByteArray_loop]
  simp

theorem decimal_eq (n : Nat) :
    decimal n = (Nat.toDigits 10 n).flatMap String.utf8EncodeChar := by
  show (String.ofList (Nat.toDigits 10 n)).toByteArray.toList = _
  rw [String.toByteArray_ofList]
  exact toList_toByteArray _

theorem decimal_digit {n : Nat} {b : UInt8} (h : b ∈ decimal n) : IsDigit b := by
  rw [decimal_eq] at h
  obtain ⟨c, hc, hb⟩ := List.mem_flatMap.mp h
  have hdigit := Nat.isDigit_of_mem_toDigits (by decide) (by decide) hc
  rw [Char.isDigit, Bool.and_eq_true, decide_eq_true_eq, decide_eq_true_eq] at hdigit
  obtain ⟨hlow, hhigh⟩ := hdigit
  have hlow' : 48 ≤ c.val.toNat := hlow
  have hhigh' : c.val.toNat ≤ 57 := hhigh
  -- one byte, with the number of the character
  rw [String.utf8EncodeChar_eq_singleton (by
    rw [Char.utf8Size_eq_one_iff, UInt32.le_iff_toNat_le]
    exact hhigh'.trans (by decide)), List.mem_singleton] at hb
  have hval : b.toNat = c.val.toNat := by
    rw [hb, UInt32.toNat_toUInt8, Nat.mod_eq_of_lt (by omega)]
  rw [IsDigit, UInt8.le_iff_toNat_le, UInt8.le_iff_toNat_le, hval]
  exact ⟨hlow', hhigh'⟩

theorem decimal_injective : Function.Injective decimal := by
  intro m n heq
  rw [decimal_eq, decimal_eq] at heq
  have hbytes : (String.ofList (Nat.toDigits 10 m)).toByteArray =
      (String.ofList (Nat.toDigits 10 n)).toByteArray := by
    rw [String.toByteArray_ofList, String.toByteArray_ofList]
    exact List.toByteArray_inj.mpr heq
  have hdigits := String.ofList_injective (String.toByteArray_inj.mp hbytes)
  have hvalue := congrArg (fun digits => Nat.ofDigitChars 10 digits 0) hdigits
  simpa using hvalue

/-! ### The extension -/

/-- The characters an extension is made of. -/
def IsExtensionByte (b : UInt8) : Prop := IsDigit b ∨ IsLower b ∨ b = 46

instance (b : UInt8) : Decidable (IsExtensionByte b) := inferInstanceAs (Decidable (_ ∨ _))

/-- The dotted end of a name is empty, or its only dot is in front. -/
theorem dottedEnd_cases (name : Bytes) :
    dottedEnd name = [] ∨ ∃ behind, dottedEnd name = 46 :: behind ∧ 46 ∉ behind := by
  rw [dottedEnd]
  split
  · exact Or.inl rfl
  · refine Or.inr ⟨_, rfl, ?_⟩
    intro hdot
    have hkept := List.mem_takeWhile_imp (List.mem_reverse.mp hdot)
    simp at hkept

theorem toLower_alnum {b : UInt8} (h : isAlnum b = true) :
    IsDigit (toLower b) ∨ IsLower (toLower b) := by
  simp only [isAlnum, Bool.or_eq_true, Bool.and_eq_true, decide_eq_true_eq,
    UInt8.le_iff_toNat_le, UInt8.toNat_ofNat] at h
  simp only [IsDigit, IsLower, toLower, Bool.and_eq_true, decide_eq_true_eq,
    UInt8.le_iff_toNat_le, UInt8.toNat_ofNat]
  split
  next hupper =>
    right
    rw [UInt8.toNat_add]
    simp only [UInt8.toNat_ofNat]
    omega
  · omega

/-- Behind the dot an extension has at most seven characters, none of them a dot. -/
theorem diskExtension_cases (name : Bytes) :
    diskExtension name = [] ∨ ∃ behind, diskExtension name = 46 :: behind ∧
      behind.length ≤ 7 ∧ ∀ b ∈ behind, IsDigit b ∨ IsLower b := by
  rw [diskExtension]
  rcases dottedEnd_cases name with hnil | ⟨behind, hbehind, hdot⟩
  · left
    rw [hnil]
    rfl
  · right
    rw [hbehind, List.filter_cons_of_pos (by decide), List.map_cons, List.take_succ_cons]
    refine ⟨_, rfl, List.length_take_le _ _, ?_⟩
    intro b hb
    obtain ⟨c, hc, rfl⟩ := List.mem_map.mp (List.mem_of_mem_take hb)
    obtain ⟨hmem, hkept⟩ := List.mem_filter.mp hc
    have hne : c ≠ 46 := fun heq => hdot (heq ▸ hmem)
    exact toLower_alnum (by simpa [hne] using hkept)

theorem diskExtension_bytes {name : Bytes} {b : UInt8} (h : b ∈ diskExtension name) :
    IsExtensionByte b := by
  rcases diskExtension_cases name with hnil | ⟨behind, hbehind, _, hbytes⟩
  · rw [hnil] at h
    cases h
  · rw [hbehind] at h
    rcases List.mem_cons.mp h with rfl | hmem
    · exact Or.inr (Or.inr rfl)
    · exact (hbytes b hmem).imp_right Or.inl

theorem length_diskExtension_le (name : Bytes) : (diskExtension name).length ≤ 8 :=
  List.length_take_le _ _

/-! ### The path -/

theorem not_mem_of_bytes {P : UInt8 → Prop} {bytes : Bytes} {c : UInt8} (h : ∀ b ∈ bytes, P b)
    (hc : ¬ P c) : c ∉ bytes := fun hmem => hc (h c hmem)

/-- A path of attachment `i` of a message, under the directory of a month. -/
structure SafePath (month : Bytes) (messageId : BitVec 64) (i : Nat) (path : Bytes) : Prop where
  form : ∃ ext : Bytes, path = month ++ [47] ++ decimal messageId.toNat ++ [95] ++ decimal i ++ ext ∧
    ext.length ≤ 8 ∧ ∀ b ∈ ext, IsExtensionByte b
  /-- One slash and no backslash. -/
  separators : path.count 47 = 1 ∧ 92 ∉ path
  noParent : ¬ [46, 46] <:+: path

variable {month month' : Bytes} {messageId messageId' : BitVec 64} {i i' : Nat}

theorem count_month (h : IsMonth month) {c : UInt8} (hdigit : ¬ IsDigit c) (hdash : c ≠ 45) :
    month.count c = 0 := by
  refine List.count_eq_zero.mpr fun hmem => ?_
  rcases h.digit_or_dash hmem with hc | hc
  · exact hdigit hc
  · exact hdash hc

theorem count_decimal {n : Nat} {c : UInt8} (hdigit : ¬ IsDigit c) : (decimal n).count c = 0 :=
  List.count_eq_zero.mpr fun hmem => hdigit (decimal_digit hmem)

theorem count_dot_diskExtension (name : Bytes) : (diskExtension name).count 46 ≤ 1 := by
  rcases diskExtension_cases name with hnil | ⟨behind, hbehind, _, hbytes⟩
  · rw [hnil]
    exact Nat.zero_le _
  · have hnone : behind.count 46 = 0 :=
      List.count_eq_zero.mpr (not_mem_of_bytes hbytes (by decide))
    rw [hbehind, List.count_cons_self, hnone]

/-- The characters of a path that are no digits come from the separators and the extension. -/
theorem count_diskPath (h : IsMonth month) {name : Bytes} {c : UInt8} (hdigit : ¬ IsDigit c)
    (hdash : c ≠ 45) :
    (diskPath month messageId i name).count c =
      [47].count c + [95].count c + (diskExtension name).count c := by
  simp only [diskPath, List.count_append]
  rw [count_month h hdigit hdash, count_decimal hdigit, count_decimal hdigit]
  omega

/-- No byte of a path is zero, so it is stored as it is. -/
theorem bindText_diskPath (h : IsMonth month) (name : Bytes) :
    bindText (diskPath month messageId i name) = diskPath month messageId i name := by
  have hcount : (diskPath month messageId i name).count 0 = 0 := by
    rw [count_diskPath h (by decide) (by decide)]
    have hnone : (diskExtension name).count 0 = 0 :=
      List.count_eq_zero.mpr (not_mem_of_bytes (fun b => diskExtension_bytes) (by decide))
    rw [hnone]
    rfl
  refine List.takeWhile_eq_self_iff.mpr fun b hb => ?_
  have hne : b ≠ 0 := by
    rintro rfl
    exact List.count_eq_zero.mp hcount hb
  simpa using hne

theorem diskPath_safePath (h : IsMonth month) (name : Bytes) :
    SafePath month messageId i (diskPath month messageId i name) where
  form := ⟨diskExtension name, rfl, length_diskExtension_le name, fun b => diskExtension_bytes⟩
  separators := by
    constructor
    · have hnone : (diskExtension name).count 47 = 0 :=
        List.count_eq_zero.mpr (not_mem_of_bytes (fun b => diskExtension_bytes) (by decide))
      rw [count_diskPath h (by decide) (by decide), hnone]
      rfl
    · have hnone : (diskExtension name).count 92 = 0 :=
        List.count_eq_zero.mpr (not_mem_of_bytes (fun b => diskExtension_bytes) (by decide))
      refine List.count_eq_zero.mp ?_
      rw [count_diskPath h (by decide) (by decide), hnone]
      rfl
  noParent := by
    intro hparent
    have htwo : 2 ≤ (diskPath month messageId i name).count 46 := hparent.sublist.count_le 46
    rw [count_diskPath h (by decide) (by decide)] at htwo
    have hone := count_dot_diskExtension name
    have hslash : [(47 : UInt8)].count 46 = 0 := rfl
    have hunderscore : [(95 : UInt8)].count 46 = 0 := rfl
    omega

theorem takeWhile_decimal {n : Nat} {rest : Bytes} (h : ∀ b ∈ rest.head?, ¬ IsDigit b) :
    (decimal n ++ rest).takeWhile (fun b => decide (IsDigit b)) = decimal n := by
  rw [List.takeWhile_append_of_pos fun b hb => decide_eq_true (decimal_digit hb)]
  cases rest with
  | nil => exact List.append_nil _
  | cons b rest =>
      have hb : ¬ IsDigit b := h b rfl
      rw [List.takeWhile_cons_of_neg (by simpa using hb), List.append_nil]

/-- A number in front of something else than a digit can be read back. -/
theorem decimal_append_inj {m n : Nat} {xs ys : Bytes} (hx : ∀ b ∈ xs.head?, ¬ IsDigit b)
    (hy : ∀ b ∈ ys.head?, ¬ IsDigit b) (h : decimal m ++ xs = decimal n ++ ys) :
    m = n ∧ xs = ys := by
  have hdigits := congrArg (List.takeWhile fun b => decide (IsDigit b)) h
  rw [takeWhile_decimal hx, takeWhile_decimal hy] at hdigits
  rw [hdigits] at h
  exact ⟨decimal_injective hdigits, List.append_cancel_left h⟩

theorem head_diskExtension {name : Bytes} {b : UInt8} (h : b ∈ (diskExtension name).head?) :
    ¬ IsDigit b := by
  rcases diskExtension_cases name with hnil | ⟨behind, hbehind, _⟩
  · simp [hnil] at h
  · obtain rfl : 46 = b := by simpa [hbehind] using h
    decide

/-- The two numbers can be read back from a path. -/
theorem diskPath_inj (h : IsMonth month) (h' : IsMonth month') {name name' : Bytes}
    (heq : diskPath month messageId i name = diskPath month' messageId' i' name') :
    messageId = messageId' ∧ i = i' := by
  simp only [diskPath, List.append_assoc] at heq
  obtain ⟨_, hbehind⟩ := List.append_inj heq (h.length.trans h'.length.symm)
  have hunderscore : ∀ {rest : Bytes}, ∀ b ∈ ([95] ++ rest).head?, ¬ IsDigit b := by
    intro rest b hb
    obtain rfl : 95 = b := by simpa using hb
    decide
  obtain ⟨hid, hbehind⟩ := decimal_append_inj hunderscore hunderscore
    (List.append_cancel_left hbehind)
  obtain ⟨hindex, _⟩ := decimal_append_inj (fun b => head_diskExtension)
    (fun b => head_diskExtension) (List.append_cancel_left hbehind)
  exact ⟨BitVec.toNat_inj.mp hid, hindex⟩

/-- For every file name: the path an attachment is stored under stays in the directory of
the month, and no other attachment of any message is stored under it. -/
theorem storedPath_safe (h : IsMonth month) (messageId : BitVec 64) (i : Nat) (name : Bytes) :
    SafePath month messageId i (bindText (diskPath month messageId i name)) ∧
      ∀ (month' : Bytes) (messageId' : BitVec 64) (i' : Nat) (name' : Bytes), IsMonth month' →
        (messageId', i') ≠ (messageId, i) →
        bindText (diskPath month' messageId' i' name') ≠
          bindText (diskPath month messageId i name) := by
  rw [bindText_diskPath h]
  refine ⟨diskPath_safePath h name, ?_⟩
  intro month' messageId' i' name' h' hne heq
  rw [bindText_diskPath h'] at heq
  obtain ⟨hid, hindex⟩ := diskPath_inj h' h heq
  exact hne (Prod.ext hid hindex)

/-- November 2026. -/
def november : Bytes := [50, 48, 50, 54, 45, 49, 49]

theorem isMonth_november : IsMonth november :=
  ⟨[50, 48, 50, 54], [49, 49], rfl, rfl, rfl, by simp [IsDigit]⟩

/-- A name that climbs out of its directory. -/
theorem storedPath_safe_climbing :
    SafePath november 7 0
        (bindText (diskPath november 7 0 [46, 46, 47, 46, 46, 92, 0, 46, 83, 200])) ∧
      ∀ (month' : Bytes) (messageId' : BitVec 64) (i' : Nat) (name' : Bytes), IsMonth month' →
        (messageId', i') ≠ (7, 0) →
        bindText (diskPath month' messageId' i' name') ≠
          bindText (diskPath november 7 0 [46, 46, 47, 46, 46, 92, 0, 46, 83, 200]) :=
  storedPath_safe isMonth_november 7 0 [46, 46, 47, 46, 46, 92, 0, 46, 83, 200]

end ChatServer

end Parties

import Mathlib.Algebra.Order.Field.Power
import Mathlib.Data.Int.Log
import Mathlib.Data.Rat.Floor
import Mathlib.Tactic.FieldSimp
import Mathlib.Tactic.Linarith
import Mathlib.Tactic.Positivity

/-!
# Double precision

The arithmetic of `double` on rational numbers: every operation computes the exact
result and rounds it to the nearest number of the format, ties to the even
mantissa, with gradual underflow and with infinities beyond the largest number. A
finite value carries the proof that it belongs to the format. The two zeros are
one value here: nothing but a division by zero tells them apart.
-/

namespace Parties.Binary64

/-! ### The format -/

/-- From here on there is only infinity. -/
def overflow : ℚ := 2 ^ 1024

/-- A mantissa of 53 bits times a power of two, below the overflow. -/
def Representable (q : ℚ) : Prop :=
  (∃ m e : ℤ, |m| < 2 ^ 53 ∧ -1074 ≤ e ∧ q = m * 2 ^ e) ∧ |q| < overflow

theorem Representable.neg {q : ℚ} (h : Representable q) : Representable (-q) := by
  obtain ⟨⟨m, e, hm, he, rfl⟩, hlt⟩ := h
  refine ⟨⟨-m, e, by rwa [abs_neg], he, ?_⟩, by rwa [abs_neg]⟩
  push_cast
  ring

theorem Representable.abs {q : ℚ} (h : Representable q) : Representable |q| := by
  rcases abs_choice q with hq | hq <;> rw [hq]
  · exact h
  · exact h.neg

inductive Double where
  | nan
  | infinity (negative : Bool)
  | finite (q : ℚ) (representable : Representable q)
deriving DecidableEq

/-! ### Rounding -/

/-- The nearest integer, the even one of two. -/
def roundEven (x : ℚ) : ℤ :=
  if x - ⌊x⌋ < 1 / 2 then ⌊x⌋
  else if 1 / 2 < x - ⌊x⌋ then ⌊x⌋ + 1
  else if ⌊x⌋ % 2 = 0 then ⌊x⌋
  else ⌊x⌋ + 1

theorem roundEven_eq (x : ℚ) : roundEven x = ⌊x⌋ ∨ (roundEven x = ⌊x⌋ + 1 ∧ (⌊x⌋ : ℚ) < x) := by
  unfold roundEven
  split
  · exact .inl rfl
  next hfar =>
    have habove : (⌊x⌋ : ℚ) < x := by linarith
    split
    · exact .inr ⟨rfl, habove⟩
    · split
      · exact .inl rfl
      · exact .inr ⟨rfl, habove⟩

theorem le_roundEven {n : ℤ} {x : ℚ} (h : (n : ℚ) ≤ x) : n ≤ roundEven x := by
  have hfloor : n ≤ ⌊x⌋ := Int.le_floor.mpr h
  rcases roundEven_eq x with heq | ⟨heq, _⟩ <;> omega

theorem roundEven_le {n : ℤ} {x : ℚ} (h : x ≤ n) : roundEven x ≤ n := by
  have hfloor : ⌊x⌋ ≤ n := by
    have hle := (Int.floor_le x).trans h
    exact_mod_cast hle
  rcases roundEven_eq x with heq | ⟨heq, habove⟩
  · omega
  · have hlt : (⌊x⌋ : ℚ) < n := lt_of_lt_of_le habove h
    have hlt' : ⌊x⌋ < n := by exact_mod_cast hlt
    omega

theorem roundEven_intCast (n : ℤ) : roundEven n = n :=
  le_antisymm (roundEven_le le_rfl) (le_roundEven le_rfl)

/-- The exponent of the last bit of a mantissa for `q`. -/
def lastBit (q : ℚ) : ℤ := max (Int.log 2 |q| - 52) (-1074)

/-- The nearest number with a mantissa of 53 bits, if there were no overflow. -/
def nearest (q : ℚ) : ℚ := roundEven (q / 2 ^ lastBit q) * 2 ^ lastBit q

theorem two_zpow_pos (e : ℤ) : (0 : ℚ) < 2 ^ e := by positivity

/-- Above the underflow the mantissa has all of its bits. -/
theorem two_zpow_le_abs {q : ℚ} (hq : q ≠ 0) (h : -1074 < lastBit q) :
    (2 : ℚ) ^ (lastBit q + 52) ≤ |q| := by
  have hlast : lastBit q = Int.log 2 |q| - 52 := by
    unfold lastBit at h ⊢
    omega
  have hlog := Int.zpow_log_le_self (b := 2) (by decide : 1 < 2) (abs_pos.mpr hq)
  rw [hlast, sub_add_cancel]
  exact_mod_cast hlog

theorem abs_lt_two_zpow (q : ℚ) : |q| < 2 ^ (lastBit q + 53) := by
  have hlog := Int.lt_zpow_succ_log_self (b := 2) (by decide : 1 < 2) |q|
  have hle : Int.log 2 |q| + 1 ≤ lastBit q + 53 := by
    unfold lastBit
    omega
  have hmono : (2 : ℚ) ^ (Int.log 2 |q| + 1) ≤ 2 ^ (lastBit q + 53) :=
    zpow_le_zpow_right₀ (by norm_num) hle
  have hcast : |q| < (2 : ℚ) ^ (Int.log 2 |q| + 1) := by exact_mod_cast hlog
  exact lt_of_lt_of_le hcast hmono

/-- A number of the format is a whole number of last bits, or it is smaller. -/
theorem Representable.multiple_or_lt {d : ℚ} (hd : Representable d) (q : ℚ) :
    (∃ k : ℤ, d = k * 2 ^ lastBit q) ∨ (-1074 < lastBit q ∧ |d| < 2 ^ (lastBit q + 52)) := by
  obtain ⟨⟨m, e, hm, he, rfl⟩, _⟩ := hd
  by_cases hle : lastBit q ≤ e
  · left
    refine ⟨m * 2 ^ (e - lastBit q).toNat, ?_⟩
    have hsplit : (2 : ℚ) ^ e = 2 ^ (e - lastBit q).toNat * 2 ^ lastBit q := by
      rw [← zpow_natCast, Int.toNat_of_nonneg (by omega), ← zpow_add₀ (by norm_num),
        sub_add_cancel]
    rw [hsplit]
    push_cast
    ring
  · right
    refine ⟨by omega, ?_⟩
    have hbelow : |(m : ℚ) * 2 ^ e| < 2 ^ (53 : ℤ) * 2 ^ e := by
      rw [abs_mul, abs_of_pos (two_zpow_pos e)]
      apply mul_lt_mul_of_pos_right ?_ (two_zpow_pos e)
      exact_mod_cast hm
    apply lt_of_lt_of_le hbelow
    rw [← zpow_add₀ (by norm_num)]
    exact zpow_le_zpow_right₀ (by norm_num) (by omega)

theorem abs_roundEven_le (q : ℚ) : |roundEven (q / 2 ^ lastBit q)| ≤ 2 ^ 53 := by
  have hpos := two_zpow_pos (lastBit q)
  have habs := abs_lt_two_zpow q
  rw [zpow_add₀ (by norm_num)] at habs
  obtain ⟨hlow, hhigh⟩ := abs_lt.mp habs
  apply abs_le.mpr
  constructor
  · apply le_roundEven
    rw [le_div_iff₀ hpos]
    push_cast
    rw [zpow_ofNat] at hlow
    linarith
  · apply roundEven_le
    rw [div_le_iff₀ hpos]
    push_cast
    rw [zpow_ofNat] at hhigh
    linarith

/-- Without overflow the nearest number is one of the format. -/
theorem representable_nearest {q : ℚ} (h : |nearest q| < overflow) :
    Representable (nearest q) := by
  refine ⟨?_, h⟩
  have hlow : -1074 ≤ lastBit q := le_max_right ..
  rcases lt_or_eq_of_le (abs_roundEven_le q) with hlt | heq
  · exact ⟨_, _, hlt, hlow, rfl⟩
  · -- the mantissa was rounded up to a power of two
    rcases (abs_eq (by norm_num)).mp heq with hm | hm
    · refine ⟨2 ^ 52, lastBit q + 1, by norm_num, by omega, ?_⟩
      rw [nearest, hm, zpow_add₀ (by norm_num)]
      push_cast
      ring
    · refine ⟨-2 ^ 52, lastBit q + 1, by norm_num, by omega, ?_⟩
      rw [nearest, hm, zpow_add₀ (by norm_num)]
      push_cast
      ring

theorem nearest_of_multiple {q : ℚ} {k : ℤ} (h : q = k * 2 ^ lastBit q) : nearest q = q := by
  have hdiv : q / 2 ^ lastBit q = k := by
    rw [div_eq_iff (two_zpow_pos _).ne']
    exact h
  rw [nearest, hdiv, roundEven_intCast, ← h]

theorem nearest_zero : nearest 0 = 0 := nearest_of_multiple (k := 0) (by simp)

theorem nearest_of_representable {q : ℚ} (h : Representable q) : nearest q = q := by
  by_cases hzero : q = 0
  · rw [hzero, nearest_zero]
  · rcases h.multiple_or_lt q with ⟨k, hk⟩ | ⟨hlast, hlt⟩
    · exact nearest_of_multiple hk
    · exact absurd hlt (not_lt.mpr (two_zpow_le_abs hzero hlast))

theorem nearest_nonpos {q : ℚ} (h : q ≤ 0) : nearest q ≤ 0 := by
  have hpos := two_zpow_pos (lastBit q)
  have hround : roundEven (q / 2 ^ lastBit q) ≤ 0 :=
    roundEven_le (by exact_mod_cast div_nonpos_of_nonpos_of_nonneg h hpos.le)
  exact mul_nonpos_of_nonpos_of_nonneg (by exact_mod_cast hround) hpos.le

/-- Rounding stays on its side of every number of the format. -/
theorem le_nearest {d q : ℚ} (hd : Representable d) (h : d ≤ q) : d ≤ nearest q := by
  by_cases hzero : q = 0
  · rwa [hzero, nearest_zero, ← hzero]
  · have hpos := two_zpow_pos (lastBit q)
    rcases hd.multiple_or_lt q with ⟨k, hk⟩ | ⟨hlast, hlt⟩
    · rw [hk, ← le_div_iff₀ hpos] at h
      rw [hk, nearest]
      exact mul_le_mul_of_nonneg_right (by exact_mod_cast le_roundEven h) hpos.le
    · have hbits := two_zpow_le_abs hzero hlast
      have hq : 0 < q := by
        by_contra hneg
        have hle : |q| ≤ |d| := abs_le_abs_of_nonpos (not_lt.mp hneg) h
        linarith
      rw [abs_of_pos hq, zpow_add₀ (by norm_num), mul_comm, ← le_div_iff₀ hpos] at hbits
      have hround : 2 ^ 52 ≤ roundEven (q / 2 ^ lastBit q) :=
        le_roundEven (by exact_mod_cast hbits)
      calc d ≤ |d| := le_abs_self d
        _ ≤ 2 ^ 52 * 2 ^ lastBit q := by
          rw [zpow_add₀ (by norm_num), mul_comm] at hlt
          exact_mod_cast hlt.le
        _ ≤ nearest q := mul_le_mul_of_nonneg_right (by exact_mod_cast hround) hpos.le

/-- The number of the format, or an infinity where there is none. -/
def round (q : ℚ) : Double :=
  if h : |nearest q| < overflow then .finite (nearest q) (representable_nearest h)
  else .infinity (q < 0)

theorem round_of_representable {q : ℚ} (h : Representable q) : round q = .finite q h := by
  have hq := nearest_of_representable h
  simp only [round, hq, h.2, ↓reduceDIte]

/-- Whole numbers of up to 53 bits are exact. -/
theorem representable_intCast {n : ℤ} (h : |n| < 2 ^ 53) : Representable n := by
  refine ⟨⟨n, 0, h, by decide, by simp⟩, ?_⟩
  have hlt : |(n : ℚ)| < 2 ^ 53 := by exact_mod_cast h
  apply lt_trans hlt
  exact pow_lt_pow_right₀ (by norm_num) (by decide)

/-! ### Operations -/

namespace Double

def ofInt (n : ℤ) : Double := round n

def abs : Double → Double
  | .nan => .nan
  | .infinity _ => .infinity false
  | .finite q h => .finite |q| h.abs

def mul : Double → Double → Double
  | .nan, _ | _, .nan => .nan
  | .finite p _, .finite q _ => round (p * q)
  | .infinity s, .infinity t => .infinity (s != t)
  | .infinity s, .finite q _ | .finite q _, .infinity s =>
    if q = 0 then .nan else .infinity (s != decide (q < 0))

def add : Double → Double → Double
  | .nan, _ | _, .nan => .nan
  | .finite p _, .finite q _ => round (p + q)
  | .infinity s, .infinity t => if s = t then .infinity s else .nan
  | .infinity s, .finite _ _ | .finite _ _, .infinity s => .infinity s

def neg : Double → Double
  | .nan => .nan
  | .infinity s => .infinity !s
  | .finite q h => .finite (-q) h.neg

def sub (x y : Double) : Double := add x (neg y)

def div : Double → Double → Double
  | .nan, _ | _, .nan => .nan
  | .finite p _, .finite q _ =>
    if q = 0 then (if p = 0 then .nan else .infinity (p < 0)) else round (p / q)
  | .infinity _, .infinity _ => .nan
  | .infinity s, .finite q _ => .infinity (s != decide (q < 0))
  | .finite _ _, .infinity _ => round 0

/-- No comparison with a NaN holds. -/
def lt : Double → Double → Bool
  | .nan, _ | _, .nan => false
  | .finite p _, .finite q _ => p < q
  | .infinity s, .infinity t => s && !t
  | .infinity s, .finite _ _ => s
  | .finite _ _, .infinity s => !s

def le : Double → Double → Bool
  | .nan, _ | _, .nan => false
  | .finite p _, .finite q _ => p ≤ q
  | .infinity s, .infinity t => s || !t
  | .infinity s, .finite _ _ => s
  | .finite _ _, .infinity s => !s

/-- `std::min`. -/
def min (x y : Double) : Double := if lt y x then y else x

/-- `std::clamp`. -/
def clamp (x low high : Double) : Double :=
  if lt x low then low else if lt high x then high else x

/-- Towards zero; the language leaves open what becomes of the other values. -/
def truncate : Double → ℤ
  | .finite q _ => if q < 0 then -⌊-q⌋ else ⌊q⌋
  | _ => 0

/-- `std::llround`: to the nearest integer, away from zero between two. -/
def llround : Double → ℤ
  | .finite q _ => if q < 0 then -⌊-q + 1 / 2⌋ else ⌊q + 1 / 2⌋
  | _ => 0

/-- The exact number is less than the double. -/
def Exceeds : Double → ℚ → Prop
  | .nan, _ => False
  | .infinity negative, _ => negative = false
  | .finite d _, q => q < d

instance (x : Double) (q : ℚ) : Decidable (x.Exceeds q) :=
  match x with
  | .nan => isFalse id
  | .infinity negative => inferInstanceAs (Decidable (negative = false))
  | .finite d _ => inferInstanceAs (Decidable (q < d))

theorem ofInt_eq {n : ℤ} (h : |n| < 2 ^ 53) : ofInt n = .finite n (representable_intCast h) :=
  round_of_representable _

theorem sub_ofInt {m n : ℤ} (hm : |m| < 2 ^ 53) (hn : |n| < 2 ^ 53) :
    (ofInt m).sub (ofInt n) = ofInt (m - n) := by
  rw [ofInt_eq hm, ofInt_eq hn, sub, neg, add, ofInt]
  push_cast
  rw [sub_eq_add_neg]

/-- A result below a number was below it before it was rounded. -/
theorem exceeds_of_lt_round {q : ℚ} {d : Double} (h : lt (Binary64.round q) d = true) :
    d.Exceeds q := by
  cases d with
  | nan => cases hround : Binary64.round q <;> simp [hround, lt] at h
  | infinity negative =>
      cases hround : Binary64.round q <;> simp_all [lt, Exceeds]
  | finite d hd =>
      by_contra hle
      have hnear := le_nearest hd (not_lt.mp hle)
      by_cases hsize : |nearest q| < overflow
      · simp only [Binary64.round, hsize, ↓reduceDIte, lt, decide_eq_true_eq] at h
        linarith
      · simp only [Binary64.round, hsize, ↓reduceDIte, lt, decide_eq_true_eq] at h
        -- an overflow to the left would pass the number
        rw [abs_of_nonpos (nearest_nonpos h.le)] at hsize
        have hbound := (abs_lt.mp hd.2).1
        linarith

end Double

end Parties.Binary64

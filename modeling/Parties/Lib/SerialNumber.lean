import Mathlib.Data.BitVec

/-!
# Serial number arithmetic

Counters that wrap are compared by the sign of their difference: `a` is newer
than `b` when `a - b`, read as a signed number, is positive. The relation is
not transitive on the whole circle. It agrees with the order of the integers on
every window shorter than half the circle, which is what the rebasing lemmas
below make precise.
-/

namespace Parties.Serial

variable {w : Nat}

/-- The signed distance from `b` to `a`. -/
def distance (a b : BitVec w) : Int := (a - b).toInt

/-- `a` lies strictly ahead of `b`. -/
def newer (a b : BitVec w) : Bool := decide (0 < distance a b)

@[simp] theorem newer_iff {a b : BitVec w} : newer a b = true ↔ 0 < distance a b := by
  simp [newer]

@[simp] theorem distance_self (a : BitVec w) : distance a a = 0 := by
  simp [distance]

theorem distance_lt (a b : BitVec w) : distance a b < 2 ^ (w - 1) :=
  BitVec.toInt_lt

theorem distance_inj {a b c : BitVec w} : distance a c = distance b c ↔ a = b := by
  constructor
  · intro h
    have hsub : a - c = b - c := BitVec.toInt_inj.mp h
    simpa using congrArg (· + c) hsub
  · rintro rfl
    rfl

/-- A number is its base advanced by the distance from it. -/
theorem eq_add_distance (a b : BitVec w) : a = b + BitVec.ofInt w (distance a b) := by
  simp only [distance, BitVec.ofInt_toInt]
  rw [BitVec.add_comm, BitVec.sub_add_cancel]

/-- Distances that fit the half circle are additive: moving the base from `b`
to `c` subtracts the distance between them. -/
theorem distance_rebase {a b c : BitVec w} (hw : 0 < w)
    (hlo : -2 ^ (w - 1) ≤ distance a b - distance c b)
    (hhi : distance a b - distance c b < 2 ^ (w - 1)) :
    distance a c = distance a b - distance c b := by
  have hsub : a - c = (a - b) - (c - b) := by
    simp only [BitVec.sub_eq_add_neg, BitVec.neg_add, BitVec.neg_neg]
    grind
  have hpow : (2 : Int) ^ w = 2 * 2 ^ (w - 1) := by
    obtain ⟨v, rfl⟩ := Nat.exists_eq_succ_of_ne_zero hw.ne'
    simp [pow_succ, mul_comm]
  unfold distance at hlo hhi ⊢
  rw [hsub, BitVec.toInt_sub]
  apply Int.bmod_eq_of_le_mul_two
  · push_cast
    omega
  · push_cast
    omega

theorem distance_eq_iff {a b : BitVec w} {k : Int} (hw : 0 < w)
    (hlo : -2 ^ (w - 1) ≤ k) (hhi : k < 2 ^ (w - 1)) :
    distance a b = k ↔ a = b + BitVec.ofInt w k := by
  constructor
  · rintro rfl
    exact eq_add_distance a b
  · rintro rfl
    rw [distance, BitVec.add_comm, BitVec.add_sub_cancel]
    exact BitVec.toInt_ofInt_eq_self hw hlo hhi

/-- The distance of the `k`-th successor, for `k` within the half circle. -/
theorem distance_add_ofNat (b : BitVec w) {k : Nat} (hk : k < 2 ^ (w - 1)) :
    distance (b + BitVec.ofNat w k) b = k := by
  rcases Nat.eq_zero_or_pos w with rfl | hw
  · have hzero : k = 0 := by simpa using hk
    subst hzero
    simp [distance]
  · have hcast : BitVec.ofNat w k = BitVec.ofInt w (k : Int) := by simp
    rw [hcast]
    refine (distance_eq_iff hw ?_ ?_).mpr rfl
    · have hpos : (0 : Int) ≤ 2 ^ (w - 1) := by exact_mod_cast Nat.zero_le (2 ^ (w - 1))
      omega
    · exact_mod_cast hk

theorem distance_eq_one_iff {a b : BitVec w} (hw : 2 ≤ w) :
    distance a b = 1 ↔ a = b + 1 := by
  have htwo : (2 : Int) ≤ 2 ^ (w - 1) := by
    obtain ⟨v, rfl⟩ := Nat.exists_eq_add_of_le hw
    have hexp : 2 + v - 1 = v + 1 := by omega
    have hone : (1 : Int) ≤ 2 ^ v := by exact_mod_cast Nat.one_le_two_pow
    rw [hexp, pow_succ]
    omega
  rw [distance_eq_iff (by omega) (by omega) (by omega)]
  simp

end Parties.Serial

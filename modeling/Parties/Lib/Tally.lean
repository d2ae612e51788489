import Mathlib.Algebra.BigOperators.Group.List.Basic
import Mathlib.Algebra.Order.BigOperators.Group.List

/-!
# Tallies

The sum of what the entries of a list count for, and what becomes of it when an
entry is added or replaced. A counter that parties add to and take from piece by
piece is right if it equals the tally of the pieces that are still out.
-/

namespace Parties

universe u v

variable {ε : Type u} {M : Type v}

/-- The sum of what each entry counts for. -/
def tally [AddMonoid M] (weight : ε → M) (entries : List ε) : M := (entries.map weight).sum

section

variable [AddCommGroup M] {weight : ε → M} {entries : List ε} {i : Nat} {entry entry' : ε}

@[simp] theorem tally_nil : tally weight [] = 0 := rfl

@[simp] theorem tally_cons :
    tally weight (entry :: entries) = weight entry + tally weight entries := by
  simp [tally]

@[simp] theorem tally_concat :
    tally weight (entries ++ [entry]) = tally weight entries + weight entry := by
  simp [tally]

/-- Replace an entry: what it counted for is taken off, the new one is added. -/
theorem tally_set (h : entries[i]? = some entry) :
    tally weight (entries.set i entry') = tally weight entries - weight entry + weight entry' := by
  obtain ⟨hlt, rfl⟩ := List.getElem?_eq_some_iff.mp h
  rw [tally, tally, List.map_set, List.sum_set', dif_pos (by simpa using hlt), List.getElem_map,
    ← add_assoc, ← sub_eq_add_neg]

/-- Those that meet a condition and those that do not. -/
theorem tally_filter_not_add_filter (p : ε → Bool) (entries : List ε) :
    tally weight (entries.filter fun e => !p e) + tally weight (entries.filter p) =
      tally weight entries := by
  induction entries with
  | nil => exact add_zero _
  | cons entry entries ih =>
      rw [tally, tally, tally] at ih
      cases hp : p entry
      · simp [tally, hp, ← ih, add_assoc]
      · simp [tally, hp, ← ih, add_left_comm]

theorem tally_eq_zero (h : ∀ entry ∈ entries, weight entry = 0) : tally weight entries = 0 := by
  apply List.sum_eq_zero
  intro x hx
  obtain ⟨entry, hmem, rfl⟩ := List.mem_map.mp hx
  exact h entry hmem

end

/-- No entry counts for more than all of them. -/
theorem le_tally [AddCommMonoid M] [PartialOrder M] [IsOrderedAddMonoid M] {weight : ε → M}
    {entries : List ε} (hpos : ∀ entry ∈ entries, 0 ≤ weight entry) {entry : ε}
    (h : entry ∈ entries) : weight entry ≤ tally weight entries := by
  apply List.single_le_sum
  · intro x hx
    obtain ⟨entry, hmem, rfl⟩ := List.mem_map.mp hx
    exact hpos entry hmem
  · exact List.mem_map_of_mem h

end Parties

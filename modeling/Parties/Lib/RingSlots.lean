import Mathlib.Logic.Function.Basic
import Mathlib.Data.Nat.ModEq

/-!
# Ring buffers addressed by absolute counters

A ring of `capacity` slots keeps the end of a stream whose items are numbered
without end: item `q` is stored in slot `q % capacity` and stays there until item
`q + capacity` takes its place.
-/

namespace Parties.RingSlots

variable {β : Type*} {capacity : Nat} [NeZero capacity]

def slot (capacity : Nat) [NeZero capacity] (q : Nat) : Fin capacity := Fin.ofNat capacity q

def store (ring : Fin capacity → β) (q : Nat) (item : β) : Fin capacity → β :=
  Function.update ring (slot capacity q) item

/-- Of the `count` items numbered from `first` on, the last `capacity` are in the ring. -/
def Holds (ring : Fin capacity → β) (first count : Nat) (item : Nat → β) : Prop :=
  ∀ k < count, count ≤ k + capacity → ring (slot capacity (first + k)) = item k

/-- Items less than one lap apart have different slots. -/
theorem slot_ne_of_near {a b : Nat} (hlt : a < b) (hnear : b < a + capacity) :
    slot capacity a ≠ slot capacity b := by
  intro heq
  have hmod : a % capacity = b % capacity := congrArg Fin.val heq
  have hdvd : capacity ∣ b - a := (Nat.modEq_iff_dvd' hlt.le).mp hmod
  exact absurd (Nat.le_of_dvd (by omega) hdvd) (by omega)

theorem holds_zero (ring : Fin capacity → β) (first : Nat) (item : Nat → β) :
    Holds ring first 0 item := fun _ hk => absurd hk (Nat.not_lt_zero _)

theorem Holds.congr {ring : Fin capacity → β} {first count : Nat} {item item' : Nat → β}
    (h : Holds ring first count item) (heq : ∀ k < count, item k = item' k) :
    Holds ring first count item' :=
  fun k hk hnear => (h k hk hnear).trans (heq k hk)

/-- Storing the next item overwrites only the item one lap before it. -/
theorem Holds.store {ring : Fin capacity → β} {first count : Nat} {item : Nat → β}
    (h : Holds ring first count item) :
    Holds (RingSlots.store ring (first + count) (item count)) first (count + 1) item := by
  intro k hk hnear
  obtain hold | rfl := Nat.lt_succ_iff_lt_or_eq.mp hk
  · have hne : slot capacity (first + k) ≠ slot capacity (first + count) :=
      slot_ne_of_near (by omega) (by omega)
    rw [RingSlots.store, Function.update_of_ne hne]
    exact h k hold (by omega)
  · exact Function.update_self ..

end Parties.RingSlots

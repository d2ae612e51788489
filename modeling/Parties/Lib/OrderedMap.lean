import Mathlib.Data.List.Sort
import Mathlib.Data.List.Pairwise

/-!
# Ordered maps

A finite map kept as a list of entries in strictly ascending key order, with the
order carried by the structure. Iteration is the list itself, so the first and
the last entry are the smallest and the largest key.
-/

namespace Parties

universe u v

/-- A map from an ordered key type, iterated in ascending key order. -/
structure OrderedMap (κ : Type u) (ν : Type v) [LinearOrder κ] where
  entries : List (κ × ν)
  sorted : entries.Pairwise (fun a b => a.1 < b.1)

namespace OrderedMap

variable {κ : Type u} {ν : Type v} [LinearOrder κ]

@[ext] theorem ext {m n : OrderedMap κ ν} (h : m.entries = n.entries) : m = n := by
  cases m
  cases n
  cases h
  rfl

def empty : OrderedMap κ ν := ⟨[], List.Pairwise.nil⟩

instance : Inhabited (OrderedMap κ ν) := ⟨empty⟩

def size (m : OrderedMap κ ν) : Nat := m.entries.length

def isEmpty (m : OrderedMap κ ν) : Bool := m.entries.isEmpty

def values (m : OrderedMap κ ν) : List ν := m.entries.map Prod.snd

def contains (m : OrderedMap κ ν) (k : κ) : Bool := m.entries.any fun e => decide (e.1 = k)

def find? (m : OrderedMap κ ν) (k : κ) : Option ν :=
  (m.entries.find? fun e => decide (e.1 = k)).map Prod.snd

/-- The entry with the smallest key. -/
def front? (m : OrderedMap κ ν) : Option (κ × ν) := m.entries.head?

/-- The entry with the largest key. -/
def back? (m : OrderedMap κ ν) : Option (κ × ν) := m.entries.getLast?

/-- Keep the entries that satisfy `p`. -/
def filter (p : κ × ν → Bool) (m : OrderedMap κ ν) : OrderedMap κ ν :=
  ⟨m.entries.filter p, m.sorted.filter p⟩

def erase (m : OrderedMap κ ν) (k : κ) : OrderedMap κ ν :=
  m.filter fun e => decide (e.1 ≠ k)

def popFront (m : OrderedMap κ ν) : OrderedMap κ ν := ⟨m.entries.tail, m.sorted.tail⟩

def popBack (m : OrderedMap κ ν) : OrderedMap κ ν :=
  ⟨m.entries.dropLast, m.sorted.sublist (List.dropLast_sublist _)⟩

@[simp] theorem contains_iff {m : OrderedMap κ ν} {k : κ} :
    m.contains k = true ↔ ∃ v, (k, v) ∈ m.entries := by
  simp only [contains, List.any_eq_true, decide_eq_true_eq]
  constructor
  · rintro ⟨⟨k', v⟩, hmem, rfl⟩
    exact ⟨v, hmem⟩
  · rintro ⟨v, hmem⟩
    exact ⟨(k, v), hmem, rfl⟩

theorem contains_eq_false {m : OrderedMap κ ν} {k : κ} :
    m.contains k = false ↔ ∀ e ∈ m.entries, e.1 ≠ k := by
  simp [contains]

private theorem sorted_orderedInsert {m : OrderedMap κ ν} {k : κ} (v : ν)
    (hk : m.contains k = false) :
    (m.entries.orderedInsert (fun a b => a.1 ≤ b.1) (k, v)).Pairwise
      (fun a b => a.1 < b.1) := by
  obtain ⟨entries, hsorted⟩ := m
  rw [contains_eq_false] at hk
  dsimp only at hk ⊢
  induction entries with
  | nil => simp
  | cons e rest ih =>
    have hne : e.1 ≠ k := hk e (by simp)
    rw [List.orderedInsert_cons]
    split
    next hle =>
      have hlt : k < e.1 := lt_of_le_of_ne hle hne.symm
      refine hsorted.cons fun b hb => ?_
      rcases List.mem_cons.mp hb with rfl | hb
      · exact hlt
      · exact hlt.trans (List.rel_of_pairwise_cons hsorted hb)
    next hnle =>
      refine (ih hsorted.of_cons fun e he => hk e (by simp [he])).cons fun b hb => ?_
      rcases (List.mem_orderedInsert _).mp hb with rfl | hb
      · exact not_le.mp hnle
      · exact List.rel_of_pairwise_cons hsorted hb

/-- Insert an entry unless its key is already present. -/
def emplace (m : OrderedMap κ ν) (k : κ) (v : ν) : OrderedMap κ ν :=
  if h : m.contains k = true then m
  else ⟨m.entries.orderedInsert (fun a b => a.1 ≤ b.1) (k, v),
    sorted_orderedInsert v (Bool.eq_false_iff.mpr h)⟩

/-- Insert an entry, replacing the one under the same key. -/
def insert (m : OrderedMap κ ν) (k : κ) (v : ν) : OrderedMap κ ν := (m.erase k).emplace k v

/-- Rebuild the map under new keys; of two values mapped to one key the one
    visited first stays. -/
def rekey (f : ν → κ) (m : OrderedMap κ ν) : OrderedMap κ ν :=
  m.values.foldl (fun acc v => acc.emplace (f v) v) empty

/-! ### Entries of the results -/

@[simp] theorem entries_empty : (empty : OrderedMap κ ν).entries = [] := rfl

@[simp] theorem entries_filter (p : κ × ν → Bool) (m : OrderedMap κ ν) :
    (m.filter p).entries = m.entries.filter p := rfl

@[simp] theorem entries_popFront (m : OrderedMap κ ν) : m.popFront.entries = m.entries.tail := rfl

@[simp] theorem entries_popBack (m : OrderedMap κ ν) : m.popBack.entries = m.entries.dropLast := rfl

@[simp] theorem mem_erase {m : OrderedMap κ ν} {k : κ} {e : κ × ν} :
    e ∈ (m.erase k).entries ↔ e ∈ m.entries ∧ e.1 ≠ k := by
  simp [erase]

theorem isEmpty_iff {m : OrderedMap κ ν} : m.isEmpty = true ↔ m.entries = [] := by
  simp [isEmpty]

theorem emplace_of_contains {m : OrderedMap κ ν} {k : κ} (v : ν) (h : m.contains k = true) :
    m.emplace k v = m := by
  simp [emplace, h]

theorem entries_emplace {m : OrderedMap κ ν} {k : κ} (v : ν) (h : m.contains k = false) :
    (m.emplace k v).entries = m.entries.orderedInsert (fun a b => a.1 ≤ b.1) (k, v) := by
  simp [emplace, h]

theorem entries_emplace_perm {m : OrderedMap κ ν} {k : κ} (v : ν) (h : m.contains k = false) :
    (m.emplace k v).entries.Perm ((k, v) :: m.entries) := by
  rw [entries_emplace v h]
  exact List.perm_orderedInsert _ _ _

theorem mem_emplace {m : OrderedMap κ ν} {k : κ} {v : ν} (h : m.contains k = false)
    {e : κ × ν} : e ∈ (m.emplace k v).entries ↔ e = (k, v) ∨ e ∈ m.entries := by
  rw [(entries_emplace_perm v h).mem_iff, List.mem_cons]

theorem of_mem_emplace {m : OrderedMap κ ν} {k : κ} {v : ν} {e : κ × ν}
    (he : e ∈ (m.emplace k v).entries) : e = (k, v) ∨ e ∈ m.entries := by
  cases h : m.contains k with
  | true =>
    rw [emplace_of_contains v h] at he
    exact Or.inr he
  | false => exact (mem_emplace h).mp he

theorem size_filter_le (p : κ × ν → Bool) (m : OrderedMap κ ν) : (m.filter p).size ≤ m.size :=
  List.length_filter_le _ _

/-- A key names at most one value. -/
theorem value_unique {m : OrderedMap κ ν} {k : κ} {v v' : ν}
    (h : (k, v) ∈ m.entries) (h' : (k, v') ∈ m.entries) : v = v' := by
  by_contra hne
  have hpair : (k, v) ≠ (k, v') := fun heq => hne (congrArg Prod.snd heq)
  have hdistinct : m.entries.Pairwise (fun a b => a.1 ≠ b.1) := m.sorted.imp ne_of_lt
  have : Std.Symm fun a b : κ × ν => a.1 ≠ b.1 := ⟨fun _ _ hab => hab.symm⟩
  exact hdistinct.forall h h' hpair rfl

theorem nodup_entries (m : OrderedMap κ ν) : m.entries.Nodup := by
  refine List.Pairwise.imp (fun {a b} hlt heq => ?_) m.sorted
  rw [heq] at hlt
  exact lt_irrefl _ hlt

/-- Erasing a key removes exactly its entry. -/
theorem entries_erase_perm {m : OrderedMap κ ν} {k : κ} {v : ν} (h : (k, v) ∈ m.entries) :
    m.entries.Perm ((k, v) :: (m.erase k).entries) := by
  have hfresh : (k, v) ∉ (m.erase k).entries := fun hin => (mem_erase.mp hin).2 rfl
  refine (List.perm_ext_iff_of_nodup m.nodup_entries
    ((m.erase k).nodup_entries.cons hfresh)).mpr fun e => ?_
  rw [List.mem_cons, mem_erase]
  constructor
  · intro he
    by_cases hk : e.1 = k
    · obtain ⟨k', v'⟩ := e
      dsimp only at hk
      subst hk
      exact Or.inl (by rw [value_unique he h])
    · exact Or.inr ⟨he, hk⟩
  · rintro (rfl | ⟨he, _⟩)
    · exact h
    · exact he

theorem find?_eq_some_iff {m : OrderedMap κ ν} {k : κ} {v : ν} :
    m.find? k = some v ↔ (k, v) ∈ m.entries := by
  constructor
  · intro h
    simp only [find?, Option.map_eq_some_iff] at h
    obtain ⟨⟨k', v'⟩, hfind, rfl⟩ := h
    have hk : k' = k := by simpa using List.find?_some hfind
    subst hk
    exact List.mem_of_find?_eq_some hfind
  · intro h
    cases hfind : m.entries.find? fun e => decide (e.1 = k) with
    | none =>
      have habsent := List.find?_eq_none.mp hfind (k, v) h
      simp at habsent
    | some e =>
      obtain ⟨k', v'⟩ := e
      have hk : k' = k := by simpa using List.find?_some hfind
      subst hk
      have hv := value_unique (List.mem_of_find?_eq_some hfind) h
      simp [find?, hfind, hv]

/-! ### Rekeying -/

private theorem foldl_emplace_perm (f : ν → κ) (vs : List ν) :
    ∀ acc : OrderedMap κ ν, (∀ v ∈ vs, acc.contains (f v) = false) →
      vs.Pairwise (fun a b => f a ≠ f b) →
      (vs.foldl (fun acc v => acc.emplace (f v) v) acc).entries.Perm
        (vs.map (fun v => (f v, v)) ++ acc.entries) := by
  induction vs with
  | nil => intro acc _ _; exact List.Perm.refl _
  | cons v vs ih =>
    intro acc hfree hdistinct
    have hv := hfree v (by simp)
    have hrest : ∀ v' ∈ vs, (acc.emplace (f v) v).contains (f v') = false := by
      intro v' hv'
      rw [contains_eq_false]
      intro e he
      rcases (mem_emplace hv).mp he with rfl | he
      · exact List.rel_of_pairwise_cons hdistinct hv'
      · exact contains_eq_false.mp (hfree v' (by simp [hv'])) e he
    refine (ih _ hrest hdistinct.of_cons).trans ?_
    refine ((entries_emplace_perm v hv).append_left _).trans ?_
    exact List.perm_middle

/-- Rekeying invents no value. -/
theorem of_mem_rekey {f : ν → κ} {m : OrderedMap κ ν} {e : κ × ν}
    (he : e ∈ (m.rekey f).entries) : e.2 ∈ m.values := by
  have hfrom : ∀ (vs : List ν) (acc : OrderedMap κ ν),
      e ∈ (vs.foldl (fun acc v => acc.emplace (f v) v) acc).entries →
        e.2 ∈ vs ∨ e ∈ acc.entries := by
    intro vs
    induction vs with
    | nil => exact fun acc he => Or.inr he
    | cons v vs ih =>
      intro acc he
      rcases ih _ he with hin | hin
      · exact Or.inl (by simp [hin])
      · rcases of_mem_emplace hin with rfl | hin
        · exact Or.inl (by simp)
        · exact Or.inr hin
  rcases hfrom m.values empty he with hin | hin
  · exact hin
  · simp at hin

/-- When the new keys are distinct, rekeying keeps every value. -/
theorem entries_rekey_perm {f : ν → κ} {m : OrderedMap κ ν}
    (h : m.values.Pairwise (fun a b => f a ≠ f b)) :
    (m.rekey f).entries.Perm (m.values.map fun v => (f v, v)) := by
  have hperm := foldl_emplace_perm f m.values empty (by simp [contains]) h
  rwa [entries_empty, List.append_nil] at hperm

end OrderedMap

end Parties

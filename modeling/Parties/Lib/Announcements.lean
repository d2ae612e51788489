import Mathlib.Data.List.Basic

/-!
# Announcements in flight

Messages on their way along a channel that keeps their order. Each mentions some
items; some introduce new items, some withdraw one. What a receiver may rely on are
two properties of what is still in flight: a new item comes after everything mentioned
before it, and no item is mentioned behind its withdrawal. Both are kept when messages
are put in at the end or taken out at the front.
-/

namespace Parties.Announcements

universe u v

variable {ε : Type u} {ι : Type v}

/-! ### New items come last -/

section NewestLast

variable (older : ι → ι → Prop) (mentions : ε → List ι) (fresh : ε → Prop)

/-- What a fresh message mentions is newer than what was seen and what is ahead of it. -/
def NewestLast (seen : List ι) : List ε → Prop
  | [] => True
  | e :: es => (fresh e → ∀ item ∈ mentions e, ∀ old ∈ seen, older old item) ∧
      NewestLast (seen ++ mentions e) es

variable {older mentions fresh} {seen seen' : List ι} {e : ε} {es es' : List ε}

/-- A receiver that has seen less. -/
theorem NewestLast.mono (h : NewestLast older mentions fresh seen es)
    (hsub : ∀ item ∈ seen', item ∈ seen) : NewestLast older mentions fresh seen' es := by
  induction es generalizing seen seen' with
  | nil => trivial
  | cons e es ih =>
      refine ⟨?_, ih h.2 ?_⟩
      · intro hfresh item hitem old hold
        exact h.1 hfresh item hitem old (hsub old hold)
      · intro item hitem
        rcases List.mem_append.mp hitem with hseen | hmentioned
        · exact List.mem_append_left _ (hsub item hseen)
        · exact List.mem_append_right _ hmentioned

/-- One message more behind the others. -/
theorem NewestLast.concat (h : NewestLast older mentions fresh seen es)
    (hnew : fresh e → ∀ item ∈ mentions e,
      (∀ old ∈ seen, older old item) ∧ ∀ e' ∈ es, ∀ old ∈ mentions e', older old item) :
    NewestLast older mentions fresh seen (es ++ [e]) := by
  induction es generalizing seen with
  | nil => exact ⟨fun hfresh item hitem => (hnew hfresh item hitem).1, trivial⟩
  | cons first es ih =>
      refine ⟨h.1, ih h.2 ?_⟩
      intro hfresh item hitem
      obtain ⟨hseen, hahead⟩ := hnew hfresh item hitem
      refine ⟨?_, fun e' he' => hahead e' (List.mem_cons_of_mem _ he')⟩
      intro old hold
      rcases List.mem_append.mp hold with hold | hold
      · exact hseen old hold
      · exact hahead first List.mem_cons_self old hold

end NewestLast

/-! ### Withdrawn items -/

section Withdrawn

variable (mentions : ε → List ι) (withdraws : ε → ι → Prop)

/-- The withdrawal of the item is among the messages. -/
def Noticed (item : ι) (es : List ε) : Prop := ∃ e ∈ es, withdraws e item

/-- Wherever the item is mentioned, its withdrawal follows. -/
def Withdrawn (item : ι) : List ε → Prop
  | [] => True
  | e :: es => (item ∈ mentions e → Noticed withdraws item es) ∧ Withdrawn item es

variable {mentions withdraws} {item : ι} {e : ε} {es : List ε}

theorem Noticed.concat (h : Noticed withdraws item es) : Noticed withdraws item (es ++ [e]) := by
  obtain ⟨e', he', hwithdraws⟩ := h
  exact ⟨e', List.mem_append_left _ he', hwithdraws⟩

theorem noticed_concat (h : withdraws e item) : Noticed withdraws item (es ++ [e]) :=
  ⟨e, List.mem_append_right _ (List.mem_singleton.mpr rfl), h⟩

/-- A message behind the others that does not mention it. -/
theorem Withdrawn.concat (h : Withdrawn mentions withdraws item es) (hno : item ∉ mentions e) :
    Withdrawn mentions withdraws item (es ++ [e]) := by
  induction es with
  | nil => exact ⟨fun hmentioned => absurd hmentioned hno, trivial⟩
  | cons first es ih => exact ⟨fun hmentioned => (h.1 hmentioned).concat, ih h.2⟩

/-- The withdrawal is put in behind everything. -/
theorem withdrawn_concat (hno : item ∉ mentions e) (h : withdraws e item) :
    Withdrawn mentions withdraws item (es ++ [e]) := by
  induction es with
  | nil => exact ⟨fun hmentioned => absurd hmentioned hno, trivial⟩
  | cons first es ih => exact ⟨fun _ => noticed_concat h, ih⟩

end Withdrawn

end Parties.Announcements

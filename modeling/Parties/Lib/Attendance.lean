import Mathlib.Data.List.Basic
import Mathlib.Logic.Function.Basic

/-!
# Rosters

A host keeps people in rooms and tells its guests what changes. A guest writes a roster
from what it is told. The roster follows the host if everyone who is there has exactly one
entry, and every other entry is of someone whose departure is still to be told. Each kind
of news has a rule that says which change of the host it accounts for.
-/

namespace Parties

universe u v w

/-- What a guest is told. A look is what an entry shows of a person. -/
inductive News (κ : Type u) (ν : Type v) (φ : Type w) where
  | rooms (rooms : List κ)
  | present (room : κ) (people : List (ν × φ))
  | joined (room : κ) (person : ν) (look : φ)
  | left (room : κ) (person : ν)
  | changed (person : ν) (look : φ)

structure Roster (κ : Type u) (ν : Type v) (φ : Type w) where
  rooms : κ → Bool := fun _ => false
  entries : κ → ν → List φ := fun _ _ => []

/-- What the host knows. Those who leave are gone, but the guests are not told yet. -/
structure Attendance (κ : Type u) (ν : Type v) (φ : Type w) where
  rooms : κ → Prop
  here : κ → ν → φ → Prop
  leaving : κ → ν → Prop

variable {κ : Type u} {ν : Type v} {φ : Type w}

/-- Someone who may have an entry. -/
def Attendance.Knows (a : Attendance κ ν φ) (room : κ) (person : ν) : Prop :=
  (∃ look, a.here room person look) ∨ a.leaving room person

namespace Roster

def looksOf [DecidableEq ν] (person : ν) (people : List (ν × φ)) : List φ :=
  (people.filter fun entry => entry.1 = person).map Prod.snd

/-- A room that is not listed has no entries. -/
def setEntries [DecidableEq κ] (r : Roster κ ν φ) (room : κ) (entries : ν → List φ) : Roster κ ν φ :=
  if r.rooms room then { r with entries := Function.update r.entries room entries } else r

def hear [DecidableEq κ] [DecidableEq ν] (r : Roster κ ν φ) : News κ ν φ → Roster κ ν φ
  | .rooms rooms =>
    { rooms := fun room => room ∈ rooms
      entries := fun room => if room ∈ rooms ∧ r.rooms room then r.entries room else fun _ => [] }
  | .present room people => r.setEntries room fun person => looksOf person people
  | .joined room person look => r.setEntries room (Function.update (r.entries room) person [look])
  | .left room person => r.setEntries room (Function.update (r.entries room) person [])
  | .changed person look =>
    { r with entries := fun room =>
        Function.update (r.entries room) person ((r.entries room person).map fun _ => look) }

/-- A guest hears the rooms, and the people of those that are not empty. -/
def welcome [DecidableEq κ] [DecidableEq ν] (r : Roster κ ν φ) (rooms : List κ)
    (people : κ → List (ν × φ)) : Roster κ ν φ :=
  ((rooms.filter fun c => !(people c).isEmpty).map fun c => News.present c (people c)).foldl hear
    (r.hear (.rooms rooms))

/-- The roster of a guest who is shown some of the people follows the host. -/
structure Follows (a : Attendance κ ν φ) (shown : ν → Prop) (r : Roster κ ν φ) : Prop where
  rooms : ∀ room, r.rooms room = true ↔ a.rooms room
  unlisted : ∀ room person, ¬ a.rooms room → r.entries room person = []
  here : ∀ room person look, shown person → a.here room person look →
    r.entries room person = [look]
  known : ∀ room person, shown person → r.entries room person ≠ [] → a.Knows room person

variable {a a' : Attendance κ ν φ} {shown : ν → Prop} {r : Roster κ ν φ} {room c : κ}
  {person p : ν} {look : φ}

/-! ### What is heard -/

section

variable [DecidableEq κ]

theorem rooms_setEntries (entries : ν → List φ) :
    (r.setEntries room entries).rooms = r.rooms := by
  unfold setEntries
  split <;> rfl

theorem entries_setEntries (hroom : r.rooms room = true) (entries : ν → List φ) :
    (r.setEntries room entries).entries c p = if c = room then entries p else r.entries c p := by
  rw [setEntries, if_pos hroom]
  by_cases hc : c = room
  · rw [if_pos hc, hc]
    exact congrFun (Function.update_self ..) p
  · rw [if_neg hc]
    exact congrFun (Function.update_of_ne hc ..) p

theorem setEntries_of_not (hroom : ¬ r.rooms room = true) (entries : ν → List φ) :
    r.setEntries room entries = r := if_neg hroom

end

theorem entries_changed [DecidableEq κ] [DecidableEq ν] :
    (r.hear (.changed person look)).entries c p =
      if p = person then (r.entries c p).map fun _ => look else r.entries c p := by
  by_cases hp : p = person
  · subst hp
    rw [if_pos rfl]
    exact Function.update_self ..
  · rw [if_neg hp]
    exact Function.update_of_ne hp ..

/-- One entry is written. -/
theorem entries_update [DecidableEq κ] [DecidableEq ν] (hroom : r.rooms room = true) (looks : List φ) :
    (r.setEntries room (Function.update (r.entries room) person looks)).entries c p =
      if c = room ∧ p = person then looks else r.entries c p := by
  rw [entries_setEntries hroom]
  by_cases hc : c = room
  · subst hc
    by_cases hp : p = person
    · rw [if_pos rfl, if_pos ⟨rfl, hp⟩, hp, Function.update_self]
    · rw [if_pos rfl, if_neg fun h => hp h.2, Function.update_of_ne hp]
  · rw [if_neg hc, if_neg fun h => hc h.1]

/-! ### A roster that follows -/

namespace Follows

/-- Nothing is told: nobody comes in, and whoever is known stays known. -/
theorem silent (h : r.Follows a shown) (hrooms : ∀ c, a'.rooms c ↔ a.rooms c)
    (hhere : ∀ c p look, shown p → a'.here c p look → a.here c p look)
    (hknows : ∀ c p, shown p → a.Knows c p → a'.Knows c p) : r.Follows a' shown where
  rooms c := (h.rooms c).trans (hrooms c).symm
  unlisted c p hc := h.unlisted c p fun hold => hc ((hrooms c).mpr hold)
  here c p look hp hin := h.here c p look hp (hhere c p look hp hin)
  known c p hp hentry := hknows c p hp (h.known c p hp hentry)

/-- With all departures told, the entries are those of the people who are there. -/
theorem entries_of_settled (h : r.Follows a shown) (hsettled : ∀ c p, ¬ a.leaving c p)
    (hp : shown p) : (∃ look, a.here c p look ∧ r.entries c p = [look]) ∨
      (∀ look, ¬ a.here c p look) ∧ r.entries c p = [] := by
  by_cases hin : ∃ look, a.here c p look
  · obtain ⟨look, hlook⟩ := hin
    exact .inl ⟨look, hlook, h.here c p look hp hlook⟩
  · refine .inr ⟨not_exists.mp hin, ?_⟩
    by_contra hentry
    exact (h.known c p hp hentry).elim hin (hsettled c p)

variable [DecidableEq κ] [DecidableEq ν]

theorem left (h : r.Follows a shown) (hrooms : ∀ c, a'.rooms c ↔ a.rooms c)
    (hhere : ∀ c p look, shown p → a'.here c p look →
      a.here c p look ∧ ¬ (c = room ∧ p = person))
    (hknows : ∀ c p, shown p → a.Knows c p → ¬ (c = room ∧ p = person) → a'.Knows c p) :
    (r.hear (.left room person)).Follows a' shown := by
  have hentries : ∀ c p, (r.hear (.left room person)).entries c p =
      if c = room ∧ p = person then [] else r.entries c p := by
    intro c p
    by_cases hroom : r.rooms room = true
    · exact entries_update hroom []
    · rw [hear, setEntries_of_not hroom]
      split
      next hthis =>
        rw [hthis.1]
        exact h.unlisted room p fun hold => hroom ((h.rooms room).mpr hold)
      · rfl
  refine ⟨fun c => ?_, fun c p hc => ?_, fun c p look hp hin => ?_, fun c p hp hentry => ?_⟩
  · rw [hear, rooms_setEntries]
    exact (h.rooms c).trans (hrooms c).symm
  · rw [hentries]
    split
    · rfl
    · exact h.unlisted c p fun hold => hc ((hrooms c).mpr hold)
  · obtain ⟨hold, hnot⟩ := hhere c p look hp hin
    rw [hentries, if_neg hnot]
    exact h.here c p look hp hold
  · rw [hentries] at hentry
    split at hentry
    · exact absurd rfl hentry
    next hnot =>
      exact hknows c p hp (h.known c p hp hentry) hnot

/-- The departure of someone who is not shown. -/
theorem unseen (h : r.Follows a shown) (hperson : ¬ shown person) :
    (r.hear (.left room person)).Follows a shown :=
  h.left (fun _ => Iff.rfl) (fun _ _ _ hp hin => ⟨hin, fun hthis => hperson (hthis.2 ▸ hp)⟩)
    fun _ _ _ hknows _ => hknows

theorem joined (h : r.Follows a shown) (hroom : a.rooms room)
    (hrooms : ∀ c, a'.rooms c ↔ a.rooms c)
    (hhere : ∀ c p l, shown p → a'.here c p l →
      c = room ∧ p = person ∧ l = look ∨ ¬ (c = room ∧ p = person) ∧ a.here c p l)
    (hknows : ∀ c p, shown p → a.Knows c p → a'.Knows c p)
    (hperson : shown person → a'.Knows room person) :
    (r.hear (.joined room person look)).Follows a' shown := by
  have hentries : ∀ c p, (r.hear (.joined room person look)).entries c p =
      if c = room ∧ p = person then [look] else r.entries c p :=
    fun c p => entries_update ((h.rooms room).mpr hroom) [look]
  refine ⟨fun c => ?_, fun c p hc => ?_, fun c p l hp hin => ?_, fun c p hp hentry => ?_⟩
  · rw [hear, rooms_setEntries]
    exact (h.rooms c).trans (hrooms c).symm
  · have hold : ¬ a.rooms c := fun hold => hc ((hrooms c).mpr hold)
    rw [hentries, if_neg fun hthis : c = room ∧ p = person => hold (hthis.1 ▸ hroom)]
    exact h.unlisted c p hold
  · rw [hentries]
    rcases hhere c p l hp hin with ⟨hc, hperson, rfl⟩ | ⟨hnot, hold⟩
    · rw [if_pos ⟨hc, hperson⟩]
    · rw [if_neg hnot]
      exact h.here c p l hp hold
  · rw [hentries] at hentry
    split at hentry
    next hthis =>
      obtain ⟨rfl, rfl⟩ := hthis
      exact hperson hp
    · exact hknows c p hp (h.known c p hp hentry)

theorem changed (h : r.Follows a shown) (hrooms : ∀ c, a'.rooms c ↔ a.rooms c)
    (hhere : ∀ c p l, shown p → a'.here c p l →
      p = person ∧ l = look ∧ (∃ old, a.here c p old) ∨ p ≠ person ∧ a.here c p l)
    (hknows : ∀ c p, shown p → a.Knows c p → a'.Knows c p) :
    (r.hear (.changed person look)).Follows a' shown := by
  refine ⟨fun c => (h.rooms c).trans (hrooms c).symm, fun c p hc => ?_, fun c p l hp hin => ?_,
    fun c p hp hentry => ?_⟩
  · rw [entries_changed, h.unlisted c p fun hold => hc ((hrooms c).mpr hold)]
    split <;> rfl
  · rw [entries_changed]
    rcases hhere c p l hp hin with ⟨hperson, rfl, old, hold⟩ | ⟨hne, hold⟩
    · rw [if_pos hperson, h.here c p old hp hold]
      rfl
    · rw [if_neg hne]
      exact h.here c p l hp hold
  · rw [entries_changed] at hentry
    refine hknows c p hp (h.known c p hp fun hnone => hentry ?_)
    rw [hnone]
    split <;> rfl

/-- The rooms are listed again. New ones are empty. -/
theorem rooms_told (h : r.Follows a shown) {rooms : List κ} (hrooms : ∀ c, a'.rooms c ↔ c ∈ rooms)
    (hhere : ∀ c p l, shown p → a'.here c p l → c ∈ rooms ∧ a.here c p l)
    (hknows : ∀ c p, shown p → c ∈ rooms → a.Knows c p → a'.Knows c p) :
    (r.hear (.rooms rooms)).Follows a' shown := by
  refine ⟨fun c => ?_, fun c p hc => ?_, fun c p l hp hin => ?_, fun c p hp hentry => ?_⟩
  · rw [hrooms]
    exact decide_eq_true_iff
  · rw [hrooms] at hc
    simp only [hear, if_neg fun hboth : c ∈ rooms ∧ r.rooms c = true => hc hboth.1]
  · obtain ⟨hc, hold⟩ := hhere c p l hp hin
    have hentry := h.here c p l hp hold
    have hlisted : r.rooms c = true := by
      by_contra hnot
      rw [h.unlisted c p fun hold => hnot ((h.rooms c).mpr hold)] at hentry
      cases hentry
    simp only [hear, if_pos (And.intro hc hlisted)]
    exact hentry
  · simp only [hear] at hentry
    split at hentry
    next hboth =>
      exact hknows c p hp hboth.1 (h.known c p hp hentry)
    · exact absurd rfl hentry

/-- All people of a room are told at once. -/
theorem present (h : r.Follows a shown) (hroom : a.rooms room)
    (hrooms : ∀ c, a'.rooms c ↔ a.rooms c) {people : List (ν × φ)}
    (hhere : ∀ c p l, shown p → a'.here c p l →
      c = room ∧ looksOf p people = [l] ∨ c ≠ room ∧ a.here c p l)
    (hknows : ∀ c p, shown p → c ≠ room → a.Knows c p → a'.Knows c p)
    (hpeople : ∀ p, shown p → looksOf p people ≠ [] → a'.Knows room p) :
    (r.hear (.present room people)).Follows a' shown := by
  have hentries : ∀ c p, (r.hear (.present room people)).entries c p =
      if c = room then looksOf p people else r.entries c p :=
    fun c p => entries_setEntries ((h.rooms room).mpr hroom) _
  refine ⟨fun c => ?_, fun c p hc => ?_, fun c p l hp hin => ?_, fun c p hp hentry => ?_⟩
  · rw [hear, rooms_setEntries]
    exact (h.rooms c).trans (hrooms c).symm
  · have hold : ¬ a.rooms c := fun hold => hc ((hrooms c).mpr hold)
    rw [hentries, if_neg fun hthis : c = room => hold (hthis ▸ hroom)]
    exact h.unlisted c p hold
  · rw [hentries]
    rcases hhere c p l hp hin with ⟨hc, hlook⟩ | ⟨hne, hold⟩
    · rw [if_pos hc, hlook]
    · rw [if_neg hne]
      exact h.here c p l hp hold
  · rw [hentries] at hentry
    split at hentry
    next hc =>
      rw [hc]
      exact hpeople p hp hentry
    next hne =>
      exact hknows c p hp hne (h.known c p hp hentry)

end Follows

/-! ### A guest that is new -/

variable [DecidableEq κ] [DecidableEq ν]

/-- The rooms in a list are filled one after the other. -/
theorem entries_presents (people : κ → List (ν × φ)) {rooms : List κ}
    (hrooms : ∀ c ∈ rooms, r.rooms c = true) :
    let r' := (rooms.map fun c => News.present c (people c)).foldl hear r
    r'.rooms = r.rooms ∧ ∀ c p, r'.entries c p =
      if c ∈ rooms then looksOf p (people c) else r.entries c p := by
  induction rooms generalizing r with
  | nil => exact ⟨rfl, fun c p => (if_neg List.not_mem_nil).symm⟩
  | cons first rest ih =>
      have hfirst := hrooms first List.mem_cons_self
      have hsame : (r.hear (.present first (people first))).rooms = r.rooms := rooms_setEntries _
      obtain ⟨hkept, hentries⟩ := ih (r := r.hear (.present first (people first)))
        fun c hc => hsame ▸ hrooms c (List.mem_cons_of_mem _ hc)
      refine ⟨hkept.trans hsame, fun c p => (hentries c p).trans ?_⟩
      rw [hear, entries_setEntries hfirst]
      by_cases hrest : c ∈ rest
      · rw [if_pos hrest, if_pos (List.mem_cons_of_mem _ hrest)]
      · by_cases hc : c = first
        · rw [if_neg hrest, if_pos hc, if_pos (hc ▸ List.mem_cons_self), hc]
        · rw [if_neg hrest, if_neg hc, if_neg]
          exact fun hin => (List.mem_cons.mp hin).elim hc hrest

theorem follows_welcome {people : κ → List (ν × φ)} {rooms : List κ}
    (hrooms : ∀ c, a.rooms c ↔ c ∈ rooms)
    (hhere : ∀ c p l, shown p → a.here c p l → c ∈ rooms ∧ looksOf p (people c) = [l])
    (hpeople : ∀ c ∈ rooms, ∀ p, shown p → looksOf p (people c) ≠ [] → a.Knows c p) :
    (welcome {} rooms people).Follows a shown := by
  have hlisted : ∀ c ∈ rooms.filter fun c => !(people c).isEmpty,
      (hear ({} : Roster κ ν φ) (.rooms rooms)).rooms c = true :=
    fun c hc => decide_eq_true (List.mem_of_mem_filter hc)
  obtain ⟨hsame, hentries⟩ := entries_presents people hlisted
  have hempty : ∀ c p, (hear ({} : Roster κ ν φ) (.rooms rooms)).entries c p = [] := by
    intro c p
    simp [hear]
  refine ⟨fun c => ?_, fun c p hc => ?_, fun c p l hp hin => ?_, fun c p hp hentry => ?_⟩
  · rw [welcome, hsame, hrooms]
    exact decide_eq_true_iff
  · rw [welcome, hentries, hempty, if_neg]
    exact fun hin => hc ((hrooms c).mpr (List.mem_of_mem_filter hin))
  · obtain ⟨hc, hlook⟩ := hhere c p l hp hin
    rw [welcome, hentries, if_pos, hlook]
    refine List.mem_filter.mpr ⟨hc, ?_⟩
    cases hnone : people c with
    | nil =>
        rw [hnone] at hlook
        cases hlook
    | cons entry rest => rfl
  · rw [welcome, hentries, hempty] at hentry
    split at hentry
    next hlisted' =>
      exact hpeople c (List.mem_of_mem_filter hlisted') p hp hentry
    · exact absurd rfl hentry

end Roster

end Parties

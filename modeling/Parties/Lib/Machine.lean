import Mathlib.Data.List.Basic

/-!
# Runs of deterministic machines

A machine is a total step function; what the environment decides is part of the
action. A run folds the step over a list of actions. The rules below lift what
one step preserves to runs, either unconditionally or for the runs whose every
step meets a condition on the state it is taken in.
-/

namespace Parties.Machine

universe u v w

variable {σ : Type u} {α : Type v} {ω : Type w}

/-- The state a run ends in. -/
def run (step : σ → α → σ) (s : σ) (actions : List α) : σ := actions.foldl step s

@[simp] theorem run_nil (step : σ → α → σ) (s : σ) : run step s [] = s := rfl

@[simp] theorem run_cons (step : σ → α → σ) (s : σ) (a : α) (actions : List α) :
    run step s (a :: actions) = run step (step s a) actions := rfl

theorem run_append (step : σ → α → σ) (s : σ) (xs ys : List α) :
    run step s (xs ++ ys) = run step (run step s xs) ys := by
  simp [run]

/-- Every step of the run is taken in a state that meets `P`. -/
def AllSteps (step : σ → α → σ) (P : σ → α → Prop) : σ → List α → Prop
  | _, [] => True
  | s, a :: actions => P s a ∧ AllSteps step P (step s a) actions

@[simp] theorem allSteps_nil {step : σ → α → σ} {P : σ → α → Prop} {s : σ} :
    AllSteps step P s [] := trivial

@[simp] theorem allSteps_cons {step : σ → α → σ} {P : σ → α → Prop} {s : σ} {a : α}
    {actions : List α} :
    AllSteps step P s (a :: actions) ↔ P s a ∧ AllSteps step P (step s a) actions := Iff.rfl

instance AllSteps.decidable {step : σ → α → σ} {P : σ → α → Prop} [∀ s a, Decidable (P s a)] :
    (s : σ) → (actions : List α) → Decidable (AllSteps step P s actions)
  | _, [] => isTrue trivial
  | s, a :: actions =>
    @instDecidableAnd _ _ inferInstance (AllSteps.decidable (step s a) actions)

/-- A condition on the actions alone is met by every step. -/
theorem allSteps_of_forall {step : σ → α → σ} {P : σ → α → Prop} {s : σ} {actions : List α}
    (h : ∀ s, ∀ a ∈ actions, P s a) : AllSteps step P s actions := by
  induction actions generalizing s with
  | nil => trivial
  | cons a actions ih => exact ⟨h s a (by simp), ih fun s a ha => h s a (by simp [ha])⟩

theorem allSteps_append {step : σ → α → σ} {P : σ → α → Prop} {s : σ} {xs ys : List α} :
    AllSteps step P s (xs ++ ys) ↔
      AllSteps step P s xs ∧ AllSteps step P (run step s xs) ys := by
  induction xs generalizing s with
  | nil => simp
  | cons x xs ih => simp [ih, and_assoc]

/-- Two conditions on the steps. -/
theorem allSteps_and {step : σ → α → σ} {P Q : σ → α → Prop} {s : σ} {actions : List α} :
    AllSteps step (fun s a => P s a ∧ Q s a) s actions ↔
      AllSteps step P s actions ∧ AllSteps step Q s actions := by
  induction actions generalizing s with
  | nil => simp
  | cons a actions ih =>
    rw [allSteps_cons, allSteps_cons, allSteps_cons, ih]
    exact and_and_and_comm

/-- What every step that meets `P` preserves holds after every run whose steps
    all meet `P`. -/
theorem run_invariant {step : σ → α → σ} {P : σ → α → Prop} {Inv : σ → Prop}
    (hstep : ∀ s a, Inv s → P s a → Inv (step s a)) {s : σ} {actions : List α}
    (hs : Inv s) (hsteps : AllSteps step P s actions) : Inv (run step s actions) := by
  induction actions generalizing s with
  | nil => exact hs
  | cons a actions ih => exact ih (hstep s a hs hsteps.1) hsteps.2

/-- Under an invariant the steps that meet `P` meet what follows from it. -/
theorem AllSteps.imp {step : σ → α → σ} {P Q : σ → α → Prop} {Inv : σ → Prop}
    (hstep : ∀ s a, Inv s → P s a → Inv (step s a)) (himp : ∀ s a, Inv s → P s a → Q s a)
    {s : σ} {actions : List α} (hs : Inv s) (hsteps : AllSteps step P s actions) :
    AllSteps step Q s actions := by
  induction actions generalizing s with
  | nil => trivial
  | cons a actions ih =>
    exact ⟨himp s a hs hsteps.1, ih (hstep s a hs hsteps.1) hsteps.2⟩

/-- Under an invariant that `P` preserves the steps meet `P` exactly if they meet `Q`. -/
theorem allSteps_iff {step : σ → α → σ} {P Q : σ → α → Prop} {Inv : σ → Prop}
    (hstep : ∀ s a, Inv s → P s a → Inv (step s a)) (hiff : ∀ s a, Inv s → (P s a ↔ Q s a))
    {s : σ} {actions : List α} (hs : Inv s) :
    AllSteps step P s actions ↔ AllSteps step Q s actions := by
  induction actions generalizing s with
  | nil => exact Iff.rfl
  | cons a actions ih =>
    rw [allSteps_cons, allSteps_cons, hiff s a hs]
    exact and_congr_right fun hQ => ih (hstep s a hs ((hiff s a hs).mpr hQ))

/-- What every step preserves holds after every run. -/
theorem run_preserves {step : σ → α → σ} {Inv : σ → Prop}
    (hstep : ∀ s a, Inv s → Inv (step s a)) {s : σ} (hs : Inv s) (actions : List α) :
    Inv (run step s actions) := by
  induction actions generalizing s with
  | nil => exact hs
  | cons a actions ih => exact ih (hstep s a hs)

/-- A machine with outputs, turned into one that keeps the log of its outputs,
    oldest first. -/
def logged (step : σ → α → σ × List ω) (s : σ × List ω) (a : α) : σ × List ω :=
  ((step s.1 a).1, s.2 ++ (step s.1 a).2)

/-- The log only grows, and what a run adds does not depend on what was there. -/
theorem run_logged (step : σ → α → σ × List ω) (s : σ) (log : List ω) (actions : List α) :
    run (logged step) (s, log) actions =
      ((run (logged step) (s, []) actions).1, log ++ (run (logged step) (s, []) actions).2) := by
  induction actions generalizing s log with
  | nil => simp
  | cons a actions ih =>
    simp only [run_cons, logged]
    rw [ih, ih (step s a).1 ([] ++ _)]
    simp [List.append_assoc]

/-- Two machines that stay related and put out the same, as long as their steps meet `P` and `Q`,
have the same logs. -/
theorem logged_simulates {τ β : Type*} {step : σ → α → σ × List ω} {step' : τ → β → τ × List ω}
    {R : σ → τ → Prop} {f : α → β} {P : σ → α → Prop} {Q : τ → β → Prop}
    (hstep : ∀ s t a, R s t → P s a → Q t (f a) →
      R (step s a).1 (step' t (f a)).1 ∧ (step s a).2 = (step' t (f a)).2)
    {s : σ} {t : τ} (h : R s t) (log : List ω) {actions : List α}
    (hP : AllSteps (fun s a => (step s a).1) P s actions)
    (hQ : AllSteps (fun t b => (step' t b).1) Q t (actions.map f)) :
    (run (logged step') (t, log) (actions.map f)).2 = (run (logged step) (s, log) actions).2 := by
  induction actions generalizing s t log with
  | nil => rfl
  | cons a actions ih =>
    obtain ⟨hPa, hP⟩ := hP
    obtain ⟨hQa, hQ⟩ := hQ
    obtain ⟨hrel, hout⟩ := hstep s t a h hPa hQa
    rw [List.map_cons, run_cons, run_cons]
    simp only [logged, ← hout]
    exact ih hrel _ hP hQ

end Parties.Machine

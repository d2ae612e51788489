import Parties.Lib.Machine

/-!
# Laws of event logs

A law says of every event of a log what must have happened in front of it. It is kept event by
event: a log that grows keeps its law if the new events meet it.
-/

namespace Parties.EventLog

universe u

variable {ω : Type u} {P Q : List ω → ω → Prop} {log events : List ω} {e : ω}

/-- Every event of the log meets `P` behind the events in front of it. -/
def Law (P : List ω → ω → Prop) (log : List ω) : Prop :=
  ∀ front e, front ++ [e] <+: log → P front e

@[simp] theorem law_nil : Law P [] := by
  intro front e h
  have hnil := List.prefix_nil.mp h
  simp at hnil

@[simp] theorem law_concat : Law P (log ++ [e]) ↔ Law P log ∧ P log e := by
  constructor
  · intro h
    exact ⟨fun front x hx => h front x (hx.trans (List.prefix_append _ _)),
      h log e (List.prefix_refl _)⟩
  · rintro ⟨hlog, he⟩ front x hx
    obtain hwhole | hin := List.prefix_concat_iff.mp hx
    · obtain ⟨rfl, hlast⟩ := List.append_inj' hwhole rfl
      obtain rfl := List.singleton_inj.mp hlast
      exact he
    · exact hlog front x hin

/-! ### Logs as runs of a history

A history is what is left of a log. The log conforms to it if every event is allowed by what has
become of the events in front of it. A machine accounts for what it puts out if its log conforms
and its states stay related to their histories. -/

variable {σ α η : Type*} {R : σ → η → Prop} {after : η → ω → η} {Allowed : η → ω → Prop}

def Accounts (R : σ → η → Prop) (after : η → ω → η) (Allowed : η → ω → Prop) (h : η)
    (r : σ × List ω) : Prop :=
  Machine.AllSteps after Allowed h r.2 ∧ R r.1 (Machine.run after h r.2)

namespace Accounts

variable {h : η} {s s' : σ} {xs ys : List ω}

theorem quiet (hrel : R s h) : Accounts R after Allowed h (s, []) := ⟨trivial, hrel⟩

theorem event (hallowed : Allowed h e) (hrel : R s (after h e)) :
    Accounts R after Allowed h (s, [e]) := ⟨⟨hallowed, trivial⟩, hrel⟩

theorem append (hxs : Accounts R after Allowed h (s, xs))
    (hys : Accounts R after Allowed (Machine.run after h xs) (s', ys)) :
    Accounts R after Allowed h (s', xs ++ ys) := by
  refine ⟨Machine.allSteps_append.mpr ⟨hxs.1, hys.1⟩, ?_⟩
  rw [Machine.run_append]
  exact hys.2

end Accounts

/-- A machine every step of which accounts for its events does so over whole runs. -/
theorem run_accounts {step : σ → α → σ × List ω}
    (hstep : ∀ s h a, R s h → Accounts R after Allowed h (step s a)) {s : σ} {h : η} (hrel : R s h)
    (actions : List α) :
    Accounts R after Allowed h (Machine.run (Machine.logged step) (s, []) actions) :=
  Machine.run_preserves (fun r a hr => hr.append (hstep r.1 _ a hr.2)) (Accounts.quiet hrel) actions

end Parties.EventLog

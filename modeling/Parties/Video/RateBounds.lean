import Mathlib.Order.MinMax
import Parties.Video.RateController

/-!
# Where the bitrate goes

The adapted bitrate never exceeds the target, and a decrease stops at the floor. The
floor moves with the target, so below the bitrate lies the lowest target of the share,
unless the configured minimum is lower still. Clean windows bring it up again, by at
least one bit per second where a factor would not.
-/

namespace Parties.Video

namespace RateController

/-- A window ends at this action. -/
def closes (c : RateController) : ControllerAction → Bool
  | .tick nowUs => (c.sampled nowUs).windowOver nowUs
  | _ => false

/-- The share goes on, and if a window ends it was clean. -/
def Calm (c : RateController) : ControllerAction → Prop
  | .reset _ => False
  | .tick nowUs =>
    (c.sampled nowUs).windowOver nowUs = true → (c.sampled nowUs).congested = false
  | _ => True

/-- The windows that end in a run. -/
def closedWindows (c : RateController) : List ControllerAction → Nat
  | [] => 0
  | a :: actions => (if c.closes a then 1 else 0) + (c.next a).closedWindows actions

/-- A tick of the run raises the bitrate, or at some point it is at the target. -/
def Climbs (c : RateController) (actions : List ControllerAction) : Prop :=
  (∃ before nowUs after, actions = before ++ .tick nowUs :: after ∧
    (Machine.run next c before).bitrateBps <
      ((Machine.run next c before).tick nowUs).bitrateBps) ∨
  ∃ before after, actions = before ++ after ∧
    (Machine.run next c before).bitrateBps = (Machine.run next c before).cfg.targetBitrateBps

/-! ### What each call does to the rate -/

/-- What decides on the bitrate at the next windows. -/
def rate (c : RateController) : VideoSendControllerConfig × AdaptationConfig × Nat × Nat :=
  (c.cfg, c.adaptation, c.bitrateBps, c.cleanWindows)

@[simp] theorem rate_publishBitrateIfNeeded (c : RateController) (nowUs : Int) (force : Bool) :
    (c.publishBitrateIfNeeded nowUs force).rate = c.rate := by
  rw [publishBitrateIfNeeded]
  split <;> rfl

@[simp] theorem rate_refreshAllowance (c : RateController) :
    c.refreshAllowance.rate = c.rate := rfl

@[simp] theorem rate_sampled (c : RateController) (nowUs : Int) :
    (c.sampled nowUs).rate = c.rate := by
  rw [sampled, openWindow]
  split <;> rfl

/-- The actions that set the rate. -/
def setsRate : ControllerAction → Bool
  | .reset _ | .setTargetBitrate _ | .tick _ => true
  | _ => false

theorem rate_next (c : RateController) {a : ControllerAction} (h : setsRate a = false) :
    (c.next a).rate = c.rate := by
  cases a with
  | reset cfg => cases h
  | setTargetBitrate bps => cases h
  | tick nowUs => cases h
  | connectionStats nowUs rttUs suspectedLost spuriousLost sent =>
      have hsame := congrArg rate
        (c.unsampled_onConnectionStats nowUs rttUs suspectedLost spuriousLost sent)
      exact hsame
  | completed bytes spurious at' =>
      obtain ⟨_, _, hface⟩ := c.toVideoSendController.onCompleted_frame bytes spurious at'
      simp only [next, step, hface]
      rfl
  | admitFrame =>
      obtain ⟨_, _, _, hface⟩ := c.toVideoSendController.admitFrame_frame
      simp only [next, step, hface]
      rfl
  | _ => rfl

/-- A tick leaves the rate as it was, or evaluates a window. -/
theorem rate_tick (c : RateController) (nowUs : Int) :
    (c.tick nowUs).rate =
      if (c.sampled nowUs).windowOver nowUs then
        (((c.sampled nowUs).measure nowUs).adapt (c.sampled nowUs).congested).rate
      else c.rate := by
  rw [tick, rate_publishBitrateIfNeeded, evaluate, rate_refreshAllowance]
  split
  · rfl
  · exact rate_sampled c nowUs

theorem floorBps_le_reducedBps (c : RateController) : c.floorBps ≤ c.reducedBps := le_max_left ..

theorem raisedBps_le (c : RateController) : c.raisedBps ≤ c.cfg.targetBitrateBps :=
  min_le_right ..

/-- Below the target an increase is one, whatever the factor does. -/
theorem lt_raisedBps {c : RateController} (h : c.bitrateBps < c.cfg.targetBitrateBps) :
    c.bitrateBps < c.raisedBps := by
  unfold raisedBps
  dsimp only
  apply lt_min ?_ h
  split
  · exact Nat.lt_succ_self _
  next hfactor =>
    simp only [Bool.and_eq_true, decide_eq_true_eq, not_and, not_lt] at hfactor
    by_contra hstall
    exact absurd h (not_lt.mpr (hfactor (not_lt.mp hstall)))

/-- What holds of the rate in a share whose lowest target was `lowest`. -/
structure Bounds (c : RateController) (lowest : Nat) : Prop where
  le_target : c.bitrateBps ≤ c.cfg.targetBitrateBps
  floor_le : min c.cfg.minBitrateBps lowest ≤ c.bitrateBps
  lowest_le : lowest ≤ c.cfg.targetBitrateBps
  lowest_pos : 0 < lowest
  target_lt : c.cfg.targetBitrateBps < 2 ^ 32
  clean_lt : c.cleanWindows < c.adaptation.cleanWindows

theorem Bounds.of_rate {c d : RateController} {lowest : Nat} (h : c.Bounds lowest)
    (hrate : d.rate = c.rate) : d.Bounds lowest := by
  simp only [rate, Prod.mk.injEq] at hrate
  obtain ⟨hcfg, hadaptation, hbitrate, hclean⟩ := hrate
  obtain ⟨hle, hfloor, hlowest, hpos, hlt, hcounter⟩ := h
  exact ⟨by rwa [hcfg, hbitrate], by rwa [hcfg, hbitrate], by rwa [hcfg], hpos, by rwa [hcfg],
    by rwa [hclean, hadaptation]⟩

theorem reset_bounds (c : RateController) (cfg : ShareConfig) :
    (c.reset cfg).Bounds (c.reset cfg).cfg.targetBitrateBps := by
  have hpos : 0 < if cfg.targetBitrateBps = 0 then 1 else cfg.targetBitrateBps := by
    split <;> omega
  have hlt : (if cfg.targetBitrateBps = 0 then 1 else cfg.targetBitrateBps) < 2 ^ 32 := by
    split
    · decide
    · exact cfg.target_lt
  exact ⟨le_rfl, min_le_right .., le_rfl, hpos, hlt, lt_of_lt_of_le Nat.zero_lt_one (le_max_left ..)⟩

theorem setTargetBitrate_bounds {c : RateController} {lowest bps : Nat} (h : c.Bounds lowest)
    (hbps : bps < 2 ^ 32) :
    (c.setTargetBitrate bps).Bounds (if bps = 0 then lowest else min lowest bps) := by
  obtain ⟨hle, hfloor, hlowest, hpos, hlt, hcounter⟩ := h
  unfold setTargetBitrate
  by_cases hzero : bps = 0
  · rw [if_pos hzero, if_pos hzero]
    exact ⟨hle, hfloor, hlowest, hpos, hlt, hcounter⟩
  · rw [if_neg hzero, if_neg hzero]
    dsimp only
    split
    · refine ⟨le_rfl, ?_, min_le_right .., by omega, hbps, hcounter⟩
      exact (min_le_right ..).trans (min_le_right ..)
    next hstays =>
      refine ⟨not_lt.mp hstays, ?_, min_le_right .., by omega, hbps, hcounter⟩
      exact (min_le_min_left _ (min_le_left ..)).trans hfloor

theorem Bounds.counted {c : RateController} {lowest clean : Nat} (h : c.Bounds lowest)
    (hclean : clean < c.adaptation.cleanWindows) (congestedWindows : Nat) :
    { c with cleanWindows := clean, congestedWindows }.Bounds lowest :=
  ⟨h.le_target, h.floor_le, h.lowest_le, h.lowest_pos, h.target_lt, hclean⟩

/-- The floor of now is not below that of the lowest target. -/
theorem decrease_bounds {c : RateController} {lowest : Nat} (h : c.Bounds lowest) :
    c.decrease.Bounds lowest := by
  unfold decrease
  split
  next hreduced =>
    have hfloor : min c.cfg.minBitrateBps lowest ≤ c.reducedBps :=
      (min_le_min_left c.cfg.minBitrateBps h.lowest_le).trans c.floorBps_le_reducedBps
    exact ⟨hreduced.le.trans h.le_target, hfloor, h.lowest_le, h.lowest_pos, h.target_lt,
      h.clean_lt⟩
  · exact h

theorem increase_bounds {c : RateController} {lowest : Nat} (h : c.Bounds lowest) :
    c.increase.Bounds lowest := by
  unfold increase
  split
  next hraised =>
    exact ⟨c.raisedBps_le, h.floor_le.trans hraised.le, h.lowest_le, h.lowest_pos, h.target_lt,
      h.clean_lt⟩
  · exact h

theorem adapt_bounds {c : RateController} {lowest : Nat} (h : c.Bounds lowest)
    (congested : Bool) : (c.adapt congested).Bounds lowest := by
  have hnone : 0 < c.adaptation.cleanWindows := Nat.zero_lt_of_lt h.clean_lt
  unfold adapt
  split
  · split
    · exact decrease_bounds (h.counted hnone 0)
    · exact h.counted hnone _
  · split
    · exact increase_bounds (h.counted hnone 0)
    next hfew =>
      exact h.counted (not_le.mp hfew) 0

theorem tick_bounds {c : RateController} {lowest : Nat} (h : c.Bounds lowest) (nowUs : Int) :
    (c.tick nowUs).Bounds lowest := by
  have hrate := c.rate_tick nowUs
  split at hrate
  · have hmeasured : ((c.sampled nowUs).measure nowUs).Bounds lowest :=
      h.of_rate (c.rate_sampled nowUs)
    exact (adapt_bounds hmeasured _).of_rate hrate
  · exact h.of_rate hrate

end RateController

/-! ### The bounds -/

/-- A controller with the lowest target of its share. -/
structure TargetRecord where
  controller : RateController
  lowest : Nat

namespace TargetRecord

def start (cfg : ShareConfig) : TargetRecord :=
  { controller := .new cfg, lowest := (RateController.new cfg).cfg.targetBitrateBps }

def lowestAfter (r : TargetRecord) : ControllerAction → Nat
  | .reset cfg => (r.controller.reset cfg).cfg.targetBitrateBps
  | .setTargetBitrate bps => if bps.toNat = 0 then r.lowest else min r.lowest bps.toNat
  | _ => r.lowest

def step (r : TargetRecord) (a : ControllerAction) : TargetRecord :=
  { controller := r.controller.next a, lowest := r.lowestAfter a }

theorem step_bounds (r : TargetRecord) (a : ControllerAction)
    (h : r.controller.Bounds r.lowest) : (r.step a).controller.Bounds (r.step a).lowest := by
  cases a with
  | reset cfg => exact r.controller.reset_bounds cfg
  | setTargetBitrate bps => exact RateController.setTargetBitrate_bounds h bps.toNat_lt
  | tick nowUs => exact RateController.tick_bounds h nowUs
  | _ => exact RateController.Bounds.of_rate h (r.controller.rate_next rfl)

theorem run_bounds (cfg : ShareConfig) (actions : List ControllerAction) :
    (Machine.run step (start cfg) actions).controller.Bounds
      (Machine.run step (start cfg) actions).lowest :=
  Machine.run_preserves step_bounds (RateController.reset_bounds {} cfg) actions

end TargetRecord

/-! ### The way up -/

namespace RateController

theorem lt_increase {c : RateController} (h : c.bitrateBps < c.cfg.targetBitrateBps) :
    c.bitrateBps < c.increase.bitrateBps := by
  have hraised := lt_raisedBps h
  rw [increase, if_pos hraised]
  exact hraised

/-- A clean window raises the bitrate, or is one of those counted up to that. -/
theorem adapt_clean (c : RateController) :
    (c.bitrateBps < c.cfg.targetBitrateBps → c.bitrateBps < (c.adapt false).bitrateBps) ∨
    (c.adapt false).rate = (c.cfg, c.adaptation, c.bitrateBps, c.cleanWindows + 1) := by
  unfold adapt
  rw [if_neg Bool.false_ne_true]
  split
  · left
    intro hlt
    exact @lt_increase { c with congestedWindows := 0, cleanWindows := 0 } hlt
  · exact .inr rfl

theorem tick_clean {c : RateController} {nowUs : Int}
    (hover : (c.sampled nowUs).windowOver nowUs = true)
    (hclean : (c.sampled nowUs).congested = false) :
    (c.bitrateBps < c.cfg.targetBitrateBps → c.bitrateBps < (c.tick nowUs).bitrateBps) ∨
    (c.tick nowUs).rate = (c.cfg, c.adaptation, c.bitrateBps, c.cleanWindows + 1) := by
  have hrate := c.rate_tick nowUs
  have hsame : ((c.sampled nowUs).measure nowUs).rate = c.rate := c.rate_sampled nowUs
  rw [if_pos hover, hclean] at hrate
  simp only [rate, Prod.mk.injEq] at hsame
  obtain ⟨hcfg, hadaptation, hbitrate, hcount⟩ := hsame
  rcases adapt_clean ((c.sampled nowUs).measure nowUs) with hraised | hcounted
  · left
    simp only [rate, Prod.mk.injEq] at hrate
    rw [hrate.2.2.1, ← hbitrate, ← hcfg]
    exact hraised
  · right
    rw [hrate, hcounted, hcfg, hadaptation, hbitrate, hcount]

/-- Between two windows the count of clean ones stands still. -/
theorem clean_of_not_closes {c : RateController} {a : ControllerAction} (hcalm : c.Calm a)
    (hopen : c.closes a = false) :
    (c.next a).adaptation = c.adaptation ∧ (c.next a).cleanWindows = c.cleanWindows := by
  have hsame : ∀ d : RateController, d.rate = c.rate →
      d.adaptation = c.adaptation ∧ d.cleanWindows = c.cleanWindows := by
    intro d hrate
    simp only [rate, Prod.mk.injEq] at hrate
    exact ⟨hrate.2.1, hrate.2.2.2⟩
  cases a with
  | reset cfg => exact hcalm.elim
  | setTargetBitrate bps =>
      rw [next, step]
      unfold setTargetBitrate
      split
      · exact ⟨rfl, rfl⟩
      · dsimp only
        split <;> exact ⟨rfl, rfl⟩
  | tick nowUs =>
      have hrate := c.rate_tick nowUs
      have hopen' : (c.sampled nowUs).windowOver nowUs = false := hopen
      rw [if_neg (by rw [hopen']; exact Bool.false_ne_true)] at hrate
      exact hsame _ hrate
  | _ => exact hsame _ (c.rate_next rfl)

theorem Climbs.cons {c : RateController} {a : ControllerAction} {actions : List ControllerAction}
    (h : (c.next a).Climbs actions) : c.Climbs (a :: actions) := by
  rcases h with ⟨before, nowUs, after, rfl, hraised⟩ | ⟨before, after, rfl, hreached⟩
  · exact .inl ⟨a :: before, nowUs, after, rfl, hraised⟩
  · exact .inr ⟨a :: before, after, rfl, hreached⟩

/-- In a stretch of clean windows that is long enough the bitrate is raised, or it
    reaches the target. -/
theorem climbs_of_clean {c : RateController} {lowest : Nat} (h : c.Bounds lowest)
    {actions : List ControllerAction} (hcalm : Machine.AllSteps next Calm c actions)
    (hclosed : c.adaptation.cleanWindows ≤ c.cleanWindows + c.closedWindows actions) :
    c.Climbs actions := by
  induction actions generalizing c lowest with
  | nil => exact absurd h.clean_lt (not_lt.mpr hclosed)
  | cons a actions ih =>
      obtain ⟨hcalma, hcalm⟩ := hcalm
      by_cases hat : c.bitrateBps = c.cfg.targetBitrateBps
      · exact .inr ⟨[], a :: actions, rfl, hat⟩
      · have hnext : (c.next a).Bounds (TargetRecord.lowestAfter ⟨c, lowest⟩ a) :=
          TargetRecord.step_bounds ⟨c, lowest⟩ a h
        rw [closedWindows] at hclosed
        by_cases hcloses : c.closes a = true
        · cases a with
          | tick nowUs =>
              rcases tick_clean hcloses (hcalma hcloses) with hraised | hcounted
              · exact .inl ⟨[], nowUs, actions, rfl, hraised (lt_of_le_of_ne h.le_target hat)⟩
              · simp only [rate, Prod.mk.injEq] at hcounted
                obtain ⟨_, hadaptation, _, hclean⟩ := hcounted
                rw [if_pos hcloses] at hclosed
                refine (ih hnext hcalm ?_).cons
                simp only [next, step] at hclosed ⊢
                rw [hadaptation, hclean]
                omega
          | _ => cases hcloses
        · rw [Bool.not_eq_true] at hcloses
          obtain ⟨hadaptation, hclean⟩ := clean_of_not_closes hcalma hcloses
          rw [hcloses, if_neg Bool.false_ne_true] at hclosed
          exact (ih hnext hcalm (by rw [hadaptation, hclean]; omega)).cons

instance (c : RateController) : (a : ControllerAction) → Decidable (c.Calm a)
  | .reset _ => isFalse id
  | .tick _ => inferInstanceAs (Decidable (_ → _))
  | .clearOutstanding | .setTargetBitrate _ | .connectionStats _ _ _ _ _ | .enqueued _
  | .completed _ _ _ | .sendFailed | .encoderDrop | .admitFrame | .takeBitrateUpdate
  | .takeKeyframeRequest => isTrue trivial

end RateController

/-- The bitrate of a share: never above the target, never below both the configured
minimum and the lowest target of the share; and wherever the run stands, as many clean
windows as the configuration asks for raise it, unless it reaches the target first. None
of this depends on the factors. -/
theorem bitrate_bounded (cfg : ShareConfig) (actions : List ControllerAction) :
    let r := Machine.run TargetRecord.step (.start cfg) actions
    r.controller.bitrateBps ≤ r.controller.cfg.targetBitrateBps ∧
      min r.controller.cfg.minBitrateBps r.lowest ≤ r.controller.bitrateBps ∧
      ∀ later, Machine.AllSteps RateController.next RateController.Calm r.controller later →
        r.controller.adaptation.cleanWindows ≤ r.controller.closedWindows later →
        r.controller.Climbs later := by
  have hbounds := TargetRecord.run_bounds cfg actions
  refine ⟨hbounds.le_target, hbounds.floor_le, ?_⟩
  intro later hcalm hclosed
  exact RateController.climbs_of_clean hbounds hcalm (by omega)

/-- At one bit per second of three, where a tenth more rounds to nothing. -/
theorem bitrate_bounded_tiny :
    let c := (Machine.run TargetRecord.step (.start { targetBitrateBps := 1 })
      [.setTargetBitrate 3]).controller
    c.bitrateBps = 1 ∧ scaleBitrate 1 c.adaptation.increaseFactor = 1 ∧
      c.Climbs [.tick 0, .tick 500000, .tick 1000000] := by
  refine ⟨by decide +kernel, by decide +kernel, ?_⟩
  exact (bitrate_bounded { targetBitrateBps := 1 } [.setTargetBitrate 3]).2.2 _
    (by decide +kernel) (by decide +kernel)

end Parties.Video

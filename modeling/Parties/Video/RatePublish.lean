import Parties.Video.RateBounds

/-!
# What the encoder is told

The published bitrate against the adapted one. Two gates hold a periodic publication
back: a change that is small for the published value, unless the bitrate has reached a
bound, and the time since the last periodic one. Whenever the second gate is open a tick
leaves no more between the two than the first gate allows.
-/

namespace Parties.Video

open Binary64

/-! ### The record of the notices -/

/-- The bitrate published last. -/
def Notice.lastPublished : List Notice → Nat := fun log =>
  log.foldl (fun published n =>
    match n with
    | .restarted bps | .forced bps | .periodic _ bps => bps
    | .taken _ => published) 0

/-- The time of the last periodic publication; a reset counts as one at time 0. -/
def Notice.lastPeriodic : List Notice → Int := fun log =>
  log.foldl (fun time n =>
    match n with
    | .restarted _ => 0
    | .periodic nowUs _ => nowUs
    | .forced _ | .taken _ => time) 0

/-- The bitrate published since the last take, the latest one of them. -/
def Notice.untaken : List Notice → Option Nat := fun log =>
  log.foldl (fun _ n =>
    match n with
    | .restarted bps | .forced bps | .periodic _ bps => some bps
    | .taken _ => none) none

namespace RateController

/-- A run with the record of its notices, from the reset that starts the share. -/
def runNotices (cfg : ShareConfig) (actions : List ControllerAction) :
    RateController × List Notice :=
  Machine.run (Machine.logged step) (new cfg, [.restarted (new cfg).bitrateBps]) actions

/-- The published bitrate is the adapted one if that is at a bound, and else differs by
    less than the configured share of it. -/
def Abreast (c : RateController) (published : Nat) : Prop :=
  ((c.bitrateBps = c.cfg.targetBitrateBps ∨ c.bitrateBps = c.floorBps) →
    published = c.bitrateBps) ∧
  (published = c.bitrateBps ∨
    c.adaptation.minReconfigureDelta.Exceeds (|(c.bitrateBps : ℚ) - published| / published))

/-- The state agrees with the record. -/
structure Records (c : RateController) (log : List Notice) : Prop where
  published : c.publishedBitrate = Notice.lastPublished log
  time : c.lastPublishUs = Notice.lastPeriodic log
  pending : c.pendingBitrate = (Notice.untaken log).getD 0
  untaken_pos : ∀ bps ∈ Notice.untaken log, 0 < bps
  published_pos : 0 < c.publishedBitrate
  published_lt : c.publishedBitrate < 2 ^ 32

/-! ### What each call does to what was published -/

/-- What was published and whether it was taken. -/
def notices (c : RateController) : Nat × Int × Nat :=
  (c.publishedBitrate, c.lastPublishUs, c.pendingBitrate)

theorem notices_evaluate (c : RateController) (nowUs : Int) :
    (c.evaluate nowUs).notices = c.notices :=
  congrArg (fun beside => beside.2.1) (c.besidesWindow_evaluate nowUs)

/-- The actions that publish or take. -/
def speaks : ControllerAction → Bool
  | .reset _ | .setTargetBitrate _ | .tick _ | .takeBitrateUpdate => true
  | _ => false

/-- The others say nothing and leave what was published alone. -/
theorem step_silent (c : RateController) {a : ControllerAction} (h : speaks a = false) :
    (c.step a).2 = [] ∧ (c.step a).1.notices = c.notices := by
  cases a with
  | reset cfg => cases h
  | setTargetBitrate bps => cases h
  | tick nowUs => cases h
  | takeBitrateUpdate => cases h
  | connectionStats nowUs rttUs suspectedLost spuriousLost sent =>
      have hsame := congrArg notices
        (c.unsampled_onConnectionStats nowUs rttUs suspectedLost spuriousLost sent)
      exact ⟨rfl, hsame⟩
  | completed bytes spurious at' =>
      obtain ⟨_, _, hface⟩ := c.toVideoSendController.onCompleted_frame bytes spurious at'
      refine ⟨rfl, ?_⟩
      simp only [step, hface]
      rfl
  | admitFrame =>
      obtain ⟨_, _, _, hface⟩ := c.toVideoSendController.admitFrame_frame
      refine ⟨rfl, ?_⟩
      simp only [step, hface]
      rfl
  | _ => exact ⟨rfl, rfl⟩

/-! ### The record -/

theorem Records.of_notices {c d : RateController} {log : List Notice} (h : c.Records log)
    (hsame : d.notices = c.notices) : d.Records log := by
  simp only [notices, Prod.mk.injEq] at hsame
  obtain ⟨hpublished, htime, hpending⟩ := hsame
  exact ⟨hpublished.trans h.published, htime.trans h.time, hpending.trans h.pending,
    h.untaken_pos, hpublished ▸ h.published_pos, hpublished ▸ h.published_lt⟩

/-- A publication of the bitrate, as one of the notices. -/
theorem Records.publish {c : RateController} {log : List Notice} {n : Notice} {nowUs : Int}
    (hpublished : Notice.lastPublished (log ++ [n]) = c.bitrateBps)
    (htime : Notice.lastPeriodic (log ++ [n]) = nowUs)
    (huntaken : Notice.untaken (log ++ [n]) = some c.bitrateBps)
    (hpos : 0 < c.bitrateBps) (hlt : c.bitrateBps < 2 ^ 32) :
    (c.publish nowUs).Records (log ++ [n]) := by
  refine ⟨hpublished.symm, htime.symm, ?_, ?_, hpos, hlt⟩
  · rw [huntaken]
    rfl
  · intro bps hbps
    rw [huntaken] at hbps
    cases hbps
    exact hpos

/-- What every state of a run meets whose configurations have a minimum. -/
structure Sound (c : RateController) (log : List Notice) : Prop where
  bounds : ∃ lowest, c.Bounds lowest
  min_pos : 0 < c.cfg.minBitrateBps
  records : c.Records log

theorem bitrate_pos {c : RateController} {lowest : Nat} (h : c.Bounds lowest)
    (hmin : 0 < c.cfg.minBitrateBps) : 0 < c.bitrateBps :=
  lt_of_lt_of_le (lt_min hmin h.lowest_pos) h.floor_le

theorem Sound.bitrate_pos {c : RateController} {log : List Notice} (h : c.Sound log) :
    0 < c.bitrateBps := by
  obtain ⟨lowest, hbounds⟩ := h.bounds
  exact RateController.bitrate_pos hbounds h.min_pos

/-- The minimum a reset brings along is not zero. -/
def HasMinimum : ControllerAction → Prop
  | .reset cfg => 1 ≤ cfg.minBitrateBps
  | _ => True

theorem cfg_evaluate (c : RateController) (nowUs : Int) : (c.evaluate nowUs).cfg = c.cfg :=
  congrArg (fun beside => beside.1.1) (c.besidesWindow_evaluate nowUs)

theorem min_pos_next {c : RateController} (h : 0 < c.cfg.minBitrateBps) {a : ControllerAction}
    (ha : HasMinimum a) : 0 < (c.next a).cfg.minBitrateBps := by
  have hsame : ∀ d : RateController, d.rate = c.rate → 0 < d.cfg.minBitrateBps := by
    intro d hrate
    simp only [rate, Prod.mk.injEq] at hrate
    rwa [hrate.1]
  cases a with
  | reset cfg => exact ha
  | setTargetBitrate bps =>
      rw [next, step]
      unfold setTargetBitrate
      split
      · exact h
      · dsimp only
        split <;> exact h
  | tick nowUs =>
      have hrate := rate_publishBitrateIfNeeded (c.evaluate nowUs) nowUs false
      simp only [rate, Prod.mk.injEq] at hrate
      rw [next, step, tick, hrate.1, cfg_evaluate]
      exact h
  | _ => exact hsame _ (c.rate_next rfl)

theorem reset_records (c : RateController) (cfg : ShareConfig) (log : List Notice)
    (hmin : 1 ≤ cfg.minBitrateBps) :
    (c.reset cfg).Records (log ++ [.restarted (c.reset cfg).bitrateBps]) := by
  have hbounds := c.reset_bounds cfg
  have hpos : 0 < (c.reset cfg).bitrateBps := bitrate_pos hbounds hmin
  have hlt : (c.reset cfg).bitrateBps < 2 ^ 32 :=
    lt_of_le_of_lt hbounds.le_target hbounds.target_lt
  have hpublished : ((c.reset cfg).publish 0).Records
      (log ++ [.restarted (c.reset cfg).bitrateBps]) := by
    apply Records.publish
    · exact List.foldl_concat ..
    · exact List.foldl_concat ..
    · exact List.foldl_concat ..
    · exact hpos
    · exact hlt
  exact hpublished

/-- A lowered target is published, and does not move the time of the last publication. -/
theorem setTargetBitrate_records {c : RateController} {log : List Notice} (h : c.Records log)
    (bps : UInt32) :
    (c.setTargetBitrate bps.toNat).Records
      (log ++ (c.step (.setTargetBitrate bps)).2) := by
  by_cases hlowers : bps.toNat ≠ 0 ∧ bps.toNat < c.bitrateBps
  · obtain ⟨hzero, hlt⟩ := hlowers
    let lowered : RateController :=
      { c with cfg := { c.cfg with targetBitrateBps := bps.toNat }, bitrateBps := bps.toNat }
    have hpublish : c.setTargetBitrate bps.toNat =
        lowered.refreshAllowance.publish c.lastPublishUs := by
      rw [setTargetBitrate, if_neg hzero]
      exact if_pos hlt
    rw [hpublish, step, if_pos ⟨hzero, hlt⟩]
    apply Records.publish
    · exact List.foldl_concat ..
    · rw [h.time]
      exact List.foldl_concat ..
    · exact List.foldl_concat ..
    · exact Nat.pos_of_ne_zero hzero
    · exact bps.toNat_lt
  · have hsame : (c.setTargetBitrate bps.toNat).notices = c.notices := by
      unfold setTargetBitrate
      split
      · rfl
      next hzero =>
        dsimp only
        split
        next hlt =>
          exact absurd ⟨hzero, hlt⟩ hlowers
        · rfl
    rw [step, if_neg hlowers, List.append_nil]
    exact h.of_notices hsame

theorem tick_eq (c : RateController) (nowUs : Int) :
    c.tick nowUs =
      if (c.evaluate nowUs).publishDue nowUs then (c.evaluate nowUs).publish nowUs
      else c.evaluate nowUs := by
  rw [tick, publishBitrateIfNeeded, Bool.false_or]

/-- The bitrate a tick comes to is within the bounds before it is published. -/
theorem evaluate_bounds {c : RateController} {lowest : Nat} (h : c.Bounds lowest) (nowUs : Int) :
    (c.evaluate nowUs).Bounds lowest := by
  apply (tick_bounds h nowUs).of_rate
  rw [tick, rate_publishBitrateIfNeeded]

theorem tick_records {c : RateController} {log : List Notice} {lowest : Nat}
    (hbounds : c.Bounds lowest) (hmin : 0 < c.cfg.minBitrateBps) (h : c.Records log)
    (nowUs : Int) : (c.tick nowUs).Records (log ++ (c.step (.tick nowUs)).2) := by
  have hevaluated := evaluate_bounds hbounds nowUs
  have hmin' : 0 < (c.evaluate nowUs).cfg.minBitrateBps := by rwa [cfg_evaluate]
  rw [tick_eq, step]
  split
  · apply Records.publish
    · exact List.foldl_concat ..
    · exact List.foldl_concat ..
    · exact List.foldl_concat ..
    · exact bitrate_pos hevaluated hmin'
    · exact lt_of_le_of_lt hevaluated.le_target hevaluated.target_lt
  · rw [List.append_nil]
    exact h.of_notices (c.notices_evaluate nowUs)

theorem takeBitrateUpdate_spec {c : RateController} {log : List Notice} (h : c.Records log) :
    c.takeBitrateUpdate.2 = Notice.untaken log ∧
      c.takeBitrateUpdate.1.Records (log ++ [.taken c.takeBitrateUpdate.2]) := by
  constructor
  · rw [takeBitrateUpdate, h.pending]
    cases huntaken : Notice.untaken log with
    | none => rfl
    | some bps =>
        have hpos := h.untaken_pos bps huntaken
        exact if_neg hpos.ne'
  · have huntaken : Notice.untaken (log ++ [.taken c.takeBitrateUpdate.2]) = none :=
      List.foldl_concat ..
    have hpublished : Notice.lastPublished (log ++ [.taken c.takeBitrateUpdate.2]) =
        Notice.lastPublished log := List.foldl_concat ..
    have htime : Notice.lastPeriodic (log ++ [.taken c.takeBitrateUpdate.2]) =
        Notice.lastPeriodic log := List.foldl_concat ..
    refine ⟨h.published.trans hpublished.symm, h.time.trans htime.symm, ?_, ?_,
      h.published_pos, h.published_lt⟩
    · rw [huntaken]
      rfl
    · intro bps hbps
      rw [huntaken] at hbps
      cases hbps

/-- Every action keeps the record. -/
theorem step_sound {c : RateController} {log : List Notice} (h : c.Sound log)
    {a : ControllerAction} (ha : HasMinimum a) :
    (c.step a).1.Sound (log ++ (c.step a).2) := by
  obtain ⟨⟨lowest, hbounds⟩, hmin, hrecords⟩ := h
  have hnext := TargetRecord.step_bounds ⟨c, lowest⟩ a hbounds
  refine ⟨⟨_, hnext⟩, min_pos_next hmin ha, ?_⟩
  by_cases hspeaks : speaks a = true
  · cases a with
    | reset cfg => exact c.reset_records cfg log ha
    | setTargetBitrate bps => exact setTargetBitrate_records hrecords bps
    | tick nowUs => exact tick_records hbounds hmin hrecords nowUs
    | takeBitrateUpdate => exact (takeBitrateUpdate_spec hrecords).2
    | _ => cases hspeaks
  · obtain ⟨hsilent, hsame⟩ := c.step_silent (Bool.not_eq_true _ ▸ hspeaks)
    rw [hsilent, List.append_nil]
    exact hrecords.of_notices hsame

/-! ### The gates -/

/-- What the delta gate holds back is less than the configured share, also before it was
    rounded. -/
theorem exceeds_of_publishDelta {c : RateController} (hbitrate : c.bitrateBps < 2 ^ 32)
    (hpos : 0 < c.publishedBitrate) (hpublished : c.publishedBitrate < 2 ^ 32)
    (h : c.publishDelta.lt c.adaptation.minReconfigureDelta = true) :
    c.adaptation.minReconfigureDelta.Exceeds
      (|(c.bitrateBps : ℚ) - c.publishedBitrate| / c.publishedBitrate) := by
  apply Double.exceeds_of_lt_round
  have hb : |(c.bitrateBps : ℤ)| < 2 ^ 53 := by
    rw [Nat.abs_cast]
    omega
  have hp : |(c.publishedBitrate : ℤ)| < 2 ^ 53 := by
    rw [Nat.abs_cast]
    omega
  have hdiff : |(c.bitrateBps : ℤ) - c.publishedBitrate| < 2 ^ 53 := by
    rw [abs_lt]
    omega
  have hne : (((c.publishedBitrate : ℕ) : ℤ) : ℚ) ≠ 0 := by
    exact_mod_cast hpos.ne'
  have hdelta : c.publishDelta =
      Binary64.round (|(c.bitrateBps : ℚ) - c.publishedBitrate| / c.publishedBitrate) := by
    rw [publishDelta, Double.sub_ofInt hb hp, Double.ofInt_eq hdiff, Double.ofInt_eq hp, Double.abs,
      Double.div, if_neg hne]
    push_cast
    rfl
  rwa [← hdelta]

theorem adaptation_evaluate (c : RateController) (nowUs : Int) :
    (c.evaluate nowUs).adaptation = c.adaptation :=
  congrArg (fun beside => beside.1.2) (c.besidesWindow_evaluate nowUs)

/-- Where the time gate is open, a tick that publishes nothing has nothing to publish. -/
theorem abreast_of_not_due {c : RateController} {nowUs : Int} (hbitrate : c.bitrateBps < 2 ^ 32)
    (hpos : 0 < c.publishedBitrate) (hpublished : c.publishedBitrate < 2 ^ 32)
    (hopen : c.adaptation.minReconfigureMs * 1000 ≤ nowUs - c.lastPublishUs)
    (hdue : ¬ c.publishDue nowUs = true) : c.Abreast c.publishedBitrate := by
  unfold publishDue at hdue
  split at hdue
  next hsame =>
    exact ⟨fun _ => hsame.symm, .inl hsame.symm⟩
  · split at hdue
    next hsmall =>
      simp only [Bool.and_eq_true, Bool.not_eq_true', decide_eq_true_eq] at hsmall
      obtain ⟨⟨_, hbound⟩, hdelta⟩ := hsmall
      refine ⟨fun hat => ?_, .inr (exceeds_of_publishDelta hbitrate hpos hpublished hdelta)⟩
      rw [atBound, Bool.or_eq_false_iff, decide_eq_false_iff_not, decide_eq_false_iff_not] at hbound
      exact (not_or.mpr hbound hat).elim
    · rw [Bool.not_eq_true', Bool.not_eq_false, decide_eq_true_eq] at hdue
      exact absurd hdue (not_lt.mpr hopen)

theorem tick_abreast {c : RateController} {log : List Notice} (h : c.Sound log) {nowUs : Int}
    (hopen : c.adaptation.minReconfigureMs * 1000 ≤ nowUs - c.lastPublishUs) :
    (c.tick nowUs).Abreast (c.tick nowUs).publishedBitrate := by
  obtain ⟨lowest, hbounds⟩ := h.bounds
  have hevaluated := evaluate_bounds hbounds nowUs
  have hsame := c.notices_evaluate nowUs
  simp only [notices, Prod.mk.injEq] at hsame
  obtain ⟨hpublished, htime, _⟩ := hsame
  rw [tick_eq]
  split
  · exact ⟨fun _ => rfl, .inl rfl⟩
  next hdue =>
    have hbitrate := lt_of_le_of_lt hevaluated.le_target hevaluated.target_lt
    have hpos := h.records.published_pos
    have hlt := h.records.published_lt
    rw [← hpublished] at hpos hlt
    rw [← c.adaptation_evaluate nowUs, ← htime] at hopen
    exact abreast_of_not_due hbitrate hpos hlt hopen hdue

/-- A periodic publication waits for the time gate. -/
theorem periodic_spaced {c : RateController} {nowUs : Int}
    (hdue : c.publishDue nowUs = true) :
    c.adaptation.minReconfigureMs * 1000 ≤ nowUs - c.lastPublishUs := by
  unfold publishDue at hdue
  split at hdue
  · cases hdue
  · split at hdue
    · cases hdue
    · rw [Bool.not_eq_true', decide_eq_false_iff_not] at hdue
      exact not_lt.mp hdue

theorem run_sound {cfg : ShareConfig} (hcfg : 1 ≤ cfg.minBitrateBps)
    {actions : List ControllerAction} (hactions : ∀ a ∈ actions, HasMinimum a) :
    (runNotices cfg actions).1.Sound (runNotices cfg actions).2 := by
  have hstart : (new cfg).Sound [.restarted (new cfg).bitrateBps] :=
    ⟨⟨_, RateController.reset_bounds {} cfg⟩, hcfg, reset_records {} cfg [] hcfg⟩
  have hstep : ∀ (s : RateController × List Notice) a, s.1.Sound s.2 → HasMinimum a →
      (Machine.logged step s a).1.Sound (Machine.logged step s a).2 :=
    fun _ _ hs ha => step_sound hs ha
  have hsteps : Machine.AllSteps (Machine.logged step) (fun _ a => HasMinimum a)
      (new cfg, [.restarted (new cfg).bitrateBps]) actions :=
    Machine.allSteps_of_forall fun _ a ha => hactions a ha
  exact @Machine.run_invariant _ _ _ _ (fun s => s.1.Sound s.2) hstep _ _ hstart hsteps

theorem periodic_of_mem {c : RateController} {a : ControllerAction} {nowUs : Int} {bps : Nat}
    (h : .periodic nowUs bps ∈ (c.step a).2) : (c.evaluate nowUs).publishDue nowUs = true := by
  cases a with
  | tick time =>
      rw [step] at h
      split at h
      next hdue =>
        obtain ⟨rfl, _⟩ := Notice.periodic.inj (List.mem_singleton.mp h)
        exact hdue
      · cases h
  | setTargetBitrate target =>
      rw [step] at h
      split at h
      · cases List.mem_singleton.mp h
      · cases h
  | reset cfg => cases List.mem_singleton.mp h
  | takeBitrateUpdate => cases List.mem_singleton.mp h
  | _ => cases h

theorem taken_of_mem {c : RateController} {a : ControllerAction} {update : Option Nat}
    (h : .taken update ∈ (c.step a).2) : update = c.takeBitrateUpdate.2 := by
  cases a with
  | tick time =>
      rw [step] at h
      split at h
      · cases List.mem_singleton.mp h
      · cases h
  | setTargetBitrate target =>
      rw [step] at h
      split at h
      · cases List.mem_singleton.mp h
      · cases h
  | reset cfg => cases List.mem_singleton.mp h
  | takeBitrateUpdate => exact Notice.taken.inj (List.mem_singleton.mp h)
  | _ => cases h

/-- What is asked of a state with its record, whatever comes next: if it is a tick that
    finds the time gate open, it leaves the published bitrate abreast of the adapted one;
    what is published periodically comes no sooner than the time gate allows; and what is
    taken is the bitrate published since the last take. -/
structure Told (c : RateController) (log : List Notice) : Prop where
  abreast : ∀ nowUs,
    c.adaptation.minReconfigureMs * 1000 ≤ nowUs - Notice.lastPeriodic log →
    (c.tick nowUs).Abreast (Notice.lastPublished (log ++ (c.step (.tick nowUs)).2))
  spaced : ∀ a nowUs bps, .periodic nowUs bps ∈ (c.step a).2 →
    c.adaptation.minReconfigureMs * 1000 ≤ nowUs - Notice.lastPeriodic log
  taken : ∀ a update, .taken update ∈ (c.step a).2 → update = Notice.untaken log

theorem Sound.told {c : RateController} {log : List Notice} (h : c.Sound log) : c.Told log := by
  refine ⟨?_, ?_, ?_⟩
  · intro nowUs hopen
    rw [← h.records.time] at hopen
    have hafter := step_sound h (a := .tick nowUs) trivial
    rw [← hafter.records.published]
    exact tick_abreast h hopen
  · intro a nowUs bps hmem
    have hspaced := periodic_spaced (periodic_of_mem hmem)
    have hsame := c.notices_evaluate nowUs
    simp only [notices, Prod.mk.injEq] at hsame
    rwa [adaptation_evaluate, hsame.2.1, h.records.time] at hspaced
  · intro a update hmem
    rw [taken_of_mem hmem]
    exact (takeBitrateUpdate_spec h.records).1

end RateController

open RateController in
/-- What the encoder is told in a run whose configurations all have a minimum of at least
one bit per second. -/
theorem never_stranded (cfg : ShareConfig) (hcfg : 1 ≤ cfg.minBitrateBps)
    (actions : List ControllerAction) (hactions : ∀ a ∈ actions, HasMinimum a) :
    (runNotices cfg actions).1.Told (runNotices cfg actions).2 :=
  (run_sound hcfg hactions).told

open RateController in
/-- A target that is lowered and raised again: the forced publication is the one the next
tick compares with, and the one taken. -/
theorem never_stranded_lowered :
    (runNotices {} [.setTargetBitrate 1000000, .setTargetBitrate 2000000]).1.Told
      [.restarted 2000000, .forced 1000000] :=
  never_stranded {} (by decide) [.setTargetBitrate 1000000, .setTargetBitrate 2000000] (by
    intro a ha
    simp only [List.mem_cons, List.not_mem_nil, or_false] at ha
    rcases ha with rfl | rfl <;> trivial)

/-- The times of the actions, in their order. -/
def ControllerAction.timeUs : ControllerAction → Option Int
  | .connectionStats nowUs _ _ _ _ | .tick nowUs => some nowUs
  | _ => none

def Notice.periodicTime : Notice → Option Int
  | .periodic nowUs _ => some nowUs
  | _ => none

open RateController in
/-- Nothing is less than a share of zero: with that the two may be equal and yet do not
differ by less. And the time gate begins anew with a reset: two periodic publications on
either side of one may be closer than the gate. -/
theorem not_never_stranded :
    ¬ (∀ (cfg : ShareConfig) (actions : List ControllerAction) (nowUs : Int),
      1 ≤ cfg.minBitrateBps → (∀ a ∈ actions, HasMinimum a) →
      ((actions ++ [ControllerAction.tick nowUs]).filterMap ControllerAction.timeUs).Pairwise
        (· ≤ ·) →
      (runNotices cfg actions).1.adaptation.minReconfigureMs * 1000 ≤
        nowUs - Notice.lastPeriodic (runNotices cfg actions).2 →
      let after := runNotices cfg (actions ++ [.tick nowUs])
      after.1.bitrateBps = after.1.cfg.targetBitrateBps ∨ after.1.bitrateBps = after.1.floorBps ∨
        after.1.adaptation.minReconfigureDelta.Exceeds
          (|(after.1.bitrateBps : ℚ) - Notice.lastPublished after.2| /
            Notice.lastPublished after.2)) ∧
    ¬ (∀ (cfg : ShareConfig) (actions : List ControllerAction),
      1 ≤ cfg.minBitrateBps → (∀ other, .reset other ∈ actions → other = cfg) →
      (actions.filterMap ControllerAction.timeUs).Pairwise (· ≤ ·) →
      ((runNotices cfg actions).2.filterMap Notice.periodicTime).Pairwise
        fun earlier later => (cfg.minReconfigureMs * 1000 : Int) ≤ later - earlier) := by
  constructor
  · intro h
    have hstranded := h
      { targetBitrateBps := 1000000, minReconfigureDelta := Double.ofInt 0 }
      [.setTargetBitrate 2000000] 500000 (by decide)
      (by
        intro a ha
        rw [List.mem_singleton.mp ha]
        trivial)
      (by decide) (by decide +kernel)
    exact absurd hstranded (by decide +kernel)
  · intro h
    have hspaced := h { windowMs := 1, congestedWindows := 1 }
      [.tick 0, .sendFailed, .tick 600000, .reset { windowMs := 1, congestedWindows := 1 },
        .tick 700000, .sendFailed, .tick 800000] (by decide)
      (by
        intro other hother
        simpa using hother)
      (by decide)
    exact absurd hspaced (by decide +kernel)

end Parties.Video

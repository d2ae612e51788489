import Mathlib.Data.List.Chain
import Parties.Video.FrameReorderInvariant

/-!
# When the reorder buffer reports a loss

A call first hands on frames and then, at most once and as its last callback, reports a
loss. The flag `lossReported` says whether the last callback since the first keyframe was
such a report, so two reports always have a delivery between them.
-/

namespace Parties.Video

variable {φ : Type}

def ReorderEvent.isLoss : ReorderEvent φ → Bool
  | .lost _ => true
  | .deliver _ _ => false

def ReorderEvent.isKeyframe : ReorderEvent φ → Bool
  | .lost _ => false
  | .deliver hdr _ => hdr.keyframe

/-- Two calls of `lost` have a delivery between them. -/
def LossesApart (log : List (ReorderEvent φ)) : Prop :=
  log.IsChain fun x y => ¬ (x.isLoss = true ∧ y.isLoss = true)

/-- A loss was reported since the last delivery. -/
def LastIsLoss (log : List (ReorderEvent φ)) : Prop :=
  ∃ e ∈ log.getLast?, e.isLoss = true

namespace VideoFrameReorderBuffer

variable {b : VideoFrameReorderBuffer φ} {nowUs : Int}

/-! ### The recovery part of a call -/

/-- `r` is the outcome of recovery calls on `b`: at most one report, of the frame behind the
    last delivered one, and none while a keyframe is in flight. -/
structure Reports (b : VideoFrameReorderBuffer φ) (nowUs : Int)
    (r : VideoFrameReorderBuffer φ × List (ReorderEvent φ)) : Prop where
  haveLast : r.1.haveLast = b.haveLast
  lastDelivered : r.1.lastDelivered = b.lastDelivered
  loss : r.1.lossReported = true → r.1.awaitingKeyframe = true
  report : (r.2 = [] ∧ r.1.lossReported = b.lossReported) ∨
    (r.2 = [.lost (b.lastDelivered + 1)] ∧ b.haveLast = true ∧ b.lossReported = false ∧
      r.1.lossReported = true ∧ r.1.keyframeInFlight nowUs = false)

theorem Reports.refl (hloss : b.lossReported = true → b.awaitingKeyframe = true) :
    Reports b nowUs (b, []) :=
  ⟨rfl, rfl, hloss, .inl ⟨rfl, rfl⟩⟩

theorem reportLoss_reports (hhave : b.haveLast = true)
    (hloss : b.lossReported = true → b.awaitingKeyframe = true)
    (hquiet : b.keyframeInFlight nowUs = false) : Reports b nowUs b.reportLoss := by
  rw [reportLoss]
  cases hreported : b.lossReported with
  | true => exact .refl hloss
  | false =>
      cases hawaiting : b.awaitingKeyframe with
      | false => exact .refl hloss
      | true =>
          rw [if_neg (by decide)]
          exact ⟨rfl, rfl, fun _ => rfl, .inr ⟨rfl, hhave, hreported, rfl, hquiet⟩⟩

theorem requireKeyframe_reports (hhave : b.haveLast = true)
    (hloss : b.lossReported = true → b.awaitingKeyframe = true) :
    Reports b nowUs (b.requireKeyframe nowUs) := by
  rw [requireKeyframe]
  cases hawaiting : b.awaitingKeyframe with
  | true => exact .refl hloss
  | false =>
      have hreported : b.lossReported = false := by
        rw [Bool.eq_false_iff]
        intro hreported
        rw [hloss hreported] at hawaiting
        cases hawaiting
      have hstart : ∀ r, Reports { b with awaitingKeyframe := true, lossReported := false } nowUs r →
          Reports b nowUs r := by
        rintro r ⟨hhave', hlast, hawaits, hreport⟩
        refine ⟨hhave', hlast, hawaits, ?_⟩
        rw [hreported]
        exact hreport
      apply hstart
      simp only [Bool.false_eq_true, if_false]
      cases hflight : { b with awaitingKeyframe := true, lossReported := false }.keyframeInFlight
          nowUs with
      | true => exact .refl fun _ => rfl
      | false => exact reportLoss_reports hhave (fun _ => rfl) hflight

/-- Changes of the held and the aborted frames do not matter for the reports. -/
theorem Reports.frame {r r' : VideoFrameReorderBuffer φ × List (ReorderEvent φ)}
    {b₀ : VideoFrameReorderBuffer φ} (h : Reports b₀ nowUs r)
    (hstart : b₀.haveLast = b.haveLast ∧ b₀.lastDelivered = b.lastDelivered ∧
      b₀.lossReported = b.lossReported)
    (hend : r'.1 = { r.1 with
      held := r'.1.held
      heldBytes := r'.1.heldBytes
      gapSinceUs := r'.1.gapSinceUs
      aborted := r'.1.aborted }) (hevents : r'.2 = r.2) : Reports b nowUs r' := by
  obtain ⟨hhave, hlast, hreported⟩ := hstart
  refine ⟨?_, ?_, ?_, ?_⟩
  · rw [hend]
    exact h.haveLast.trans hhave
  · rw [hend]
    exact h.lastDelivered.trans hlast
  · rw [hend]
    exact h.loss
  · have hreport := h.report
    rw [hhave, hlast, hreported] at hreport
    rw [hevents, hend]
    exact hreport

/-! ### A call -/

/-- A call at `nowUs` hands on `handed` and ends with recovery calls. -/
structure CallReports (b : VideoFrameReorderBuffer φ) (nowUs : Int)
    (r : VideoFrameReorderBuffer φ × List (ReorderEvent φ)) : Prop where
  parts : ∃ m handed losses, Reports m nowUs (r.1, losses) ∧ r.2 = handed ++ losses ∧
    (∀ e ∈ handed, e.isLoss = false) ∧
    (handed = [] → m.lossReported = b.lossReported ∧ m.haveLast = b.haveLast) ∧
    (handed ≠ [] → m.lossReported = false ∧ m.haveLast = true) ∧
    (r.1.haveLast = true → b.haveLast = true ∨ ∃ e ∈ handed, e.isKeyframe = true)

/-- A call that hands on nothing. -/
theorem Reports.call {r : VideoFrameReorderBuffer φ × List (ReorderEvent φ)}
    (h : Reports b nowUs r) : CallReports b nowUs r := by
  refine ⟨b, [], r.2, h, rfl, nofun, fun _ => ⟨rfl, rfl⟩, fun hne => absurd rfl hne, fun hhave => ?_⟩
  rw [h.haveLast] at hhave
  exact .inl hhave

variable [FrameBytes φ]

/-- A call that resumes with a frame. -/
theorem resumeAt_callReports {b' : VideoFrameReorderBuffer φ} (hdr : VideoFrameHeader) (frame : φ)
    (hhave : b'.haveLast = true) (hreported : b'.lossReported = false)
    (hfirst : b.haveLast = true ∨ hdr.keyframe = true) :
    CallReports b nowUs (b'.resumeAt hdr frame nowUs) := by
  obtain ⟨taken, m, hdrains, hresume⟩ := resumeAt_drains b' hdr frame nowUs
  have hframe := hdrains.frame
  rw [forgetInflightThrough_eq] at hframe
  have hhave' : m.haveLast = true := by rw [hframe]; exact hhave
  have hreported' : m.lossReported = false := by rw [hframe]; exact hreported
  have hcheck : Reports m.settled nowUs (m.settled.checkNext nowUs) := by
    have hloss : m.settled.lossReported = true → m.settled.awaitingKeyframe = true := by
      intro hyes
      rw [show m.settled.lossReported = m.lossReported from rfl, hreported'] at hyes
      cases hyes
    rw [checkNext]
    split
    · exact requireKeyframe_reports hhave' hloss
    · exact .refl hloss
  refine ⟨m.settled, .deliver hdr frame :: taken.map deliverHeld,
    (m.settled.checkNext nowUs).2, ?_, ?_, ?_, fun hnil => absurd hnil (List.cons_ne_nil _ _),
    fun _ => ⟨hreported', hhave'⟩, fun _ => ?_⟩
  · rw [hresume]
    exact hcheck
  · rw [hresume, List.cons_append]
  · intro e he
    rcases List.mem_cons.mp he with rfl | htaken
    · rfl
    · obtain ⟨entry, _, rfl⟩ := List.mem_map.mp htaken
      rfl
  · exact hfirst.imp_right fun hkey => ⟨_, List.mem_cons_self, hkey⟩

omit [FrameBytes φ] in
/-- A call without callbacks that leaves the recovery flags alone. -/
theorem quiet_callReports {b' : VideoFrameReorderBuffer φ}
    (hloss : b.lossReported = true → b.awaitingKeyframe = true)
    (hhave : b'.haveLast = b.haveLast) (hawaiting : b'.awaitingKeyframe = b.awaitingKeyframe)
    (hreported : b'.lossReported = b.lossReported) : CallReports b nowUs (b', []) := by
  have hloss' : b'.lossReported = true → b'.awaitingKeyframe = true := by
    rw [hawaiting, hreported]
    exact hloss
  refine ⟨b', [], [], .refl hloss', rfl, nofun, fun _ => ⟨hreported, hhave⟩,
    fun hne => absurd rfl hne, fun hyes => ?_⟩
  rw [← hhave]
  exact .inl hyes

theorem boundHeld_frame (b : VideoFrameReorderBuffer φ) :
    b.boundHeld = { b with
      held := b.boundHeld.held
      heldBytes := b.boundHeld.heldBytes
      gapSinceUs := b.boundHeld.gapSinceUs } := by
  rw [boundHeld, (boundHeldLoop_evicts b.held.size b).frame]

theorem onStartupDelta_callReports (hloss : b.lossReported = true → b.awaitingKeyframe = true)
    (hdr : VideoFrameHeader) (frame : φ) :
    CallReports b nowUs (b.onStartupDelta hdr frame nowUs, []) := by
  have hkept : ∀ b' : VideoFrameReorderBuffer φ, b'.haveLast = b.haveLast →
      b'.awaitingKeyframe = b.awaitingKeyframe → b'.lossReported = b.lossReported →
      CallReports b nowUs (if b'.held.contains (b'.keyFor hdr.frameSeq) then b'
        else (b'.hold hdr frame nowUs).boundHeld, []) := by
    intro b' hhave hawaiting hreported
    split
    · exact quiet_callReports hloss hhave hawaiting hreported
    · rw [boundHeld_frame]
      exact quiet_callReports hloss hhave hawaiting hreported
  rw [onStartupDelta]
  cases b.held.isEmpty with
  | true => exact hkept _ rfl rfl rfl
  | false => exact hkept _ rfl rfl rfl

theorem onGapDelta_callReports (hhave : b.haveLast = true)
    (hloss : b.lossReported = true → b.awaitingKeyframe = true) (hdr : VideoFrameHeader)
    (frame : φ) : CallReports b nowUs (b.onGapDelta hdr frame nowUs) := by
  rw [onGapDelta]
  split
  · exact quiet_callReports hloss rfl rfl rfl
  · obtain ⟨b', hb'⟩ : ∃ b', b' = (if b.held.isEmpty then { b with gapSinceUs := nowUs } else b).hold
        hdr frame nowUs := ⟨_, rfl⟩
    have hstart : b'.haveLast = b.haveLast ∧ b'.lastDelivered = b.lastDelivered ∧
        b'.lossReported = b.lossReported ∧ b'.awaitingKeyframe = b.awaitingKeyframe := by
      rw [hb']
      cases b.held.isEmpty with
      | true => exact ⟨rfl, rfl, rfl, rfl⟩
      | false => exact ⟨rfl, rfl, rfl, rfl⟩
    obtain ⟨hhave', hlast', hreported', hawaiting'⟩ := hstart
    dsimp only
    rw [← hb']
    have hloss' : b'.lossReported = true → b'.awaitingKeyframe = true := by
      rw [hreported', hawaiting']
      exact hloss
    have hrequire : Reports b' nowUs (b'.requireKeyframe nowUs) :=
      requireKeyframe_reports (hhave'.trans hhave) hloss'
    split
    · apply Reports.call
      apply hrequire.frame ⟨hhave', hlast', hreported'⟩
      · rw [boundHeld_frame]
      · rfl
    · split
      · exact (hrequire.frame ⟨hhave', hlast', hreported'⟩ rfl rfl).call
      · exact quiet_callReports hloss hhave' hawaiting' hreported'

theorem onFrame_callReports (hloss : b.lossReported = true → b.awaitingKeyframe = true)
    (hdr : VideoFrameHeader) (frame : φ) : CallReports b nowUs (b.onFrame hdr frame nowUs) := by
  rw [onFrame]
  split
  · exact quiet_callReports hloss rfl rfl rfl
  · cases hhave : b.haveLast with
    | false =>
        cases hkey : hdr.keyframe with
        | false => exact onStartupDelta_callReports hloss hdr frame
        | true => exact resumeAt_callReports hdr frame rfl rfl (.inr hkey)
    | true =>
        simp only [Bool.not_true, Bool.false_eq_true, if_false]
        split
        · exact resumeAt_callReports hdr frame hhave rfl (.inl hhave)
        · split
          · exact resumeAt_callReports hdr frame hhave rfl (.inl hhave)
          · exact onGapDelta_callReports hhave hloss hdr frame

omit [FrameBytes φ] in
theorem onFrameStarted_callReports (hloss : b.lossReported = true → b.awaitingKeyframe = true)
    (hdr : VideoFrameHeader) : CallReports b nowUs (b.onFrameStarted hdr nowUs, []) := by
  rw [onFrameStarted]
  split
  · exact quiet_callReports hloss rfl rfl rfl
  · split
    · exact quiet_callReports hloss rfl rfl rfl
    · split
      · exact quiet_callReports hloss rfl rfl rfl
      · exact quiet_callReports hloss rfl rfl rfl

theorem noteAborted_frame (b : VideoFrameReorderBuffer φ) (frameSeq : BitVec 32) :
    b.noteAborted frameSeq = { b with
      held := (b.noteAborted frameSeq).held
      heldBytes := (b.noteAborted frameSeq).heldBytes
      gapSinceUs := (b.noteAborted frameSeq).gapSinceUs
      aborted := (b.noteAborted frameSeq).aborted } := by
  rw [noteAborted]
  split
  · rfl
  · split
    · rfl
    · rfl

omit [FrameBytes φ] in
/-- The report that follows when the keyframe in flight is the one that died. -/
theorem Reports.reportLoss {r : VideoFrameReorderBuffer φ × List (ReorderEvent φ)}
    (h : Reports b nowUs r) (hhave : b.haveLast = true)
    (hquiet : r.1.keyframeInFlight nowUs = false) :
    Reports b nowUs (r.1.reportLoss.1, r.2 ++ r.1.reportLoss.2) := by
  have hmore : Reports r.1 nowUs r.1.reportLoss :=
    reportLoss_reports (h.haveLast.trans hhave) h.loss hquiet
  refine ⟨hmore.haveLast.trans h.haveLast, hmore.lastDelivered.trans h.lastDelivered, hmore.loss, ?_⟩
  rcases h.report with ⟨hnone, hkept⟩ | ⟨hsome, hhave', hbefore, hreported, hflight⟩
  · have hreport := hmore.report
    rw [h.haveLast, h.lastDelivered, hkept] at hreport
    rw [hnone, List.nil_append]
    exact hreport
  · rcases hmore.report with ⟨hnone, hkept⟩ | ⟨_, _, hunreported, _⟩
    · have hfrozen : r.1.reportLoss = (r.1, []) := by
        rw [VideoFrameReorderBuffer.reportLoss, hreported]
        rfl
      rw [hfrozen, List.append_nil]
      exact .inr ⟨hsome, hhave', hbefore, hreported, hflight⟩
    · rw [hreported] at hunreported
      cases hunreported

theorem onFrameAborted_callReports (hloss : b.lossReported = true → b.awaitingKeyframe = true)
    (frameSeq : BitVec 32) : CallReports b nowUs (b.onFrameAborted frameSeq nowUs) := by
  rw [onFrameAborted]
  obtain ⟨died, hdied⟩ : ∃ died, died = (b.inflightKey && decide (frameSeq = b.inflightKeySeq)) :=
    ⟨_, rfl⟩
  obtain ⟨b', hb'⟩ : ∃ b', b' = if died then { b with inflightKey := false } else b := ⟨_, rfl⟩
  have hstart : b'.haveLast = b.haveLast ∧ b'.lastDelivered = b.lastDelivered ∧
      b'.lossReported = b.lossReported ∧ b'.awaitingKeyframe = b.awaitingKeyframe := by
    rw [hb']
    cases died with
    | true => exact ⟨rfl, rfl, rfl, rfl⟩
    | false => exact ⟨rfl, rfl, rfl, rfl⟩
  obtain ⟨hhave', hlast', hreported', hawaiting'⟩ := hstart
  have hloss' : b'.lossReported = true → b'.awaitingKeyframe = true := by
    rw [hreported', hawaiting']
    exact hloss
  -- the keyframe that died is in flight no more
  have hquiet : died = true → b'.keyframeInFlight nowUs = false := by
    intro hyes
    rw [hb', hyes]
    rfl
  dsimp only
  rw [← hdied, ← hb', hhave']
  cases hhave : b.haveLast with
  | false => exact quiet_callReports hloss hhave' hawaiting' hreported'
  | true =>
      have hrequire : Reports b' nowUs (b'.requireKeyframe nowUs) :=
        requireKeyframe_reports (hhave'.trans hhave) hloss'
      simp only [Bool.not_true, Bool.false_eq_true, if_false]
      split
      · cases hyes : died with
        | false => exact (hrequire.frame ⟨hhave', hlast', hreported'⟩ rfl rfl).call
        | true =>
            have hflight : (b'.requireKeyframe nowUs).1.keyframeInFlight nowUs = false := by
              obtain ⟨_, _, hstate⟩ := (requireKeyframe_recoveryOnly b' nowUs).state
              rw [hstate]
              exact hquiet hyes
            apply Reports.call
            apply (hrequire.reportLoss (hhave'.trans hhave) hflight).frame
              ⟨hhave', hlast', hreported'⟩
            · rfl
            · rfl
      · split
        · exact quiet_callReports hloss hhave' hawaiting' hreported'
        · have hreport : Reports b' nowUs
              (if died && b'.awaitingKeyframe then b'.reportLoss else (b', [])) := by
            cases hyes : died with
            | false => exact .refl hloss'
            | true =>
                split
                · exact reportLoss_reports (hhave'.trans hhave) hloss' (hquiet hyes)
                · exact .refl hloss'
          apply Reports.call
          apply hreport.frame ⟨hhave', hlast', hreported'⟩
          · exact noteAborted_frame _ frameSeq
          · rfl

theorem poll_callReports (hloss : b.lossReported = true → b.awaitingKeyframe = true) :
    CallReports b nowUs (b.poll nowUs) := by
  rw [poll]
  cases hhave : b.haveLast with
  | false => exact quiet_callReports hloss rfl rfl rfl
  | true =>
      simp only [Bool.not_true, Bool.false_eq_true, if_false]
      split
      · split
        next hask =>
          rw [Bool.and_eq_true, Bool.not_eq_true', Bool.not_eq_true'] at hask
          exact (reportLoss_reports hhave hloss hask.2).call
        · exact quiet_callReports hloss rfl rfl rfl
      · split
        · exact (requireKeyframe_reports hhave hloss).call
        · exact quiet_callReports hloss rfl rfl rfl

/-- The time of a call; one without a time makes no callback. -/
theorem step_callReports (hloss : b.lossReported = true → b.awaitingKeyframe = true)
    {op : ReorderOp φ} (hreset : op.isReset = false) :
    CallReports b (op.time?.getD 0) (b.step op) := by
  cases op with
  | frameStarted hdr now => exact onFrameStarted_callReports hloss hdr
  | frame hdr frame now => exact onFrame_callReports hloss hdr frame
  | frameAborted seq now => exact onFrameAborted_callReports hloss seq
  | poll now => exact poll_callReports hloss
  | setRtt rttUs => exact quiet_callReports hloss rfl rfl rfl
  | reset => cases hreset

/-! ### Runs -/

/-- The flag of a buffer says whether a loss was reported since the last delivery. -/
structure Reported (b : VideoFrameReorderBuffer φ) (log : List (ReorderEvent φ)) : Prop where
  loss : b.lossReported = true → b.awaitingKeyframe = true
  apart : LossesApart log
  started : b.haveLast = true → ∃ e ∈ log, e.isKeyframe = true
  reported : b.haveLast = true → (b.lossReported = true ↔ LastIsLoss log)

/-- A call at `nowUs` with the outcome `r` reports the loss of `seq`. -/
structure LossReport (log : List (ReorderEvent φ)) (nowUs : Int)
    (r : VideoFrameReorderBuffer φ × List (ReorderEvent φ)) (seq : BitVec 32) : Prop where
  /-- The report is the last callback of the call, after a keyframe was delivered. -/
  last : ∃ handed, r.2 = handed ++ [.lost seq] ∧ (∀ e ∈ handed, e.isLoss = false) ∧
    ∃ e ∈ log ++ handed, e.isKeyframe = true
  haveLast : r.1.haveLast = true
  next : seq = r.1.lastDelivered + 1
  quiet : r.1.keyframeInFlight nowUs = false

omit [FrameBytes φ] in
theorem not_lastIsLoss_append {log handed : List (ReorderEvent φ)}
    (hhanded : ∀ e ∈ handed, e.isLoss = false) (hne : handed ≠ []) :
    ¬ LastIsLoss (log ++ handed) := by
  rintro ⟨e, hlast, hloss⟩
  rw [List.getLast?_append_of_ne_nil _ hne] at hlast
  rw [hhanded e (List.mem_of_getLast? hlast)] at hloss
  cases hloss

omit [FrameBytes φ] in
theorem lossesApart_append {log handed : List (ReorderEvent φ)} (hlog : LossesApart log)
    (hhanded : ∀ e ∈ handed, e.isLoss = false) : LossesApart (log ++ handed) := by
  refine List.isChain_append.mpr ⟨hlog, ?_, fun x _ y hy hboth => ?_⟩
  · apply List.Pairwise.isChain
    apply List.pairwise_of_forall_mem_list
    rintro x hx y hy ⟨hloss, _⟩
    rw [hhanded x hx] at hloss
    cases hloss
  · rw [hhanded y (List.mem_of_head? hy)] at hboth
    cases hboth.2

omit [FrameBytes φ] in
theorem lossesApart_lost {log : List (ReorderEvent φ)} (hlog : LossesApart log)
    (hlast : ¬ LastIsLoss log) (seq : BitVec 32) : LossesApart (log ++ [.lost seq]) := by
  refine List.isChain_append.mpr ⟨hlog, List.isChain_singleton _, fun x hx y _ hboth => ?_⟩
  exact hlast ⟨x, hx, hboth.1⟩

omit [FrameBytes φ] in
theorem lastIsLoss_lost (log : List (ReorderEvent φ)) (seq : BitVec 32) :
    LastIsLoss (log ++ [.lost seq]) :=
  ⟨.lost seq, by rw [List.getLast?_append_of_ne_nil _ (by simp)]; rfl, rfl⟩

omit [FrameBytes φ] in
/-- What a call does to the log. -/
theorem Reported.call {log : List (ReorderEvent φ)} (h : Reported b log)
    {r : VideoFrameReorderBuffer φ × List (ReorderEvent φ)} (hr : CallReports b nowUs r) :
    Reported r.1 (log ++ r.2) ∧ ∀ seq, .lost seq ∈ r.2 → LossReport log nowUs r seq := by
  obtain ⟨m, handed, losses, hrecovery, hevents, hhanded, hnone, hsome, hstarted⟩ := hr.parts
  have hflag : m.haveLast = true → (m.lossReported = true ↔ LastIsLoss (log ++ handed)) := by
    intro hhave
    by_cases hempty : handed = []
    · obtain ⟨hreported, hhave'⟩ := hnone hempty
      rw [hempty, List.append_nil, hreported]
      exact h.reported (hhave'.symm.trans hhave)
    · rw [(hsome hempty).1]
      exact ⟨nofun, fun hlast => absurd hlast (not_lastIsLoss_append hhanded hempty)⟩
  have hkeyframe : r.1.haveLast = true → ∃ e ∈ log ++ handed, e.isKeyframe = true := by
    intro hhave
    rcases hstarted hhave with hbefore | ⟨e, he, hkey⟩
    · obtain ⟨e, he, hkey⟩ := h.started hbefore
      exact ⟨e, List.mem_append_left _ he, hkey⟩
    · exact ⟨e, List.mem_append_right _ he, hkey⟩
  have hapart := lossesApart_append h.apart hhanded
  rw [hevents, ← List.append_assoc]
  rcases hrecovery.report with ⟨hlosses, hkept⟩ | ⟨hlosses, hhave, hbefore, hreported, hquiet⟩
  · dsimp only at hlosses hkept
    rw [hlosses, List.append_nil, List.append_nil]
    refine ⟨⟨hrecovery.loss, hapart, hkeyframe, fun hhave => ?_⟩, fun seq hlost => ?_⟩
    · rw [hkept]
      exact hflag (hrecovery.haveLast.symm.trans hhave)
    · cases hhanded _ hlost
  · dsimp only at hlosses hreported hquiet
    have hhave' : r.1.haveLast = true := hrecovery.haveLast.trans hhave
    have hlast : ¬ LastIsLoss (log ++ handed) := by
      intro hlast
      rw [(hflag hhave).mpr hlast] at hbefore
      cases hbefore
    rw [hlosses]
    refine ⟨⟨hrecovery.loss, lossesApart_lost hapart hlast _, fun _ => ?_, fun _ => ?_⟩,
      fun seq hlost => ?_⟩
    · obtain ⟨e, he, hkey⟩ := hkeyframe hhave'
      exact ⟨e, List.mem_append_left _ he, hkey⟩
    · exact ⟨fun _ => lastIsLoss_lost _ _, fun _ => hreported⟩
    · have hseq : seq = m.lastDelivered + 1 := by
        rcases List.mem_append.mp hlost with hin | hin
        · cases hhanded _ hin
        · exact ReorderEvent.lost.inj (List.mem_singleton.mp hin)
      refine ⟨⟨handed, ?_, hhanded, hkeyframe hhave'⟩, hhave', ?_, hquiet⟩
      · rw [hevents, hlosses, hseq]
      · rw [hseq, hrecovery.lastDelivered]

theorem Reported.step {log : List (ReorderEvent φ)} (h : Reported b log) (op : ReorderOp φ) :
    Reported (b.step op).1 (log ++ (b.step op).2) ∧
      ∀ seq, .lost seq ∈ (b.step op).2 → LossReport log (op.time?.getD 0) (b.step op) seq := by
  by_cases hreset : op.isReset = true
  · cases op with
    | reset =>
        refine ⟨⟨nofun, ?_, nofun, nofun⟩, nofun⟩
        rw [VideoFrameReorderBuffer.step, List.append_nil]
        exact h.apart
    | _ => cases hreset
  · exact h.call (step_callReports h.loss (Bool.not_eq_true _ ▸ hreset))

/-- After a poll no held frame has waited for the hold, or a keyframe is awaited. -/
theorem poll_waits (hinv : Invariant b) (hhave : b.haveLast = true) :
    (∀ e ∈ (b.poll nowUs).1.held.entries, nowUs - e.2.arrivedUs < (b.poll nowUs).1.holdUs) ∨
      (b.poll nowUs).1.awaitingKeyframe = true := by
  rw [poll, hhave]
  simp only [Bool.not_true, Bool.false_eq_true, if_false]
  cases hawaiting : b.awaitingKeyframe with
  | true =>
      rw [if_pos rfl]
      right
      split
      · rw [reportLoss]
        split
        · exact hawaiting
        · exact hawaiting
      · exact hawaiting
  | false =>
      rw [if_neg (by decide)]
      split
      · right
        rw [requireKeyframe, hawaiting, if_neg (by decide)]
        dsimp only
        split
        · rfl
        · rw [reportLoss]
          split
          · rfl
          · rfl
      next hwaits =>
        left
        intro e he
        have hleast := hinv.gap.least e he
        have hnonempty : b.held.isEmpty = false := by
          rw [Bool.eq_false_iff]
          intro hempty
          rw [OrderedMap.isEmpty_iff.mp hempty] at he
          cases he
        rw [hnonempty] at hwaits
        simp only [Bool.not_false, Bool.true_and, decide_eq_true_eq, not_le] at hwaits
        dsimp only
        omega

/-- After a poll that awaits a keyframe none of which is in flight, the loss is reported. -/
theorem poll_reports (hhave : b.haveLast = true)
    (hawaiting : (b.poll nowUs).1.awaitingKeyframe = true)
    (hquiet : (b.poll nowUs).1.keyframeInFlight nowUs = false) :
    (b.poll nowUs).1.lossReported = true := by
  rw [poll, hhave] at hawaiting hquiet ⊢
  simp only [Bool.not_true, Bool.false_eq_true, if_false] at hawaiting hquiet ⊢
  cases hbefore : b.awaitingKeyframe with
  | true =>
      rw [hbefore, if_pos rfl] at hawaiting hquiet
      rw [if_pos rfl]
      split at hquiet
      next hask =>
        rw [if_pos hask, reportLoss, hbefore]
        rw [Bool.and_eq_true, Bool.not_eq_true', Bool.not_eq_true'] at hask
        rw [hask.1]
        rfl
      next hask =>
        rw [if_neg hask]
        dsimp only at hquiet ⊢
        rw [hquiet, Bool.not_false, Bool.and_true, Bool.not_eq_true', Bool.not_eq_false] at hask
        exact hask
  | false =>
      rw [hbefore, if_neg (by decide)] at hawaiting hquiet
      rw [if_neg (by decide)]
      split at hquiet
      next hwaited =>
        rw [if_pos hwaited]
        rw [requireKeyframe, hbefore, if_neg (by decide)] at hquiet ⊢
        dsimp only at hquiet ⊢
        split at hquiet
        next hflight =>
          rw [show VideoFrameReorderBuffer.keyframeInFlight _ nowUs = true from hflight] at hquiet
          cases hquiet
        next hflight =>
          rw [if_neg hflight]
          rfl
      next hwaits =>
        rw [if_neg hwaits, hbefore] at hawaiting
        cases hawaiting

theorem reported_run (cfg : VideoFrameReorderConfig) (ops : List (ReorderOp φ)) :
    Reported ((new cfg : VideoFrameReorderBuffer φ).run ops).1
      ((new cfg : VideoFrameReorderBuffer φ).run ops).2 := by
  have hstart : Reported (new cfg : VideoFrameReorderBuffer φ) [] :=
    ⟨nofun, .nil, nofun, nofun⟩
  have hstep : ∀ s op, Reported s.1 s.2 →
      Reported (Machine.logged (step (φ := φ)) s op).1 (Machine.logged step s op).2 :=
    fun s op h => (h.step op).1
  exact @Machine.run_preserves _ _ _ (fun s => Reported s.1 s.2) hstep (new cfg, []) hstart ops

omit [FrameBytes φ] in
theorem TimesAdvance.left {xs ys : List (ReorderOp φ)} (h : TimesAdvance (xs ++ ys)) :
    TimesAdvance xs := by
  obtain ⟨hpos, hsorted⟩ := h
  rw [List.filterMap_append] at hpos hsorted
  exact ⟨fun nowUs hnow => hpos nowUs (List.mem_append_left _ hnow),
    (List.pairwise_append.mp hsorted).1⟩

/-- Two reports have a delivery between them. A report names the frame behind the last
    delivered one, after the first keyframe and with no keyframe in flight. A poll leaves no
    frame that waited for the hold unless a keyframe is awaited, and with none in flight the
    loss is reported by then. -/
theorem losses_reported (cfg : VideoFrameReorderConfig) (ops : List (ReorderOp φ))
    (htimes : TimesAdvance ops) :
    LossesApart ((new cfg : VideoFrameReorderBuffer φ).run ops).2 ∧
    (∀ pre op post, ops = pre ++ op :: post →
      let s := (new cfg : VideoFrameReorderBuffer φ).run pre
      ∀ seq, .lost seq ∈ (s.1.step op).2 →
        LossReport s.2 (op.time?.getD 0) (s.1.step op) seq) ∧
    ∀ pre nowUs post, ops = pre ++ .poll nowUs :: post →
      let s := (new cfg : VideoFrameReorderBuffer φ).run pre
      let r := s.1.poll nowUs
      r.1.haveLast = true →
        ((∀ e ∈ r.1.held.entries, nowUs - e.2.arrivedUs < r.1.holdUs) ∨
          r.1.awaitingKeyframe = true) ∧
        (r.1.awaitingKeyframe = true → r.1.keyframeInFlight nowUs = false →
          LastIsLoss (s.2 ++ r.2)) := by
  refine ⟨(reported_run cfg ops).apart, ?_, ?_⟩
  · rintro pre op post - s seq hlost
    exact ((reported_run cfg pre).step op).2 seq hlost
  · rintro pre nowUs post rfl s r hhave
    have hinv : Invariant s.1 := invariant_after_run cfg pre htimes.left
    have hhave' : s.1.haveLast = true := by
      cases hbefore : s.1.haveLast with
      | true => rfl
      | false =>
          have hkept : r.1.haveLast = s.1.haveLast := by
            rw [show r = s.1.poll nowUs from rfl, poll, hbefore]
            exact hbefore
          rw [← hkept, hhave] at hbefore
          cases hbefore
    refine ⟨poll_waits hinv hhave', fun hawaiting hquiet => ?_⟩
    have hreported := ((reported_run cfg pre).step (.poll nowUs)).1.reported hhave
    exact hreported.mp (poll_reports hhave' hawaiting hquiet)

/-- The frame behind a keyframe is lost: it is reported once, and a later poll has nothing
    to add. -/
theorem losses_reported_gap :
    let key : VideoFrameHeader := { frameSeq := 0xFFFFFFFF, flags := 1 }
    let delta : VideoFrameHeader := { frameSeq := 1 }
    let ops : List (ReorderOp Bytes) :=
      [.frame key [1] 10, .frame delta [2] 30, .frameAborted 0 40, .poll 400000]
    LossesApart ((new {} : VideoFrameReorderBuffer Bytes).run ops).2 ∧
      LastIsLoss ((new {} : VideoFrameReorderBuffer Bytes).run ops).2 := by
  intro key delta ops
  obtain ⟨hapart, _, hpolls⟩ := losses_reported {} ops (by simp [ops, TimesAdvance, ReorderOp.time?])
  refine ⟨hapart, ?_⟩
  exact (hpolls (ops.take 3) 400000 [] rfl (by decide)).2 (by decide) (by decide)

end VideoFrameReorderBuffer

end Parties.Video

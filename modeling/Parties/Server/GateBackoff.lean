import Parties.Server.FrameOffers

/-!
# The request backoff of a viewer

A `ViewerVideoGate` with the record of what became of the frames it was offered. The
gate counts healthy frames by itself: a frame over budget sets the counter back, a frame
whose send fails does not. So the counter speaks of the last frames offered only as long
as no send has failed since the last frame over budget.
-/

namespace Parties.Video

/-- What became of a frame offered to a viewer. -/
inductive FrameFate where
  | forwarded
  | overBudget
  /-- Not a keyframe, and the viewer waits for one. -/
  | awaited
  | sendFailed
deriving DecidableEq, Repr

/-- What the server does with a gate. -/
inductive GateCall where
  /-- `forward_video_frame`: the gate decides, and a frame it lets through is sent. -/
  | offer (outstanding threshold : Int) (keyframe sent : Bool)
  | requestKeyframe (nowUs : Int)
deriving DecidableEq, Repr

structure RecordedGate where
  gate : ViewerVideoGate
  /-- The frames offered, newest first. -/
  fates : List FrameFate := []
  /-- The requests granted since the last reset of the backoff, newest first. -/
  granted : List Int := []
deriving DecidableEq, Repr

namespace RecordedGate

/-- The gate of a new subscription waits for a keyframe; one that is made when it is
    first used does not. -/
def start (awaiting : Bool) : RecordedGate := { gate := { awaitingKeyframe := awaiting } }

/-- The decision on a frame sets the backoff back. -/
def resets (g : RecordedGate) : GateCall → Bool
  | .offer outstanding threshold keyframe _ =>
    let admission := g.gate.admitFrame outstanding threshold keyframe
    admission.forward && decide (HEALTHY_FRAMES ≤ admission.gate.healthyFrames)
  | .requestKeyframe _ => false

def fateOf (admission : ViewerVideoGate.Admission) (sent : Bool) : FrameFate :=
  if admission.forward then (if sent then .forwarded else .sendFailed)
  else if admission.needsKeyframe then .awaited
  else .overBudget

def step (g : RecordedGate) (call : GateCall) : RecordedGate :=
  match call with
  | .offer outstanding threshold keyframe sent =>
    let admission := g.gate.admitFrame outstanding threshold keyframe
    { gate := if admission.forward && !sent then { admission.gate with awaitingKeyframe := true }
        else admission.gate
      fates := fateOf admission sent :: g.fates
      granted := if g.resets call then [] else g.granted }
  | .requestKeyframe nowUs =>
    let (allowed, gate) := g.gate.allowKeyframeRequest nowUs
    { g with gate, granted := if allowed then nowUs :: g.granted else g.granted }

/-! ### What is asked of a reset -/

/-- The backoff is reset only if the last `HEALTHY_FRAMES` frames were all forwarded. -/
def ResetEarned (g : RecordedGate) (call : GateCall) : Prop :=
  g.resets call = true →
    (g.step call).fates.take HEALTHY_FRAMES = List.replicate HEALTHY_FRAMES .forwarded

instance (g : RecordedGate) (call : GateCall) : Decidable (g.ResetEarned call) :=
  inferInstanceAs (Decidable (_ → _))

/-- The frames since the last one over budget. -/
def sinceDrop (fates : List FrameFate) : List FrameFate := fates.takeWhile (· ≠ .overBudget)

/-- A frame that fills the counter is sent, and no send has failed since the counter was
    last set back. -/
def SendsKept (g : RecordedGate) (call : GateCall) : Prop :=
  g.resets call = true →
    .sendFailed ∉ sinceDrop g.fates ∧
      match call with
      | .offer _ _ _ sent => sent = true
      | .requestKeyframe _ => True

/-- The distance from a request to the next one, with `n` requests granted before it. -/
def requestIntervalUs (n : Nat) : Int := min (1000000 * 2 ^ n) 4000000

/-- Every request comes its interval after the one before. -/
def BackedOff : List Int → Prop
  | [] => True
  | [_] => True
  | next :: last :: before =>
    last + requestIntervalUs before.length ≤ next ∧ BackedOff (last :: before)

/-! ### The decision on a frame -/

/-- The ways a decision can go. -/
theorem admitFrame_cases (gate : ViewerVideoGate) (outstanding threshold : Int) (keyframe : Bool) :
    gate.admitFrame outstanding threshold keyframe =
        { forward := false, gate := { gate with awaitingKeyframe := true, healthyFrames := 0 } } ∨
      (gate.awaitingKeyframe = true ∧ gate.admitFrame outstanding threshold keyframe =
        { forward := false, needsKeyframe := true, gate }) ∨
      (gate.healthyFrames + 1 < HEALTHY_FRAMES ∧
        gate.admitFrame outstanding threshold keyframe =
          { forward := true
            gate := { gate with
              awaitingKeyframe := false, healthyFrames := gate.healthyFrames + 1 } }) ∨
      (HEALTHY_FRAMES ≤ gate.healthyFrames + 1 ∧
        gate.admitFrame outstanding threshold keyframe =
          { forward := true
            gate := { gate with
              awaitingKeyframe := false, healthyFrames := gate.healthyFrames + 1
              requestBackoffUs := 0, requestNextUs := 0 } }) := by
  unfold ViewerVideoGate.admitFrame
  split
  · exact .inl rfl
  · split
    next hdelta =>
      rw [Bool.and_eq_true] at hdelta
      exact .inr (.inl ⟨hdelta.1, rfl⟩)
    · right; right
      by_cases hfull : HEALTHY_FRAMES ≤ gate.healthyFrames + 1
      · exact .inr ⟨hfull, by simp only [hfull, if_true]⟩
      · exact .inl ⟨Nat.not_le.mp hfull, by simp only [hfull, if_false]⟩

/-- A list begins with `n` copies of an element if the run of it in front is that long. -/
theorem take_eq_replicate_iff {α : Type} [DecidableEq α] {a : α} {n : Nat} {l : List α} :
    l.take n = List.replicate n a ↔ n ≤ (l.takeWhile (· = a)).length := by
  induction l generalizing n with
  | nil => cases n <;> simp [List.replicate_succ]
  | cons x l ih =>
      cases n with
      | zero => simp
      | succ n =>
          by_cases hx : x = a
          · simp [hx, List.replicate_succ, ih]
          · simp [hx, List.replicate_succ]

/-! ### The counter of healthy frames -/

/-- The frames forwarded in a row, up to now. -/
def streak (fates : List FrameFate) : Nat := (fates.takeWhile (· = .forwarded)).length

/-- What the counter knows of the frames offered. -/
structure Counted (g : RecordedGate) : Prop where
  kept : .sendFailed ∉ sinceDrop g.fates → g.gate.healthyFrames ≤ streak g.fates
  waiting : .sendFailed ∉ sinceDrop g.fates → g.gate.awaitingKeyframe = true →
    g.gate.healthyFrames = 0
  /-- The counter still holds the frames before the one whose send failed. -/
  failed : .sendFailed ∈ sinceDrop g.fates → streak g.fates < g.gate.healthyFrames

theorem counted_start (awaiting : Bool) : Counted (start awaiting) where
  kept _ := Nat.zero_le _
  waiting _ _ := rfl
  failed := by
    intro hmem
    cases hmem

@[simp] theorem sinceDrop_overBudget (fates : List FrameFate) :
    sinceDrop (.overBudget :: fates) = [] := rfl

@[simp] theorem sinceDrop_cons {fate : FrameFate} (h : fate ≠ .overBudget)
    (fates : List FrameFate) : sinceDrop (fate :: fates) = fate :: sinceDrop fates := by
  simp [sinceDrop, h]

@[simp] theorem streak_forwarded (fates : List FrameFate) :
    streak (.forwarded :: fates) = streak fates + 1 := by
  simp [streak]

@[simp] theorem streak_cons {fate : FrameFate} (h : fate ≠ .forwarded) (fates : List FrameFate) :
    streak (fate :: fates) = 0 := by
  simp [streak, h]

/-- A frame the gate lets through: the counter goes up, and the send succeeds or not. -/
theorem Counted.passed {g : RecordedGate} (h : g.Counted) (sent : Bool) {gate : ViewerVideoGate}
    (hhealthy : gate.healthyFrames = g.gate.healthyFrames + 1)
    (hawaiting : gate.awaitingKeyframe = !sent) (granted : List Int) :
    Counted ⟨gate, (if sent then .forwarded else .sendFailed) :: g.fates, granted⟩ := by
  cases sent with
  | false =>
      constructor
      · intro hkept
        exact absurd (by simp) hkept
      · intro hkept
        exact absurd (by simp) hkept
      · intro _
        simp [hhealthy]
  | true =>
      have hsince : FrameFate.sendFailed ∈ sinceDrop (.forwarded :: g.fates) ↔
          FrameFate.sendFailed ∈ sinceDrop g.fates := by simp
      constructor
      · intro hkept
        have hold := h.kept (fun hmem => hkept (hsince.mpr hmem))
        simp only [if_true, streak_forwarded, hhealthy]
        omega
      · intro _ hwaits
        rw [hawaiting] at hwaits
        cases hwaits
      · intro hfailed
        have hold := h.failed (hsince.mp hfailed)
        simp only [if_true, streak_forwarded, hhealthy]
        omega

theorem counted_step (g : RecordedGate) (call : GateCall) (h : g.Counted) :
    (g.step call).Counted := by
  cases call with
  | requestKeyframe nowUs =>
      have hgate : (g.gate.allowKeyframeRequest nowUs).2.healthyFrames = g.gate.healthyFrames := by
        unfold ViewerVideoGate.allowKeyframeRequest
        split <;> rfl
      have hawaiting := g.gate.allowKeyframeRequest_awaiting nowUs
      refine ⟨fun hkept => ?_, fun hkept hwaits => ?_, fun hfailed => ?_⟩
      · exact hgate.trans_le (h.kept hkept)
      · exact hgate.trans (h.waiting hkept (hawaiting.symm.trans hwaits))
      · exact (h.failed hfailed).trans_eq hgate.symm
  | offer outstanding threshold keyframe sent =>
      rcases admitFrame_cases g.gate outstanding threshold keyframe with
        hadmitted | ⟨hawaiting, hadmitted⟩ | ⟨_, hadmitted⟩ | ⟨_, hadmitted⟩
      · simp only [step, fateOf, hadmitted]
        refine ⟨fun _ => Nat.zero_le _, fun _ _ => rfl, fun hfailed => ?_⟩
        simp at hfailed
      · -- the viewer keeps waiting, so no frame counts unless a send has failed
        simp only [step, fateOf, hadmitted]
        have hsince : FrameFate.sendFailed ∈ sinceDrop (.awaited :: g.fates) ↔
            FrameFate.sendFailed ∈ sinceDrop g.fates := by simp
        refine ⟨fun hkept => ?_, fun hkept _ => ?_, fun hfailed => ?_⟩
        · have hzero := h.waiting (fun hmem => hkept (hsince.mpr hmem)) hawaiting
          exact hzero.trans_le (Nat.zero_le _)
        · exact h.waiting (fun hmem => hkept (hsince.mpr hmem)) hawaiting
        · have hold := h.failed (hsince.mp hfailed)
          simpa using Nat.zero_lt_of_lt hold
      · simp only [step, fateOf, hadmitted]
        apply h.passed sent <;> cases sent <;> rfl
      · simp only [step, fateOf, hadmitted]
        apply h.passed sent <;> cases sent <;> rfl

/-- A frame fills the counter only if the gate lets it through. -/
theorem resets_offer {g : RecordedGate} {outstanding threshold : Int} {keyframe sent : Bool}
    (hresets : g.resets (.offer outstanding threshold keyframe sent) = true) :
    HEALTHY_FRAMES ≤ g.gate.healthyFrames + 1 ∧
      (g.step (.offer outstanding threshold keyframe sent)).fates =
        (if sent then .forwarded else .sendFailed) :: g.fates := by
  rcases admitFrame_cases g.gate outstanding threshold keyframe with
    hadmitted | ⟨_, hadmitted⟩ | ⟨hshort, hadmitted⟩ | ⟨hfull, hadmitted⟩
  · simp [resets, hadmitted] at hresets
  · simp [resets, hadmitted] at hresets
  · simp only [resets, hadmitted, Bool.true_and, decide_eq_true_eq] at hresets
    omega
  · exact ⟨hfull, by simp only [step, fateOf, hadmitted, if_true]⟩

/-- What a reset is asked for, in terms of the frames in a row. -/
theorem resetEarned_iff {g : RecordedGate} {outstanding threshold : Int} {keyframe sent : Bool} :
    g.ResetEarned (.offer outstanding threshold keyframe sent) ↔
      (g.resets (.offer outstanding threshold keyframe sent) = true →
        sent = true ∧ HEALTHY_FRAMES ≤ streak g.fates + 1) := by
  apply imp_congr_right
  intro hresets
  rw [(resets_offer hresets).2, take_eq_replicate_iff]
  change HEALTHY_FRAMES ≤ streak _ ↔ _
  cases sent with
  | false => simp [HEALTHY_FRAMES]
  | true => simp

/-- The counter speaks of the last frames while every send is kept. -/
theorem Counted.earned {g : RecordedGate} (h : g.Counted) {call : GateCall}
    (hkept : g.SendsKept call) : g.ResetEarned call := by
  cases call with
  | requestKeyframe nowUs =>
      intro hresets
      cases hresets
  | offer outstanding threshold keyframe sent =>
      rw [resetEarned_iff]
      intro hresets
      obtain ⟨hnone, hsent⟩ := hkept hresets
      have hcounted := h.kept hnone
      have hfull := (resets_offer hresets).1
      exact ⟨hsent, by omega⟩

/-- The counter has not been full since a send failed. -/
def NotFull (g : RecordedGate) : Prop :=
  .sendFailed ∈ sinceDrop g.fates → g.gate.healthyFrames < HEALTHY_FRAMES

/-- If every reset is earned, the counter never fills over a failed send. -/
theorem Counted.sendsKept {g : RecordedGate} (h : g.Counted) (hfull : g.NotFull) {call : GateCall}
    (hearned : g.ResetEarned call) : g.SendsKept call := by
  cases call with
  | requestKeyframe nowUs =>
      intro hresets
      cases hresets
  | offer outstanding threshold keyframe sent =>
      intro hresets
      obtain ⟨hsent, hstreak⟩ := resetEarned_iff.mp hearned hresets
      refine ⟨fun hfailed => ?_, hsent⟩
      have hcounted := h.failed hfailed
      have hlt := hfull hfailed
      omega

theorem notFull_step {g : RecordedGate} {call : GateCall} (h : g.Counted) (hfull : g.NotFull)
    (hearned : g.ResetEarned call) : (g.step call).NotFull := by
  have hkept := h.sendsKept hfull hearned
  cases call with
  | requestKeyframe nowUs =>
      intro hfailed
      have hgate : (g.gate.allowKeyframeRequest nowUs).2.healthyFrames = g.gate.healthyFrames := by
        unfold ViewerVideoGate.allowKeyframeRequest
        split <;> rfl
      exact hgate.trans_lt (hfull hfailed)
  | offer outstanding threshold keyframe sent =>
      rcases admitFrame_cases g.gate outstanding threshold keyframe with
        hadmitted | ⟨_, hadmitted⟩ | ⟨hshort, hadmitted⟩ | ⟨hfull', hadmitted⟩
      · intro _
        simp [step, hadmitted, HEALTHY_FRAMES]
      · intro hfailed
        simp only [step, fateOf, hadmitted] at hfailed ⊢
        exact hfull (by simpa using hfailed)
      · intro _
        cases sent <;> simpa [step, hadmitted] using hshort
      · -- the counter is full: every send since the last drop was kept
        have hresets : g.resets (.offer outstanding threshold keyframe sent) = true := by
          simp [resets, hadmitted, hfull']
        obtain ⟨hnone, hsent⟩ := hkept hresets
        intro hfailed
        simp only at hsent
        rw [(resets_offer hresets).2, hsent] at hfailed
        exact absurd (by simpa using hfailed) hnone

/-! ### The requests -/

theorem requestIntervalUs_succ (n : Nat) :
    requestIntervalUs (n + 1) = min (requestIntervalUs n * 2) 4000000 := by
  rw [requestIntervalUs, requestIntervalUs, pow_succ, ← mul_assoc]
  generalize (1000000 : Int) * 2 ^ n = interval
  omega

theorem requestIntervalUs_pos (n : Nat) : 0 < requestIntervalUs n := by
  induction n with
  | zero => decide
  | succ n ih =>
      rw [requestIntervalUs_succ]
      omega

/-- The time before which no request is granted. -/
def nextGrantUs : List Int → Int
  | [] => 0
  | last :: before => last + requestIntervalUs before.length

/-- The gate holds what the requests granted since the last reset ask for. -/
structure Backing (g : RecordedGate) : Prop where
  next : g.gate.requestNextUs = nextGrantUs g.granted
  backoff : g.gate.requestBackoffUs =
    if g.granted = [] then 0 else requestIntervalUs g.granted.length
  spaced : BackedOff g.granted

theorem Backing.requestKeyframe {g : RecordedGate} (h : g.Backing) (nowUs : Int) :
    (g.step (.requestKeyframe nowUs)).Backing := by
  by_cases hearly : nowUs < g.gate.requestNextUs
  · simp only [step, ViewerVideoGate.allowKeyframeRequest, if_pos hearly]
    exact ⟨h.next, h.backoff, h.spaced⟩
  · have hpos := requestIntervalUs_pos g.granted.length
    have hinterval : (if g.gate.requestBackoffUs = 0 then 1000000 else g.gate.requestBackoffUs) =
        requestIntervalUs g.granted.length := by
      rw [h.backoff]
      by_cases hnone : g.granted = []
      · rw [if_pos hnone, if_pos rfl, hnone]
        rfl
      · rw [if_neg hnone, if_neg hpos.ne']
    simp only [step, ViewerVideoGate.allowKeyframeRequest, if_neg hearly, hinterval, if_true]
    refine ⟨rfl, ?_, ?_⟩
    · simp only [reduceCtorEq, if_false, List.length_cons, requestIntervalUs_succ]
    · have hdue := not_lt.mp hearly
      have hspaced := h.spaced
      rw [h.next] at hdue
      show BackedOff (nowUs :: g.granted)
      generalize g.granted = granted at hdue hspaced ⊢
      cases granted with
      | nil => trivial
      | cons last before => exact ⟨hdue, hspaced⟩

theorem backing_step (g : RecordedGate) (call : GateCall) (h : g.Backing) :
    (g.step call).Backing := by
  cases call with
  | requestKeyframe nowUs => exact h.requestKeyframe nowUs
  | offer outstanding threshold keyframe sent =>
      have hunreset : ∀ g' : RecordedGate, g'.gate.requestNextUs = g.gate.requestNextUs →
          g'.gate.requestBackoffUs = g.gate.requestBackoffUs → g'.granted = g.granted →
          g'.Backing := by
        intro g' hnext hbackoff hgranted
        refine ⟨hnext.trans (h.next.trans (by rw [hgranted])), hbackoff.trans ?_, ?_⟩
        · rw [h.backoff, hgranted]
        · rw [hgranted]
          exact h.spaced
      rcases admitFrame_cases g.gate outstanding threshold keyframe with
        hadmitted | ⟨_, hadmitted⟩ | ⟨hshort, hadmitted⟩ | ⟨hfull, hadmitted⟩
      · simp only [step, resets, hadmitted]
        exact hunreset _ rfl rfl rfl
      · simp only [step, resets, hadmitted]
        exact hunreset _ rfl rfl rfl
      · simp only [step, resets, hadmitted, Bool.true_and, decide_eq_true_eq,
          if_neg (Nat.not_le.mpr hshort)]
        cases sent <;> exact hunreset _ rfl rfl rfl
      · simp only [step, resets, hadmitted, Bool.true_and, decide_eq_true_eq, if_pos hfull]
        cases sent <;> exact ⟨rfl, rfl, trivial⟩

/-! ### Runs -/

def run (g : RecordedGate) (calls : List GateCall) : RecordedGate := Machine.run step g calls

/-- In a run every reset of the backoff is earned if and only if none comes over a failed
    send; and the requests granted between two resets back off. -/
theorem resetEarned_iff_sendsKept (awaiting : Bool) (calls : List GateCall) :
    (Machine.AllSteps step ResetEarned (start awaiting) calls ↔
        Machine.AllSteps step SendsKept (start awaiting) calls) ∧
      BackedOff ((start awaiting).run calls).granted := by
  have hstart : (start awaiting).Counted ∧ (start awaiting).NotFull :=
    ⟨counted_start awaiting, fun hmem => by cases hmem⟩
  refine ⟨⟨fun hearned => ?_, fun hkept => ?_⟩, ?_⟩
  · have hstep : ∀ (g : RecordedGate) call, g.Counted ∧ g.NotFull → g.ResetEarned call →
        (g.step call).Counted ∧ (g.step call).NotFull :=
      fun g call h he => ⟨counted_step g call h.1, notFull_step h.1 h.2 he⟩
    exact Machine.AllSteps.imp hstep (fun g call h he => h.1.sendsKept h.2 he) hstart hearned
  · have hstep : ∀ (g : RecordedGate) call, g.Counted → g.SendsKept call →
        (g.step call).Counted := fun g call h _ => counted_step g call h
    exact Machine.AllSteps.imp hstep (fun g call h hk => h.earned hk) hstart.1 hkept
  · have hbacking : (start awaiting).Backing := ⟨rfl, rfl, trivial⟩
    exact (Machine.run_preserves backing_step hbacking calls).spaced

/-- A request, 58 frames, a frame whose send fails, and the keyframe the viewer then
    waits for: the counter is full, and the next request need not wait. -/
def failedSend : List GateCall :=
  .requestKeyframe 0 :: List.replicate 58 (.offer 0 0 false true) ++
    [.offer 0 0 false false, .offer 0 0 true true, .requestKeyframe 1]

theorem not_resetEarned : ¬ ∀ (awaiting : Bool) (calls : List GateCall),
    Machine.AllSteps step ResetEarned (start awaiting) calls := by
  intro hall
  exact absurd (hall false failedSend) (by decide)

end RecordedGate

end Parties.Video

/-! ### The gates of the server -/

namespace Parties.Session

open Parties.Video

variable {viewer : Session} {stream : StreamId}

/-- What `forward_video_frame` does with the gate of a viewer. -/
def offerCalls (gate : ViewerVideoGate) (hdr : VideoFrameHeader) (nowUs outstanding threshold : Int)
    (sent : Bool) : List GateCall :=
  .offer outstanding threshold hdr.keyframe sent ::
    if (gate.admitFrame outstanding threshold hdr.keyframe).needsKeyframe then
      [.requestKeyframe nowUs]
    else []

/-- The gate of a viewer is the gate the runs above are about. -/
theorem gate_offer {g : RecordedGate} (hgate : g.gate = viewer.gate stream)
    (hdr : VideoFrameHeader) (nowUs outstanding threshold : Int) (sent : Bool) :
    (viewer.offer stream hdr nowUs outstanding threshold sent).1.gate stream =
      (g.run (offerCalls (viewer.gate stream) hdr nowUs outstanding threshold sent)).gate := by
  have hset : ∀ (other : Session) (gate : ViewerVideoGate),
      (other.setGate stream gate).gate stream = gate := fun other gate => gate_setGate_self ..
  have hdropped : ∀ (other : Session) (wasAwaiting : Bool),
      (other.dropFrame stream wasAwaiting).gate stream = other.gate stream := by
    intro other wasAwaiting
    unfold dropFrame
    split <;> rfl
  have hsent : ∀ other : Session, (other.sendFrame stream hdr sent).gate stream =
      if !sent then { other.gate stream with awaitingKeyframe := true } else other.gate stream := by
    intro other
    unfold sendFrame
    cases sent <;> cases hdr.keyframe <;> first | rfl | exact gate_setGate_self ..
  rcases RecordedGate.admitFrame_cases (viewer.gate stream) outstanding threshold hdr.keyframe with
    hadmitted | ⟨_, hadmitted⟩ | ⟨_, hadmitted⟩ | ⟨_, hadmitted⟩
  · simp [offer, askGate, offerCalls, hadmitted, hdropped, hset, RecordedGate.run, RecordedGate.step,
      hgate]
  · simp [offer, askGate, offerCalls, hadmitted, hdropped, hset, RecordedGate.run, RecordedGate.step,
      hgate]
  · simp [offer, askGate, offerCalls, hadmitted, hsent, hset, RecordedGate.run, RecordedGate.step,
      hgate]
  · simp [offer, askGate, offerCalls, hadmitted, hsent, hset, RecordedGate.run, RecordedGate.step,
      hgate]

end Parties.Session

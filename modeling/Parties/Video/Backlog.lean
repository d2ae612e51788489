import Parties.Video.Common

/-!
# The viewer gate and the request coalescer

Mirror of the integer part of `parties/video_backlog.h`. The thresholds and rates
are floating point in the source; here they are numbers the gate is given.
-/

namespace Parties.Video

/-! ### Coalescer -/

/-- At most one event per interval. A member function that changes the object
    returns the new one with its result. -/
structure Coalescer (intervalUs : Int) where
  lastUs : Int := 0
deriving DecidableEq, Repr

namespace Coalescer

variable {intervalUs : Int} {c : Coalescer intervalUs} {nowUs : Int}

/-- An event at `nowUs` is inside the interval of the last one. -/
def cooling (c : Coalescer intervalUs) (nowUs : Int) : Bool :=
  decide (c.lastUs ≠ 0 ∧ nowUs - c.lastUs < intervalUs)

def allow (c : Coalescer intervalUs) (nowUs : Int) : Bool × Coalescer intervalUs :=
  if c.cooling nowUs then (false, c) else (true, { lastUs := nowUs })

theorem allow_of_cooling (h : c.cooling nowUs = true) : c.allow nowUs = (false, c) := by
  rw [allow, if_pos h]

theorem allow_of_not_cooling (h : c.cooling nowUs = false) :
    c.allow nowUs = (true, { lastUs := nowUs }) := by
  rw [allow, h]
  rfl

theorem cooling_iff : c.cooling nowUs = true ↔ c.lastUs ≠ 0 ∧ nowUs - c.lastUs < intervalUs :=
  decide_eq_true_iff

/-- An event that is allowed after one that is not comes later. -/
theorem lt_of_cooling {t : Int} (h : c.cooling t = true) (hnot : c.cooling nowUs = false) :
    t < nowUs := by
  have hcool := cooling_iff.mp h
  have hover : ¬ (c.lastUs ≠ 0 ∧ nowUs - c.lastUs < intervalUs) := by
    rw [← cooling_iff, hnot]
    simp
  omega

end Coalescer

/-! ### ViewerVideoGate -/

def HEALTHY_FRAMES : Nat := 60

/-- What one viewer takes of one stream. -/
structure ViewerVideoGate where
  /-- A frame was dropped: only a keyframe resumes the delivery. -/
  awaitingKeyframe : Bool := false
  requestNextUs : Int := 0
  requestBackoffUs : Int := 0
  /-- A `uint32_t` of the source, where only `HEALTHY_FRAMES` is looked for, to clear the backoff. In
  front of a wrap that is clear, and what sets it, a drop, has the counter start anew: so the wrap
  makes no difference. -/
  healthyFrames : Nat := 0
deriving DecidableEq, Repr

namespace ViewerVideoGate

def allowKeyframeRequest (g : ViewerVideoGate) (nowUs : Int) : Bool × ViewerVideoGate :=
  if nowUs < g.requestNextUs then (false, g)
  else
    let backoffUs := if g.requestBackoffUs = 0 then 1000000 else g.requestBackoffUs
    (true, { g with
      requestNextUs := nowUs + backoffUs
      requestBackoffUs := min (backoffUs * 2) 4000000 })

/-- The outcome of `admitFrame`: forward the frame or not, and whether the viewer now
    waits for a keyframe that does not exist yet. -/
structure Admission where
  forward : Bool
  needsKeyframe : Bool := false
  gate : ViewerVideoGate

def admitFrame (g : ViewerVideoGate) (outstanding threshold : Int) (keyframe : Bool) : Admission :=
  if threshold < outstanding then
    { forward := false
      gate := { g with awaitingKeyframe := true, healthyFrames := 0 } }
  else if g.awaitingKeyframe && !keyframe then
    { forward := false, needsKeyframe := true, gate := g }
  else
    let g := { g with awaitingKeyframe := false, healthyFrames := g.healthyFrames + 1 }
    { forward := true
      gate := if HEALTHY_FRAMES ≤ g.healthyFrames then
          { g with requestBackoffUs := 0, requestNextUs := 0 }
        else g }

@[simp] theorem allowKeyframeRequest_awaiting (g : ViewerVideoGate) (nowUs : Int) :
    (g.allowKeyframeRequest nowUs).2.awaitingKeyframe = g.awaitingKeyframe := by
  unfold allowKeyframeRequest
  split <;> rfl

/-- A waiting gate lets only keyframes through. -/
theorem admit_keyframe {g : ViewerVideoGate} {outstanding threshold : Int} {keyframe : Bool}
    (h : (g.admitFrame outstanding threshold keyframe).forward = true) :
    g.awaitingKeyframe = true → keyframe = true := by
  intro hawaiting
  unfold admitFrame at h
  split at h
  · cases h
  · split at h
    · cases h
    next hdelta =>
      simpa [hawaiting] using hdelta

/-- After a decision the gate waits if and only if the frame was dropped. -/
theorem admit_awaiting (g : ViewerVideoGate) (outstanding threshold : Int) (keyframe : Bool) :
    (g.admitFrame outstanding threshold keyframe).gate.awaitingKeyframe =
      !(g.admitFrame outstanding threshold keyframe).forward := by
  unfold admitFrame
  split
  · rfl
  · split
    next hdelta =>
      simp only [Bool.and_eq_true] at hdelta
      simp [hdelta.1]
    · dsimp only
      split <;> rfl

end ViewerVideoGate

end Parties.Video

import Mathlib.Data.BitVec
import Parties.Lib.Machine
import Parties.Lib.RingSlots
import Parties.Voice.Capture

/-!
# The reference of the echo canceller

Mirror of `EchoCanceller` (`client/src/echo_canceller.cpp`) between `init` and
`shutdown`, its two callbacks taking turns. The playback callback cuts what it
renders into frames of 10 ms and queues them in a ring; the capture callback pairs
each microphone frame with one of them. `float_to_s16` is a parameter, and so is
what Speex makes of a pair: the model ends where the pair is handed over. The
64-bit counters only count up and are natural numbers.
-/

namespace Parties.Voice

def REFERENCE_DELAY_FRAMES : Nat := 2
def QUEUE_CAPACITY_FRAMES : Nat := 64

instance : NeZero QUEUE_CAPACITY_FRAMES := ⟨by decide⟩

/-- The left sample in the low half. -/
def packStereo (left right : BitVec 16) : BitVec 32 :=
  left.setWidth 32 ||| (right.setWidth 32 <<< 16)

def unpackStereo (packed : BitVec 32) : BitVec 16 × BitVec 16 :=
  (packed.setWidth 16, (packed >>> 16).setWidth 16)

@[simp] theorem unpackStereo_packStereo (left right : BitVec 16) :
    unpackStereo (packStereo left right) = (left, right) := by
  have hleft : (packStereo left right).setWidth 16 = left := by
    ext i hi
    simp [packStereo]
  have hright : (packStereo left right >>> 16).setWidth 16 = right := by
    apply BitVec.eq_of_getLsbD_eq
    intro i hi
    have hhigh : 16 + i < 32 := by omega
    have hlow : i < 32 := by omega
    simp [packStereo, hhigh, hlow, hi]
  rw [unpackStereo, hleft, hright]

/-- The ring is its slots of one frame each, and `playbackFrame` is what the source keeps below
`playback_frame_pos_`. -/
structure EchoCanceller where
  referenceQueue : Fin QUEUE_CAPACITY_FRAMES → List (BitVec 32) :=
    fun _ => List.replicate FRAME_SIZE 0
  playbackFrame : List (BitVec 32) := []
  writtenFrames : Nat := 0
  readFrame : Nat := 0
  resetEpoch : Nat := 1
  playbackEpoch : Nat := 0
  captureEpoch : Nat := 0
  playbackSeenEpoch : Nat := 0
  epochFirstFrame : Nat := 0
  delayFramesRemaining : Nat := 0
  captureSynchronized : Bool := false
  referenceStarved : Bool := true
  enabled : Bool := false

inductive EchoOp (F : Type) where
  | pushPlayback (stereo : Option (List (F × F)))
  | processCapture (mono : Option (List F))
  | requestReset
  | setEnabled (enabled : Bool)
deriving DecidableEq, Repr

/-- What the canceller goes through: a reset, an alignment of the capture side, and how each
capture frame ends. Only a paired frame is processed; the sequence tells which playback frame it
was paired with. -/
inductive EchoNote where
  | reset
  | rejected
  | aligned
  | unseen
  | starved
  | held
  | overran
  | paired (sequence : Nat) (microphone : List (BitVec 16))
      (reference : List (BitVec 16 × BitVec 16))
deriving DecidableEq, Repr

namespace EchoCanceller

variable {F : Type} (floatToS16 : F → BitVec 16)

/-- The state behind `init()`, which leaves the epoch, the read position and the switch alone. -/
def init (c : EchoCanceller) : EchoCanceller :=
  { resetEpoch := c.resetEpoch, readFrame := c.readFrame, enabled := c.enabled }

def requestReset (c : EchoCanceller) : EchoCanceller := { c with resetEpoch := c.resetEpoch + 1 }

def setEnabled (c : EchoCanceller) (enabled : Bool) : EchoCanceller × List EchoNote :=
  if c.enabled ≠ enabled then ({ c with enabled }.requestReset, [.reset]) else (c, [])

/-! ### The playback side -/

def publishPlaybackFrame (c : EchoCanceller) : EchoCanceller :=
  { c with
    referenceQueue := RingSlots.store c.referenceQueue c.writtenFrames c.playbackFrame
    writtenFrames := c.writtenFrames + 1 }

/-- The playback callback meets a reset. -/
def enterEpoch (c : EchoCanceller) : EchoCanceller :=
  if c.playbackEpoch ≠ c.resetEpoch then
    { c with
      playbackEpoch := c.resetEpoch
      playbackFrame := []
      epochFirstFrame := c.writtenFrames
      playbackSeenEpoch := c.resetEpoch }
  else c

def pushSample (c : EchoCanceller) (sample : F × F) : EchoCanceller :=
  let c := { c with
    playbackFrame := c.playbackFrame ++ [packStereo (floatToS16 sample.1) (floatToS16 sample.2)] }
  if c.playbackFrame.length = FRAME_SIZE then { c.publishPlaybackFrame with playbackFrame := [] }
  else c

def pushPlayback (c : EchoCanceller) (stereo : Option (List (F × F))) : EchoCanceller :=
  match stereo with
  | none => c
  | some stereo =>
      if c.enabled then stereo.foldl (pushSample floatToS16) c.enterEpoch else c

/-! ### The capture side -/

def rebaseCaptureTiming (c : EchoCanceller) (epoch : Nat) : EchoCanceller :=
  { c with
    captureEpoch := epoch
    captureSynchronized := false
    delayFramesRemaining := 0
    referenceStarved := true }

/-- The capture callback meets a reset. -/
def rebase (c : EchoCanceller) : EchoCanceller :=
  if c.captureEpoch ≠ c.resetEpoch then c.rebaseCaptureTiming c.resetEpoch else c

def alignReader (c : EchoCanceller) : EchoCanceller :=
  { c with readFrame := c.epochFirstFrame, captureSynchronized := true }

def synchronize (c : EchoCanceller) : EchoCanceller × List EchoNote :=
  if !c.captureSynchronized then (c.alignReader, [.aligned]) else (c, [])

/-- Drop the stale queue and align again at `written`. -/
def dropQueue (c : EchoCanceller) (written : Nat) : EchoCanceller :=
  { c with readFrame := written, delayFramesRemaining := 0, referenceStarved := true }

/-- The end of `starved`: the delay is established with the first frame queued. -/
def establishDelay (c : EchoCanceller) : EchoCanceller :=
  if c.referenceStarved then
    { c with referenceStarved := false, delayFramesRemaining := REFERENCE_DELAY_FRAMES }
  else c

/-- `process_capture` from the first load of `written_frames_` on. -/
def pairCapture (c : EchoCanceller) (mono : List F) : EchoCanceller × EchoNote :=
  let written := c.writtenFrames
  if written ≤ c.readFrame then
    (if !c.referenceStarved then { c with referenceStarved := true, delayFramesRemaining := 0 }
      else c, .starved)
  else
    let c := c.establishDelay
    if 0 < c.delayFramesRemaining then
      ({ c with delayFramesRemaining := c.delayFramesRemaining - 1 }, .held)
    else if QUEUE_CAPACITY_FRAMES ≤ written - c.readFrame then (c.dropQueue written, .overran)
    else
      let microphone := mono.map floatToS16
      let reference :=
        (c.referenceQueue (RingSlots.slot QUEUE_CAPACITY_FRAMES c.readFrame)).map unpackStereo
      -- the second load: no playback comes between the two here
      let writtenAfter := c.writtenFrames
      if QUEUE_CAPACITY_FRAMES ≤ writtenAfter - c.readFrame then
        (c.dropQueue writtenAfter, .overran)
      else
        ({ c with readFrame := c.readFrame + 1 }, .paired c.readFrame microphone reference)

def processCapture (c : EchoCanceller) (mono : Option (List F)) :
    EchoCanceller × List EchoNote :=
  match mono with
  | none => (c, [.rejected])
  | some mono =>
      if mono.length ≠ FRAME_SIZE || !c.enabled then (c, [.rejected])
      else
        let c := c.rebase
        if c.playbackSeenEpoch ≠ c.resetEpoch then (c, [.unseen])
        else
          let (c, notes) := c.synchronize
          let (c, note) := pairCapture floatToS16 c mono
          (c, notes ++ [note])

/-! ### Runs -/

def step (c : EchoCanceller) : EchoOp F → EchoCanceller × List EchoNote
  | .pushPlayback stereo => (pushPlayback floatToS16 c stereo, [])
  | .processCapture mono => processCapture floatToS16 c mono
  | .requestReset => (c.requestReset, [.reset])
  | .setEnabled enabled => c.setEnabled enabled

def next (c : EchoCanceller) (op : EchoOp F) : EchoCanceller := (step floatToS16 c op).1

/-- What the canceller goes through in a run. -/
def trace : EchoCanceller → List (EchoOp F) → List EchoNote
  | _, [] => []
  | c, op :: ops => (step floatToS16 c op).2 ++ trace (next floatToS16 c op) ops

end EchoCanceller

/-! ### What was played -/

/-- The playback as the operations alone give it: the frames of earlier epochs are counted, the
samples of the epoch are kept. -/
structure Playback (F : Type) where
  enabled : Bool
  earlier : Nat := 0
  samples : List (F × F) := []

namespace Playback

variable {F : Type}

/-- The complete frames of the epoch. -/
def frames (p : Playback F) : Nat := p.samples.length / FRAME_SIZE

def written (p : Playback F) : Nat := p.earlier + p.frames

/-- The samples of frame `k` of the epoch. -/
def frame (p : Playback F) (k : Nat) : List (F × F) :=
  (p.samples.drop (k * FRAME_SIZE)).take FRAME_SIZE

def reset (p : Playback F) : Playback F := { p with earlier := p.written, samples := [] }

def push (p : Playback F) (samples : List (F × F)) : Playback F :=
  { p with samples := p.samples ++ samples }

def step (p : Playback F) : EchoOp F → Playback F
  | .pushPlayback (some stereo) => if p.enabled then p.push stereo else p
  | .pushPlayback none | .processCapture _ => p
  | .requestReset => p.reset
  | .setEnabled enabled => if p.enabled ≠ enabled then { p.reset with enabled } else p

theorem earlier_pushPlayback (p : Playback F) (stereo : Option (List (F × F))) :
    (p.step (.pushPlayback stereo)).earlier = p.earlier := by
  cases stereo with
  | none => rfl
  | some stereo =>
      unfold step
      dsimp only
      split <;> rfl

/-- The samples behind the last complete frame. -/
def rest (p : Playback F) : List (F × F) := p.samples.drop (p.frames * FRAME_SIZE)

theorem frames_of_nil {p : Playback F} (h : p.samples = []) : p.frames = 0 := by
  rw [frames, h, List.length_nil, Nat.zero_div]

theorem written_of_nil {p : Playback F} (h : p.samples = []) : p.written = p.earlier := by
  rw [written, frames_of_nil h, Nat.add_zero]

theorem rest_of_nil {p : Playback F} (h : p.samples = []) : p.rest = [] := by
  rw [rest, h, List.drop_nil]

theorem push_cons (p : Playback F) (sample : F × F) (samples : List (F × F)) :
    p.push (sample :: samples) = (p.push [sample]).push samples := by
  simp [push]

theorem rest_length (p : Playback F) :
    p.rest.length + p.frames * FRAME_SIZE = p.samples.length := by
  have hle : p.frames * FRAME_SIZE ≤ p.samples.length := Nat.div_mul_le_self ..
  rw [rest, List.length_drop]
  omega

theorem rest_length_lt (p : Playback F) : p.rest.length < FRAME_SIZE := by
  have hmod : p.samples.length % FRAME_SIZE < FRAME_SIZE := Nat.mod_lt _ (by decide)
  have hdiv := Nat.div_add_mod' p.samples.length FRAME_SIZE
  have hrest := p.rest_length
  rw [frames] at hrest
  omega

/-- A sample that completes no frame. -/
theorem push_open {p : Playback F} (sample : F × F) (h : p.rest.length + 1 ≠ FRAME_SIZE) :
    (p.push [sample]).frames = p.frames ∧ (p.push [sample]).rest = p.rest ++ [sample] := by
  have hlength := p.rest_length
  have hlt := p.rest_length_lt
  have hframes : (p.push [sample]).frames = p.frames := by
    rw [frames, push, List.length_append, List.length_singleton]
    exact Nat.div_eq_of_lt_le (by omega) (by rw [Nat.succ_mul]; omega)
  refine ⟨hframes, ?_⟩
  rw [rest, hframes, push, List.drop_append_of_le_length (by omega), rest]

/-- A sample that completes a frame. -/
theorem push_complete {p : Playback F} (sample : F × F) (h : p.rest.length + 1 = FRAME_SIZE) :
    (p.push [sample]).frames = p.frames + 1 ∧ (p.push [sample]).rest = [] ∧
      (p.push [sample]).frame p.frames = p.rest ++ [sample] := by
  have hlength := p.rest_length
  have hsamples : (p.push [sample]).samples.length = (p.frames + 1) * FRAME_SIZE := by
    rw [push, List.length_append, List.length_singleton, Nat.succ_mul]
    omega
  have hframes : (p.push [sample]).frames = p.frames + 1 := by
    rw [frames, hsamples]
    exact Nat.mul_div_cancel _ (by decide)
  refine ⟨hframes, ?_, ?_⟩
  · rw [rest, hframes]
    exact List.drop_of_length_le hsamples.le
  · rw [frame, push, List.drop_append_of_le_length (by omega)]
    exact List.take_of_length_le (by rw [List.length_append, List.length_singleton]; exact h.le)

/-- A complete frame stays as it is. -/
theorem frame_push {p : Playback F} (samples : List (F × F)) {k : Nat} (h : k < p.frames) :
    (p.push samples).frame k = p.frame k := by
  have hend : (k + 1) * FRAME_SIZE ≤ p.frames * FRAME_SIZE := Nat.mul_le_mul_right _ h
  have hlength := p.rest_length
  rw [Nat.succ_mul] at hend
  rw [frame, push, List.drop_append_of_le_length (by omega),
    List.take_append_of_le_length (by rw [List.length_drop]; omega), frame]

end Playback

end Parties.Voice

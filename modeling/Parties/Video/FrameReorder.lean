import Parties.Lib.Machine
import Parties.Lib.OrderedMap
import Parties.Video.Common

/-!
# The frame reorder buffer

Mirror of `VideoFrameReorderBuffer` (`common/src/video_frame_reorder.cpp`). Each
member function returns the new buffer and, in call order, the callbacks it
made: `deliver` with a header and its frame, `lost` with the first missing
sequence number. `std::map` is an `OrderedMap`; the loops over it recurse on
their iteration count, which is at most the number of held frames.
-/

namespace Parties.Video

structure VideoFrameReorderConfig where
  minHoldMs : Nat := 150
  maxHoldMs : Nat := 1500
  rttHoldFactor : Nat := 3
  holdExtraMs : Nat := 100
  maxHeldFrames : Nat := 240
  maxBytes : Nat := 8 * 1024 * 1024
deriving DecidableEq, Repr

/-- The adjustments of the constructor. -/
def VideoFrameReorderConfig.normalized (cfg : VideoFrameReorderConfig) :
    VideoFrameReorderConfig :=
  { cfg with
    maxHeldFrames := if cfg.maxHeldFrames = 0 then 1 else cfg.maxHeldFrames
    maxHoldMs := if cfg.maxHoldMs < cfg.minHoldMs then cfg.minHoldMs else cfg.maxHoldMs }

def MAX_ABORTED_TRACKED : Nat := 64

/-- A complete frame waiting for an older one. -/
structure Held (φ : Type) where
  hdr : VideoFrameHeader
  frame : φ
  arrivedUs : Int

def Held.size {φ : Type} [FrameBytes φ] (h : Held φ) : Nat := frameSize h.frame

/-- The callbacks of the buffer. -/
inductive ReorderEvent (φ : Type) where
  | deliver (hdr : VideoFrameHeader) (frame : φ)
  | lost (firstMissing : BitVec 32)

structure VideoFrameReorderBuffer (φ : Type) where
  cfg : VideoFrameReorderConfig
  rttUs : Nat := 0
  haveLast : Bool := false
  awaitingKeyframe : Bool := true
  /-- `lost` was called for the current recovery. -/
  lossReported : Bool := false
  lastDelivered : BitVec 32 := 0
  held : OrderedMap Int (Held φ) := OrderedMap.empty
  heldBytes : Nat := 0
  gapSinceUs : Int := 0
  inflightKey : Bool := false
  inflightKeySeq : BitVec 32 := 0
  inflightKeySinceUs : Int := 0
  aborted : List (BitVec 32) := []

/-- Re-key a held map against a new base. -/
def rekeyHeld {φ : Type} (held : OrderedMap Int (Held φ)) (base : BitVec 32) :
    OrderedMap Int (Held φ) :=
  held.rekey fun h => videoSeqDistance h.hdr.frameSeq base

def earliestArrival {φ : Type} (held : OrderedMap Int (Held φ)) : Int :=
  held.values.foldl
    (fun earliest h =>
      if earliest = 0 ∨ h.arrivedUs < earliest then h.arrivedUs else earliest) 0

namespace VideoFrameReorderBuffer

variable {φ : Type}

/-- The constructor. -/
def new (cfg : VideoFrameReorderConfig) : VideoFrameReorderBuffer φ := { cfg := cfg.normalized }

/-- Forget everything but the configuration and the path's RTT. -/
def reset (b : VideoFrameReorderBuffer φ) : VideoFrameReorderBuffer φ :=
  { cfg := b.cfg, rttUs := b.rttUs }

def setRtt (b : VideoFrameReorderBuffer φ) (rttUs : Nat) : VideoFrameReorderBuffer φ :=
  { b with rttUs := rttUs }

/-- The hold for a missing frame at the current RTT. -/
def holdUs (b : VideoFrameReorderBuffer φ) : Int :=
  let hold : Int := b.cfg.minHoldMs * 1000
  let hold := if 0 < b.rttUs then
      max hold (b.rttUs * b.cfg.rttHoldFactor + b.cfg.holdExtraMs * 1000)
    else hold
  min hold (b.cfg.maxHoldMs * 1000)

def keyframeInFlight (b : VideoFrameReorderBuffer φ) (nowUs : Int) : Bool :=
  -- a keyframe stream that has been arriving for longer is presumed stuck
  b.inflightKey && decide (nowUs - b.inflightKeySinceUs < max (4 * b.holdUs) 2000000)

def needsKeyframe (b : VideoFrameReorderBuffer φ) : Bool := !b.haveLast || b.awaitingKeyframe

def shouldRequestKeyframe (b : VideoFrameReorderBuffer φ) (nowUs : Int) : Bool :=
  b.needsKeyframe && !b.keyframeInFlight nowUs

def keyFor (b : VideoFrameReorderBuffer φ) (seq : BitVec 32) : Int :=
  videoSeqDistance seq b.lastDelivered

def forgetInflightThrough (b : VideoFrameReorderBuffer φ) (seq : BitVec 32) :
    VideoFrameReorderBuffer φ :=
  if b.inflightKey && !videoSeqNewer b.inflightKeySeq seq then { b with inflightKey := false }
  else b

def nextIsAborted (b : VideoFrameReorderBuffer φ) : Bool :=
  b.aborted.contains (b.lastDelivered + 1)

def onFrameStarted (b : VideoFrameReorderBuffer φ) (hdr : VideoFrameHeader) (nowUs : Int) :
    VideoFrameReorderBuffer φ :=
  if !hdr.keyframe then b
  else if b.haveLast && !videoSeqNewer hdr.frameSeq b.lastDelivered then b
  else if !b.inflightKey || videoSeqNewer hdr.frameSeq b.inflightKeySeq then
    { b with
      inflightKey := true
      inflightKeySeq := hdr.frameSeq
      inflightKeySinceUs := nowUs }
  else b

def reportLoss (b : VideoFrameReorderBuffer φ) :
    VideoFrameReorderBuffer φ × List (ReorderEvent φ) :=
  if b.lossReported || !b.awaitingKeyframe then (b, [])
  else ({ b with lossReported := true }, [.lost (b.lastDelivered + 1)])

def requireKeyframe (b : VideoFrameReorderBuffer φ) (nowUs : Int) :
    VideoFrameReorderBuffer φ × List (ReorderEvent φ) :=
  if b.awaitingKeyframe then (b, [])
  else
    let b := { b with awaitingKeyframe := true, lossReported := false }
    -- a newer keyframe that is already arriving repairs the gap by itself
    if b.keyframeInFlight nowUs then (b, []) else b.reportLoss

def deliverOne (b : VideoFrameReorderBuffer φ) (hdr : VideoFrameHeader) (frame : φ) :
    VideoFrameReorderBuffer φ × List (ReorderEvent φ) :=
  (b.forgetInflightThrough hdr.frameSeq, [.deliver hdr frame])

variable [FrameBytes φ]

/-- The `while` loop of `drain`: deliver consecutive held frames. Entries are
    matched by their sequence number, since their keys go stale here. -/
def drainLoop : Nat → VideoFrameReorderBuffer φ →
    VideoFrameReorderBuffer φ × List (ReorderEvent φ)
  | 0, b => (b, [])
  | fuel + 1, b =>
    match b.held.front? with
    | none => (b, [])
    | some (_, h) =>
      if h.hdr.frameSeq ≠ b.lastDelivered + 1 then (b, [])
      else
        let b := { b with
          held := b.held.popFront
          heldBytes := b.heldBytes - h.size
          lastDelivered := h.hdr.frameSeq }
        let (b, delivered) := b.deliverOne h.hdr h.frame
        let (b, rest) := drainLoop fuel b
        (b, delivered ++ rest)

def drain (b : VideoFrameReorderBuffer φ) (nowUs : Int) :
    VideoFrameReorderBuffer φ × List (ReorderEvent φ) :=
  let (b, delivered) := b.drainLoop b.held.size
  let b := { b with held := rekeyHeld b.held b.lastDelivered }
  let b := { b with
    gapSinceUs := earliestArrival b.held
    aborted := b.aborted.filter fun seq => videoSeqNewer seq b.lastDelivered }
  if b.nextIsAborted then
    let (b, losses) := b.requireKeyframe nowUs
    (b, delivered ++ losses)
  else (b, delivered)

def overBounds (b : VideoFrameReorderBuffer φ) : Bool :=
  decide (b.cfg.maxHeldFrames < b.held.size) || decide (b.cfg.maxBytes < b.heldBytes)

/-- The `while` loop of `bound_held`. Before the first keyframe the newest
    deltas are the useful ones, after it the oldest are. -/
def boundHeldLoop : Nat → VideoFrameReorderBuffer φ → VideoFrameReorderBuffer φ
  | 0, b => b
  | fuel + 1, b =>
    if !b.overBounds then b
    else
      match (if b.haveLast then b.held.back? else b.held.front?) with
      | none => b
      | some (_, victim) =>
        boundHeldLoop fuel { b with
          heldBytes := b.heldBytes - victim.size
          held := if b.haveLast then b.held.popBack else b.held.popFront }

def boundHeld (b : VideoFrameReorderBuffer φ) : VideoFrameReorderBuffer φ :=
  let b := b.boundHeldLoop b.held.size
  { b with gapSinceUs := earliestArrival b.held }

/-- Drop the held frames that fail `keep`, with their bytes. -/
def dropHeld (b : VideoFrameReorderBuffer φ) (keep : Int × Held φ → Bool) :
    VideoFrameReorderBuffer φ :=
  { b with
    heldBytes := b.heldBytes -
      ((b.held.entries.filter fun e => !keep e).map fun e => e.2.size).sum
    held := b.held.filter keep }

/-- The part every branch of `on_frame` that delivers ends in: the frame becomes
    the last delivered one and releases what is queued behind it. -/
def resumeAt (b : VideoFrameReorderBuffer φ) (hdr : VideoFrameHeader) (frame : φ) (nowUs : Int) :
    VideoFrameReorderBuffer φ × List (ReorderEvent φ) :=
  let (b, first) := b.deliverOne hdr frame
  let (b, rest) := b.drain nowUs
  (b, first ++ rest)

/-- Keep a frame that cannot be delivered yet. -/
def hold (b : VideoFrameReorderBuffer φ) (hdr : VideoFrameHeader) (frame : φ) (nowUs : Int) :
    VideoFrameReorderBuffer φ :=
  { b with
    heldBytes := b.heldBytes + frameSize frame
    held := b.held.emplace (b.keyFor hdr.frameSeq) ⟨hdr, frame, nowUs⟩ }

/-- `on_frame` before the first keyframe, for a delta: keep it without
    committing a baseline. -/
def onStartupDelta (b : VideoFrameReorderBuffer φ) (hdr : VideoFrameHeader) (frame : φ)
    (nowUs : Int) : VideoFrameReorderBuffer φ :=
  let b := if b.held.isEmpty then { b with lastDelivered := hdr.frameSeq } else b
  if b.held.contains (b.keyFor hdr.frameSeq) then b else (b.hold hdr frame nowUs).boundHeld

/-- `on_frame` before the first keyframe, for the keyframe. -/
def onFirstKeyframe (b : VideoFrameReorderBuffer φ) (hdr : VideoFrameHeader) (frame : φ)
    (nowUs : Int) : VideoFrameReorderBuffer φ × List (ReorderEvent φ) :=
  let b := b.dropHeld fun e => videoSeqNewer e.2.hdr.frameSeq hdr.frameSeq
  { b with
    haveLast := true
    awaitingKeyframe := false
    lossReported := false
    lastDelivered := hdr.frameSeq
    aborted := []
    held := rekeyHeld b.held hdr.frameSeq }.resumeAt hdr frame nowUs

/-- `on_frame` for the expected next frame. -/
def onNextFrame (b : VideoFrameReorderBuffer φ) (hdr : VideoFrameHeader) (frame : φ)
    (nowUs : Int) : VideoFrameReorderBuffer φ × List (ReorderEvent φ) :=
  { b with
    awaitingKeyframe := false
    lossReported := false
    lastDelivered := hdr.frameSeq }.resumeAt hdr frame nowUs

/-- `on_frame` for a keyframe behind a gap: nothing before it is needed. -/
def onKeyframeJump (b : VideoFrameReorderBuffer φ) (hdr : VideoFrameHeader) (frame : φ)
    (nowUs : Int) : VideoFrameReorderBuffer φ × List (ReorderEvent φ) :=
  let key := b.keyFor hdr.frameSeq
  let b := b.dropHeld fun e => decide (key < e.1)
  { b with
    awaitingKeyframe := false
    lossReported := false
    lastDelivered := hdr.frameSeq }.resumeAt hdr frame nowUs

/-- `on_frame` for a delta behind a gap: hold it until the gap closes or expires. -/
def onGapDelta (b : VideoFrameReorderBuffer φ) (hdr : VideoFrameHeader) (frame : φ)
    (nowUs : Int) : VideoFrameReorderBuffer φ × List (ReorderEvent φ) :=
  if b.held.contains (b.keyFor hdr.frameSeq) then (b, [])
  else
    let b := if b.held.isEmpty then { b with gapSinceUs := nowUs } else b
    let b := b.hold hdr frame nowUs
    if b.overBounds then
      let (b, losses) := b.requireKeyframe nowUs
      (b.boundHeld, losses)
    else if b.nextIsAborted then b.requireKeyframe nowUs
    else (b, [])

def onFrame (b : VideoFrameReorderBuffer φ) (hdr : VideoFrameHeader) (frame : φ) (nowUs : Int) :
    VideoFrameReorderBuffer φ × List (ReorderEvent φ) :=
  -- old frames never move the baseline back, keyframes included
  if b.haveLast && !videoSeqNewer hdr.frameSeq b.lastDelivered then (b, [])
  else if !b.haveLast then
    if !hdr.keyframe then (b.onStartupDelta hdr frame nowUs, [])
    else b.onFirstKeyframe hdr frame nowUs
  else if hdr.frameSeq = b.lastDelivered + 1 then b.onNextFrame hdr frame nowUs
  else if hdr.keyframe then b.onKeyframeJump hdr frame nowUs
  else b.onGapDelta hdr frame nowUs

/-- `on_frame_aborted` for a frame ahead of the chain: drop it if it is held,
    remember it otherwise. -/
def noteAborted (b : VideoFrameReorderBuffer φ) (frameSeq : BitVec 32) :
    VideoFrameReorderBuffer φ :=
  match b.held.find? (b.keyFor frameSeq) with
  | some h =>
    let b := { b with
      heldBytes := b.heldBytes - h.size
      held := b.held.erase (b.keyFor frameSeq) }
    { b with gapSinceUs := earliestArrival b.held }
  | none =>
    if b.aborted.contains frameSeq then b
    else
      let aborted := if MAX_ABORTED_TRACKED ≤ b.aborted.length then b.aborted.tail else b.aborted
      { b with aborted := aborted ++ [frameSeq] }

def onFrameAborted (b : VideoFrameReorderBuffer φ) (frameSeq : BitVec 32) (nowUs : Int) :
    VideoFrameReorderBuffer φ × List (ReorderEvent φ) :=
  let lostInflightKey := b.inflightKey && decide (frameSeq = b.inflightKeySeq)
  let b := if lostInflightKey then { b with inflightKey := false } else b
  if !b.haveLast then (b, [])
  else if frameSeq = b.lastDelivered + 1 then
    let (b, losses) := b.requireKeyframe nowUs
    if lostInflightKey then
      let (b, more) := b.reportLoss
      (b, losses ++ more)
    else (b, losses)
  else if !videoSeqNewer frameSeq b.lastDelivered then (b, [])
  else
    let (b, losses) := if lostInflightKey && b.awaitingKeyframe then b.reportLoss else (b, [])
    (b.noteAborted frameSeq, losses)

def poll (b : VideoFrameReorderBuffer φ) (nowUs : Int) :
    VideoFrameReorderBuffer φ × List (ReorderEvent φ) :=
  let hold := b.holdUs
  if !b.haveLast then
    let b := b.dropHeld fun e => decide (nowUs - e.2.arrivedUs < hold)
    ({ b with gapSinceUs := earliestArrival b.held }, [])
  else if b.awaitingKeyframe then
    -- the keyframe we stayed quiet for never completed: ask now
    if !b.lossReported && !b.keyframeInFlight nowUs then b.reportLoss else (b, [])
  else if !b.held.isEmpty && decide (hold ≤ nowUs - b.gapSinceUs) then b.requireKeyframe nowUs
  else (b, [])

end VideoFrameReorderBuffer

/-! ### Runs -/

/-- One call of the owner. -/
inductive ReorderOp (φ : Type) where
  | frameStarted (hdr : VideoFrameHeader) (nowUs : Int)
  | frame (hdr : VideoFrameHeader) (frame : φ) (nowUs : Int)
  | frameAborted (frameSeq : BitVec 32) (nowUs : Int)
  | poll (nowUs : Int)
  | setRtt (rttUs : Nat)
  | reset

def ReorderOp.isReset {φ : Type} : ReorderOp φ → Bool
  | .reset => true
  | _ => false

namespace VideoFrameReorderBuffer

variable {φ : Type} [FrameBytes φ]

def step (b : VideoFrameReorderBuffer φ) :
    ReorderOp φ → VideoFrameReorderBuffer φ × List (ReorderEvent φ)
  | .frameStarted hdr nowUs => (b.onFrameStarted hdr nowUs, [])
  | .frame hdr frame nowUs => b.onFrame hdr frame nowUs
  | .frameAborted frameSeq nowUs => b.onFrameAborted frameSeq nowUs
  | .poll nowUs => b.poll nowUs
  | .setRtt rttUs => (b.setRtt rttUs, [])
  | .reset => (b.reset, [])

/-- The buffer after a run of calls, with the callbacks made in it. -/
def run (b : VideoFrameReorderBuffer φ) (ops : List (ReorderOp φ)) :
    VideoFrameReorderBuffer φ × List (ReorderEvent φ) :=
  Machine.run (Machine.logged step) (b, []) ops

@[simp] theorem run_nil (b : VideoFrameReorderBuffer φ) : b.run [] = (b, []) := rfl

theorem run_cons (b : VideoFrameReorderBuffer φ) (op : ReorderOp φ) (ops : List (ReorderOp φ)) :
    b.run (op :: ops) = (((b.step op).1.run ops).1, (b.step op).2 ++ ((b.step op).1.run ops).2) := by
  simp only [run, Machine.run_cons, Machine.logged, List.nil_append]
  exact Machine.run_logged step _ _ ops

end VideoFrameReorderBuffer

namespace VideoFrameReorderBuffer

variable {φ : Type} [FrameBytes φ]

theorem run_append (b : VideoFrameReorderBuffer φ) (xs ys : List (ReorderOp φ)) :
    b.run (xs ++ ys) = (((b.run xs).1.run ys).1, (b.run xs).2 ++ ((b.run xs).1.run ys).2) := by
  induction xs generalizing b with
  | nil => simp
  | cons x xs ih => rw [List.cons_append, run_cons, run_cons, ih, List.append_assoc]

end VideoFrameReorderBuffer

/-- The frames handed to `deliver`, in order. -/
def deliveredFrames {φ : Type} (events : List (ReorderEvent φ)) : List (VideoFrameHeader × φ) :=
  events.filterMap fun
    | .deliver hdr frame => some (hdr, frame)
    | .lost _ => none

@[simp] theorem deliveredFrames_nil {φ : Type} :
    deliveredFrames ([] : List (ReorderEvent φ)) = [] := rfl

@[simp] theorem deliveredFrames_deliver {φ : Type} (hdr : VideoFrameHeader) (frame : φ)
    (events : List (ReorderEvent φ)) :
    deliveredFrames (.deliver hdr frame :: events) = (hdr, frame) :: deliveredFrames events := rfl

@[simp] theorem deliveredFrames_lost {φ : Type} (seq : BitVec 32)
    (events : List (ReorderEvent φ)) :
    deliveredFrames (.lost seq :: events) = deliveredFrames events := rfl

@[simp] theorem deliveredFrames_append {φ : Type} (xs ys : List (ReorderEvent φ)) :
    deliveredFrames (xs ++ ys) = deliveredFrames xs ++ deliveredFrames ys :=
  List.filterMap_append

end Parties.Video

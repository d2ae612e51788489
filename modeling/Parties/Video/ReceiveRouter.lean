import Mathlib.Logic.Function.Basic
import Parties.Video.FrameReorder
import Parties.Video.Playout

/-!
# The viewer's frame router

Mirror of `VideoReceiveRouter` (`common/src/video_receive_router.cpp`): a reorder
buffer per watched stream, the queues its frames wait in until they are due, the
batch the playout thread hands out, and the pacing of keyframe requests.

The playout thread holds its mutex while it moves due frames into its batch
(`collect`) and releases it to hand them out one by one (`deliverNext`), so other
calls come in between. The other members are one step each: no second thread
sees a stream that `close` has erased from the buffers but not yet from the
queues, since frames of such a stream are dropped. The order in which a hash map
is iterated is part of the call.
-/

namespace Parties.Video

/-- A queue past this length plays its oldest frames at once. -/
def MAX_PENDING_FRAMES : Nat := 64

structure VideoReceiveRouterConfig where
  reorder : VideoFrameReorderConfig := {}
  baseBackoffMs : Nat := 500
  maxBackoffMs : Nat := 4000
  playout : Bool := true
  playoutClock : VideoPlayoutConfig := {}

/-- The adjustments of the constructor. -/
def VideoReceiveRouterConfig.normalized (cfg : VideoReceiveRouterConfig) :
    VideoReceiveRouterConfig :=
  let base := if cfg.baseBackoffMs = 0 then 1 else cfg.baseBackoffMs
  { cfg with
    baseBackoffMs := base
    maxBackoffMs := if cfg.maxBackoffMs < base then base else cfg.maxBackoffMs }

structure RouterStats where
  framesDelivered : Nat := 0
  keyframesDelivered : Nat := 0
  requestsSent : Nat := 0
  requestsPaced : Nat := 0
  playoutDelayUs : Int := 0
deriving DecidableEq, Repr

structure Pacing where
  nextUs : Int := 0
  backoffUs : Int := 0
deriving DecidableEq, Repr

structure StreamState (φ : Type) where
  buffer : VideoFrameReorderBuffer φ
  clock : VideoPlayoutClock
  stats : RouterStats := {}

/-- A frame that waits for its playout time. -/
structure Pending (φ : Type) where
  atUs : Int
  hdr : VideoFrameHeader
  frame : φ

/-- The callbacks of the router. -/
inductive RouterEvent (φ : Type) where
  | deliver (stream : StreamId) (hdr : VideoFrameHeader) (frame : φ)
  | sendRequest (stream : StreamId)

structure VideoReceiveRouter (φ : Type) where
  cfg : VideoReceiveRouterConfig
  streams : StreamId → Option (StreamState φ) := fun _ => none
  rttUs : Nat := 0
  pacing : StreamId → Option Pacing := fun _ => none
  pacingStats : StreamId → RouterStats := fun _ => {}
  pending : StreamId → List (Pending φ) := fun _ => []
  /-- The batch of the playout thread. -/
  due : List (StreamId × Pending φ) := []

namespace VideoReceiveRouter

variable {φ : Type}

def new (cfg : VideoReceiveRouterConfig) : VideoReceiveRouter φ := { cfg := cfg.normalized }

/-! ### Keyframe requests -/

def requestKeyframe (r : VideoReceiveRouter φ) (stream : StreamId) (nowUs : Int) :
    VideoReceiveRouter φ × List (RouterEvent φ) :=
  let p := (r.pacing stream).getD {}
  let s := r.pacingStats stream
  let p := if p.backoffUs = 0 then { p with backoffUs := r.cfg.baseBackoffMs * 1000 } else p
  if nowUs < p.nextUs then
    ({ r with
      pacing := Function.update r.pacing stream (some p)
      pacingStats := Function.update r.pacingStats stream
        { s with requestsPaced := s.requestsPaced + 1 } }, [])
  else
    ({ r with
      pacing := Function.update r.pacing stream (some {
        nextUs := nowUs + p.backoffUs
        backoffUs := min (p.backoffUs * 2) (r.cfg.maxBackoffMs * 1000) })
      pacingStats := Function.update r.pacingStats stream
        { s with requestsSent := s.requestsSent + 1 } }, [.sendRequest stream])

def keyframeArrived (r : VideoReceiveRouter φ) (stream : StreamId) : VideoReceiveRouter φ :=
  match r.pacing stream with
  | none => r
  | some _ =>
    { r with
      pacing := Function.update r.pacing stream
        (some { nextUs := 0, backoffUs := r.cfg.baseBackoffMs * 1000 }) }

/-! ### The watch lifecycle -/

def openStream (r : VideoReceiveRouter φ) (stream : StreamId) (nowUs : Int) : VideoReceiveRouter φ :=
  { r with
    streams := Function.update r.streams stream (some {
      buffer := (VideoFrameReorderBuffer.new r.cfg.reorder).setRtt r.rttUs
      clock := { cfg := r.cfg.playoutClock } })
    pacing := Function.update r.pacing stream
      (if nowUs ≠ 0 then
        some {
          backoffUs := r.cfg.baseBackoffMs * 1000
          nextUs := nowUs + r.cfg.baseBackoffMs * 1000 }
      else none)
    pacingStats := Function.update r.pacingStats stream {} }

def close (r : VideoReceiveRouter φ) (stream : StreamId) : VideoReceiveRouter φ :=
  { r with
    streams := Function.update r.streams stream none
    pending := Function.update r.pending stream []
    pacing := Function.update r.pacing stream none
    pacingStats := Function.update r.pacingStats stream {} }

def closeAll (r : VideoReceiveRouter φ) : VideoReceiveRouter φ :=
  { r with
    streams := fun _ => none
    pending := fun _ => []
    pacing := fun _ => none
    pacingStats := fun _ => {} }

def isOpen (r : VideoReceiveRouter φ) (stream : StreamId) : Bool := (r.streams stream).isSome

def setRtt (r : VideoReceiveRouter φ) (rttUs : Nat) : VideoReceiveRouter φ :=
  { r with
    rttUs := rttUs
    streams := fun stream =>
      (r.streams stream).map fun st => { st with buffer := st.buffer.setRtt rttUs } }

/-! ### The callbacks of the buffers -/

/-- `deliver_fn`: hand the frame on, now or at its playout time. -/
def onDeliver (r : VideoReceiveRouter φ) (stream : StreamId) (st : StreamState φ)
    (hdr : VideoFrameHeader) (frame : φ) (nowUs : Int) :
    VideoReceiveRouter φ × StreamState φ × List (RouterEvent φ) :=
  let st := { st with stats := { st.stats with
    framesDelivered := st.stats.framesDelivered + 1
    keyframesDelivered := st.stats.keyframesDelivered + if hdr.keyframe then 1 else 0 } }
  let r := if hdr.keyframe then r.keyframeArrived stream else r
  if !r.cfg.playout then (r, st, [.deliver stream hdr frame])
  else
    let (clock, atUs) := st.clock.playoutTime hdr nowUs
    ({ r with
      pending := Function.update r.pending stream (r.pending stream ++ [⟨atUs, hdr, frame⟩]) },
      { st with clock := clock, stats := { st.stats with playoutDelayUs := clock.delayUs } }, [])

/-- The callbacks one call of the buffer of `stream` made, in order. -/
def onBufferEvents (stream : StreamId) (nowUs : Int) :
    VideoReceiveRouter φ → StreamState φ → List (ReorderEvent φ) →
      VideoReceiveRouter φ × StreamState φ × List (RouterEvent φ)
  | r, st, [] => (r, st, [])
  | r, st, .deliver hdr frame :: events =>
    let (r, st, delivered) := r.onDeliver stream st hdr frame nowUs
    let (r, st, rest) := onBufferEvents stream nowUs r st events
    (r, st, delivered ++ rest)
  | r, st, .lost _ :: events =>
    let (r, requested) := r.requestKeyframe stream nowUs
    let (r, st, rest) := onBufferEvents stream nowUs r st events
    (r, st, requested ++ rest)

/-- Put the outcome of a call on the buffer of `stream` back. -/
def putStream (r : VideoReceiveRouter φ) (stream : StreamId) (st : StreamState φ)
    (outcome : VideoFrameReorderBuffer φ × List (ReorderEvent φ)) (nowUs : Int) :
    VideoReceiveRouter φ × List (RouterEvent φ) :=
  let (r, st, events) :=
    onBufferEvents stream nowUs r { st with buffer := outcome.1 } outcome.2
  ({ r with streams := Function.update r.streams stream (some st) }, events)

/-! ### The transport thread -/

variable [FrameBytes φ]

def onFrameStarted (r : VideoReceiveRouter φ) (stream : StreamId) (hdr : VideoFrameHeader)
    (nowUs : Int) : VideoReceiveRouter φ :=
  match r.streams stream with
  | none => r
  | some st =>
    { r with
      streams := Function.update r.streams stream
        (some { st with buffer := st.buffer.onFrameStarted hdr nowUs }) }

def onFrame (r : VideoReceiveRouter φ) (stream : StreamId) (frame : φ) (nowUs : Int) :
    VideoReceiveRouter φ × List (RouterEvent φ) :=
  match VideoFrameHeader.parse (FrameBytes.bytes frame) with
  | none => (r, [])
  | some hdr =>
    match r.streams stream with
    | none => (r, [])
    | some st => r.putStream stream st (st.buffer.onFrame hdr frame nowUs) nowUs

/-- `frameSeq` is `none` when the stream died before its header arrived. -/
def onFrameAborted (r : VideoReceiveRouter φ) (stream : StreamId) (frameSeq : Option (BitVec 32))
    (nowUs : Int) : VideoReceiveRouter φ × List (RouterEvent φ) :=
  match r.streams stream with
  | none => (r, [])
  | some st =>
    match frameSeq with
    | some seq => r.putStream stream st (st.buffer.onFrameAborted seq nowUs) nowUs
    | none => if st.buffer.keyframeInFlight nowUs then (r, []) else r.requestKeyframe stream nowUs

/-! ### The main thread -/

/-- What a tick remembers of a stream between its two passes. -/
structure Candidate where
  stream : StreamId
  wants : Bool
  keyArriving : Bool

/-- Poll the open streams, in the order the map is iterated. -/
def pollStreams (nowUs : Int) : VideoReceiveRouter φ → List StreamId →
    VideoReceiveRouter φ × List Candidate × List (RouterEvent φ)
  | r, [] => (r, [], [])
  | r, stream :: order =>
    match r.streams stream with
    | none => pollStreams nowUs r order
    | some st =>
      let outcome := st.buffer.poll nowUs
      let (r, events) := r.putStream stream st outcome nowUs
      let candidate := {
        stream := stream
        wants := outcome.1.shouldRequestKeyframe nowUs
        keyArriving := outcome.1.keyframeInFlight nowUs }
      let (r, candidates, rest) := pollStreams nowUs r order
      (r, candidate :: candidates, events ++ rest)

/-- Re-send the requests of the streams that still need a keyframe. -/
def requestMissing (nowUs : Int) (decoderNeedsKeyframe : StreamId → Bool) :
    VideoReceiveRouter φ → List Candidate → VideoReceiveRouter φ × List (RouterEvent φ)
  | r, [] => (r, [])
  | r, c :: candidates =>
    let (r, events) :=
      if c.wants || (!c.keyArriving && decoderNeedsKeyframe c.stream) then
        r.requestKeyframe c.stream nowUs
      else (r, [])
    let (r, rest) := requestMissing nowUs decoderNeedsKeyframe r candidates
    (r, events ++ rest)

def tick (r : VideoReceiveRouter φ) (nowUs : Int) (decoderNeedsKeyframe : StreamId → Bool)
    (order : List StreamId) : VideoReceiveRouter φ × List (RouterEvent φ) :=
  let (r, candidates, events) := pollStreams nowUs r order
  let (r, requests) := requestMissing nowUs decoderNeedsKeyframe r candidates
  (r, events ++ requests)

/-! ### The playout thread -/

/-- The frames of a queue that are due: the queue behind them is either not due
yet or short enough. -/
def splitDue (nowUs : Int) : List (Pending φ) → List (Pending φ) × List (Pending φ)
  | [] => ([], [])
  | p :: queue =>
    if p.atUs ≤ nowUs ∨ MAX_PENDING_FRAMES < queue.length + 1 then
      let (due, rest) := splitDue nowUs queue
      (p :: due, rest)
    else ([], p :: queue)

/-- Move what is due into the batch, in the order the map is iterated. Of each
queue the thread sees the first `count` frames: a call that is just delivering
several frames may have queued a part of them. -/
def collect (r : VideoReceiveRouter φ) (nowUs : Int) :
    List (StreamId × Nat) → VideoReceiveRouter φ
  | [] => r
  | (stream, count) :: order =>
    let queue := r.pending stream
    let (due, rest) := splitDue nowUs (queue.take count)
    collect { r with
      due := r.due ++ due.map fun p => (stream, p)
      pending := Function.update r.pending stream (rest ++ queue.drop count) } nowUs order

def deliverNext (r : VideoReceiveRouter φ) : VideoReceiveRouter φ × List (RouterEvent φ) :=
  match r.due with
  | [] => (r, [])
  | (stream, p) :: due => ({ r with due := due }, [.deliver stream p.hdr p.frame])

end VideoReceiveRouter

/-! ### Runs -/

inductive RouterOp (φ : Type) where
  | openStream (stream : StreamId) (nowUs : Int)
  | close (stream : StreamId)
  | closeAll
  | setRtt (rttUs : Nat)
  | onFrameStarted (stream : StreamId) (hdr : VideoFrameHeader) (nowUs : Int)
  | onFrame (stream : StreamId) (frame : φ) (nowUs : Int)
  | onFrameAborted (stream : StreamId) (frameSeq : Option (BitVec 32)) (nowUs : Int)
  | requestKeyframe (stream : StreamId) (nowUs : Int)
  | tick (nowUs : Int) (decoderNeedsKeyframe : StreamId → Bool) (order : List StreamId)
  | collect (nowUs : Int) (order : List (StreamId × Nat))
  | deliverNext

namespace VideoReceiveRouter

variable {φ : Type} [FrameBytes φ]

def step (r : VideoReceiveRouter φ) : RouterOp φ → VideoReceiveRouter φ × List (RouterEvent φ)
  | .openStream stream nowUs => (r.openStream stream nowUs, [])
  | .close stream => (r.close stream, [])
  | .closeAll => (r.closeAll, [])
  | .setRtt rttUs => (r.setRtt rttUs, [])
  | .onFrameStarted stream hdr nowUs => (r.onFrameStarted stream hdr nowUs, [])
  | .onFrame stream frame nowUs => r.onFrame stream frame nowUs
  | .onFrameAborted stream frameSeq nowUs => r.onFrameAborted stream frameSeq nowUs
  | .requestKeyframe stream nowUs => r.requestKeyframe stream nowUs
  | .tick nowUs decoderNeedsKeyframe order => r.tick nowUs decoderNeedsKeyframe order
  -- the thread is back at the queues only once its batch is handed out
  | .collect nowUs order => (if r.due.isEmpty then r.collect nowUs order else r, [])
  | .deliverNext => r.deliverNext

/-- The router after a run of calls, with the callbacks made in it. -/
def run (r : VideoReceiveRouter φ) (ops : List (RouterOp φ)) :
    VideoReceiveRouter φ × List (RouterEvent φ) :=
  Machine.run (Machine.logged step) (r, []) ops

@[simp] theorem run_nil (r : VideoReceiveRouter φ) : r.run [] = (r, []) := rfl

theorem run_cons (r : VideoReceiveRouter φ) (op : RouterOp φ) (ops : List (RouterOp φ)) :
    r.run (op :: ops) = (((r.step op).1.run ops).1, (r.step op).2 ++ ((r.step op).1.run ops).2) := by
  simp only [run, Machine.run_cons, Machine.logged, List.nil_append]
  exact Machine.run_logged step _ _ ops

theorem run_append (r : VideoReceiveRouter φ) (xs ys : List (RouterOp φ)) :
    r.run (xs ++ ys) = (((r.run xs).1.run ys).1, (r.run xs).2 ++ ((r.run xs).1.run ys).2) := by
  induction xs generalizing r with
  | nil => simp
  | cons x xs ih => rw [List.cons_append, run_cons, run_cons, ih, List.append_assoc]

theorem run_fst (r : VideoReceiveRouter φ) (ops : List (RouterOp φ)) :
    (r.run ops).1 = Machine.run (fun r op => (step r op).1) r ops := by
  induction ops generalizing r with
  | nil => rfl
  | cons op ops ih => rw [run_cons, Machine.run_cons, ih]

end VideoReceiveRouter

end Parties.Video

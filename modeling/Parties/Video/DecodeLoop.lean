import Parties.Lib.Machine
import Parties.Video.Common
import Parties.Video.StaleFlush

/-!
# The decode thread of a watched stream

Mirror of `VideoDecodeGate` (`client/video_decode_gate.h`), of the backlog rules of
`client/video_decode_backlog.h` and of `App::on_video_frame_received`,
`App::enqueue_decode_work`, `App::decode_loop`, `App::stop_stream_thread` and
`bridge.stream_awaiting_keyframe` (`client/src/windows/app.cpp`), for one `VideoStream`.

Three threads share the stream: the one that delivers its frames, the decode thread, and the
main thread, which asks whether a keyframe is missing. Between two sections under
`queue_mutex` a thread may be overtaken by the others, so every such section is a step of its
own; `send_pli` comes after the section that decides on it and is a step of its own too. What
the decoder does with a frame is up to the environment. Times are microseconds.
-/

namespace Parties.Video

/-! ### The gate -/

inductive VideoDecodeDecision where
  | accept
  | dropUntilKeyframe
  | discontinuity
deriving DecidableEq, Repr

structure VideoDecodeGate where
  lastFrame : BitVec 32 := 0
  haveLastFrame : Bool := false
  awaitingKeyframe : Bool := true
deriving DecidableEq, Repr

namespace VideoDecodeGate

def requireKeyframe (g : VideoDecodeGate) : VideoDecodeGate :=
  { g with awaitingKeyframe := true, haveLastFrame := false }

def onFrame (g : VideoDecodeGate) (frameNumber : BitVec 32) (keyframe : Bool) :
    VideoDecodeDecision × VideoDecodeGate :=
  if g.awaitingKeyframe then
    if keyframe then (.accept, { lastFrame := frameNumber, haveLastFrame := true,
                                 awaitingKeyframe := false })
    else (.dropUntilKeyframe, g)
  else if keyframe then (.accept, { g with lastFrame := frameNumber, haveLastFrame := true })
  else if !g.haveLastFrame || decide (frameNumber ≠ g.lastFrame + 1) then
    (.discontinuity, g.requireKeyframe)
  else (.accept, { g with lastFrame := frameNumber })

/-- What the gate decides, and why. -/
theorem onFrame_cases (g : VideoDecodeGate) (n : BitVec 32) (keyframe : Bool) :
    (∃ g', g.onFrame n keyframe = (.accept, g') ∧ g' = ⟨n, true, false⟩ ∧ (keyframe = true ∨
      g.awaitingKeyframe = false ∧ g.haveLastFrame = true ∧ n = g.lastFrame + 1)) ∨
    (g.onFrame n keyframe = (.dropUntilKeyframe, g) ∧ g.awaitingKeyframe = true ∧
      keyframe = false) ∨
    (g.onFrame n keyframe = (.discontinuity, g.requireKeyframe) ∧ g.awaitingKeyframe = false ∧
      keyframe = false ∧ ¬ (g.haveLastFrame = true ∧ n = g.lastFrame + 1)) := by
  obtain ⟨lastFrame, haveLastFrame, awaiting⟩ := g
  cases awaiting <;> cases keyframe
  · by_cases hnext : haveLastFrame = true ∧ n = lastFrame + 1
    · obtain ⟨rfl, rfl⟩ := hnext
      exact .inl ⟨_, by simp [onFrame], rfl, .inr ⟨rfl, rfl, rfl⟩⟩
    · refine .inr (.inr ⟨?_, rfl, rfl, hnext⟩)
      cases haveLastFrame
      · rfl
      · have hgap : n ≠ lastFrame + 1 := fun heq => hnext ⟨rfl, heq⟩
        simpa [onFrame] using hgap
  · exact .inl ⟨_, rfl, rfl, .inl rfl⟩
  · exact .inr (.inl ⟨rfl, rfl, rfl⟩)
  · exact .inl ⟨_, rfl, rfl, .inl rfl⟩

end VideoDecodeGate

/-! ### The backlog rules -/

/-- `kVideoDecodeBacklogWarningFrames`. -/
def BACKLOG_WARNING_FRAMES : Nat := 10

/-- `kVideoDecodeBacklogHardLimitFrames`. -/
def BACKLOG_HARD_LIMIT_FRAMES : Nat := 60

/-- `kVideoDecodeBacklogMaxAgeUs`. -/
def BACKLOG_MAX_AGE_US : Int := 500000

structure VideoDecodeBacklogTrim where
  foundKeyframe : Bool := false
  dropped : Nat := 0
deriving DecidableEq, Repr

/-- One frame moved from the queue to the retained ones. -/
def trimStep {ω : Type} (isKeyframe : ω → Bool) (t : List ω × VideoDecodeBacklogTrim) (work : ω) :
    List ω × VideoDecodeBacklogTrim :=
  if isKeyframe work then
    ([work], { foundKeyframe := true, dropped := t.2.dropped + t.1.length })
  else (t.1 ++ [work], t.2)

def trimToLatestKeyframe {ω : Type} (isKeyframe : ω → Bool) (frames : List ω) :
    List ω × VideoDecodeBacklogTrim :=
  frames.foldl (trimStep isKeyframe) ([], {})

def shouldResyncDecodeBacklog (retainedFrames : Nat) (foundKeyframe decoderReady : Bool) : Bool :=
  decoderReady && !foundKeyframe && decide (BACKLOG_HARD_LIMIT_FRAMES < retainedFrames)

def shouldResyncStaleDecodeBacklog (oldestArrivalUs nowUs : Int)
    (foundKeyframe decoderReady : Bool) : Bool :=
  decoderReady && !foundKeyframe && decide (BACKLOG_MAX_AGE_US ≤ nowUs - oldestArrivalUs)

/-! ### The stream -/

/-- What a decoder is created for. -/
structure DecodeFormat where
  codec : BitVec 8
  width : BitVec 16
  height : BitVec 16
deriving DecidableEq, Repr

structure DecodeWork where
  data : Bytes
  timestamp : BitVec 32
  format : DecodeFormat
  keyframe : Bool := false
  arrivalUs : Int := 0
  /-- A keyframe the gate was waiting for. -/
  recoveryKeyframe : Bool := false
deriving DecidableEq, Repr

/-- Where the decode thread is. -/
inductive DecodePhase where
  /-- At the condition variable. -/
  | waiting
  /-- It holds a batch it has not looked at. -/
  | judging (batch : List DecodeWork)
  | decoding (batch : List DecodeWork)
  /-- `resync_warm_decoder_at_keyframe`, in front of the lock. -/
  | flushing
  /-- `recover_at_keyframe`, in front of the lock. -/
  | recovering (disableHardware : Bool)
  /-- Behind either, in front of `send_pli`. -/
  | asking
  | exited
deriving DecidableEq, Repr

/-- Why the gate is closed. -/
inductive GateClosing where
  | discontinuity
  | recovery
  /-- A stale flush, which may ask for a keyframe or not. -/
  | staleFlush (request : Bool)
deriving DecidableEq, Repr

/-- What shows of the stream from outside, in the order in which it happens. -/
inductive DecodeEvent where
  /-- A decoder was created and initialized. -/
  | initDecoder (format : DecodeFormat) (hardware : Bool)
  /-- A frame was handed to the decoder, which took it or failed. -/
  | decode (work : DecodeWork) (suppressOutput decoded : Bool)
  | shutdownDecoder
  | gateClosed (why : GateClosing)
  /-- `send_pli`. -/
  | requestKeyframe
  | trackerCall (call : TrackerCall)
deriving DecidableEq, Repr

structure VideoStream where
  selfPreview : Bool := false
  running : Bool := true
  decodeGate : VideoDecodeGate := {}
  staleFlushes : VideoDecodeStaleFlushTracker := {}
  queue : List DecodeWork := []
  /-- The format of the decoder, if there is one. -/
  decoder : Option DecodeFormat := none
  decodedSinceInit : Bool := false
  hardwareDecodeDisabled : Bool := false
  phase : DecodePhase := .waiting
  /-- The delivering thread is in front of `send_pli`. -/
  senderAsking : Bool := false
deriving DecidableEq, Repr

/-- What the decoder does with one frame. -/
structure DecodeTurn where
  contextLost : Bool := false
  initOk : Bool := true
  decoded : Bool := true
  /-- A picture came out. -/
  delivered : Bool := true
  /-- The context is lost once the frame has failed. -/
  lostAfter : Bool := false
deriving DecidableEq, Repr

namespace VideoStream

/-! ### The thread that delivers frames -/

/-- `enqueue_decode_work`. A discontinuity empties the queue, but not the batch the decode
thread has taken. -/
def enqueueDecodeWork (s : VideoStream) (encoded : Bytes) (timestamp : BitVec 32)
    (format : DecodeFormat) (isKeyframe : Bool) (nowUs : Int) : VideoStream × List DecodeEvent :=
  if !s.running then (s, [])
  else
    let recoveryKeyframe := isKeyframe && s.decodeGate.awaitingKeyframe
    let (decision, gate) := s.decodeGate.onFrame timestamp isKeyframe
    let s := { s with decodeGate := gate }
    match decision with
    | .discontinuity => ({ s with queue := [], senderAsking := true }, [.gateClosed .discontinuity])
    | .dropUntilKeyframe => (s, [])
    | .accept =>
      ({ s with queue := s.queue ++
          [{ data := encoded, timestamp, format, keyframe := isKeyframe, arrivalUs := nowUs,
             recoveryKeyframe }] }, [])

/-- A frame without a header or without a payload does not reach the queue. -/
def onVideoFrameReceived (s : VideoStream) (data : Bytes) (nowUs : Int) :
    VideoStream × List DecodeEvent :=
  match VideoFrameHeader.parse data with
  | none => (s, [])
  | some hdr =>
    let encoded := data.drop VIDEO_FRAME_HEADER_SIZE
    if encoded = [] then (s, [])
    else s.enqueueDecodeWork encoded hdr.frameSeq ⟨hdr.codec, hdr.width, hdr.height⟩
      hdr.keyframe nowUs

/-- `send_pli` behind a discontinuity. -/
def sendPli (s : VideoStream) : VideoStream × List DecodeEvent :=
  if s.senderAsking then ({ s with senderAsking := false }, [.requestKeyframe]) else (s, [])

/-! ### The main thread -/

/-- `bridge.stream_awaiting_keyframe`. -/
def streamAwaitingKeyframe (s : VideoStream) (nowUs : Int) :
    Bool × VideoStream × List DecodeEvent :=
  if s.selfPreview then (false, s, [])
  else if !s.decodeGate.awaitingKeyframe then (false, s, [])
  else if !s.staleFlushes.suppressed then (true, s, [])
  else
    let (tracker, allowed) := s.staleFlushes.takeSlowRequest nowUs
    (allowed, { s with staleFlushes := tracker }, [.trackerCall (.slowRequest nowUs)])

/-- `stop_stream_thread`, its section under the lock. -/
def stopStreamThread (s : VideoStream) : VideoStream := { s with running := false }

/-! ### The decode thread -/

/-- The front of the loop: the thread takes the whole queue. -/
def takeBatch (s : VideoStream) : VideoStream :=
  if !s.running then { s with phase := .exited }
  else if s.queue = [] then s
  else { s with queue := [], phase := .judging s.queue }

/-- The backlog rules. Without a trim the batch is searched for a keyframe. -/
def judgeBatch (s : VideoStream) (batch : List DecodeWork) (nowUs : Int) : VideoStream :=
  let big := decide (BACKLOG_WARNING_FRAMES < batch.length)
  let (retained, trim) :=
    if big then trimToLatestKeyframe DecodeWork.keyframe batch else (batch, {})
  let foundKeyframe := if big then trim.foundKeyframe else batch.any DecodeWork.keyframe
  let overflow := big &&
    shouldResyncDecodeBacklog retained.length foundKeyframe s.decodedSinceInit
  let stale := match retained with
    | [] => false
    | oldest :: _ =>
      shouldResyncStaleDecodeBacklog oldest.arrivalUs nowUs foundKeyframe s.decodedSinceInit
  if overflow || stale then { s with phase := .flushing }
  else { s with phase := .decoding retained }

/-- The batch is given up, or what is retained of it is decoded. -/
theorem judgeBatch_cases (s : VideoStream) (batch : List DecodeWork) (nowUs : Int) :
    s.judgeBatch batch nowUs = { s with phase := .flushing } ∨
      ∃ retained, s.judgeBatch batch nowUs = { s with phase := .decoding retained } ∧
        (retained = batch ∨ retained = (trimToLatestKeyframe DecodeWork.keyframe batch).1) := by
  by_cases hbig : BACKLOG_WARNING_FRAMES < batch.length
  · simp only [judgeBatch, hbig, decide_true, if_true]
    exact (ite_eq_or_eq ..).imp_right fun h => ⟨_, h, .inr rfl⟩
  · simp only [judgeBatch, hbig, decide_false, Bool.false_eq_true, if_false]
    exact (ite_eq_or_eq ..).imp_right fun h => ⟨_, h, .inl rfl⟩

/-- `resync_warm_decoder_at_keyframe`, its section under the lock. -/
def flushBacklog (s : VideoStream) (nowUs : Int) : VideoStream × List DecodeEvent :=
  let (tracker, request) := s.staleFlushes.onStaleFlush nowUs
  ({ s with
      decodeGate := s.decodeGate.requireKeyframe
      queue := []
      staleFlushes := tracker
      phase := if request then .asking else .waiting },
    [.gateClosed (.staleFlush request), .trackerCall (.staleFlush nowUs)])

/-- `recover_at_keyframe` up to `send_pli`; behind the lock it touches only what is the
thread's own. -/
def recoverAtKeyframe (s : VideoStream) (disableHardware : Bool) :
    VideoStream × List DecodeEvent :=
  ({ s with
      decodeGate := s.decodeGate.requireKeyframe
      queue := []
      hardwareDecodeDisabled := s.hardwareDecodeDisabled || disableHardware
      decoder := none
      decodedSinceInit := false
      phase := .asking },
    .gateClosed .recovery :: if s.decoder.isSome then [.shutdownDecoder] else [])

/-- `send_pli` at the end of either. -/
def askForKeyframe (s : VideoStream) : VideoStream × List DecodeEvent :=
  ({ s with phase := .waiting }, [.requestKeyframe])

/-- A decoder for `work`, if the one there is does not fit: the events, and whether it could be
initialized. -/
def prepareDecoder (s : VideoStream) (work : DecodeWork) (initOk : Bool) :
    VideoStream × List DecodeEvent × Bool :=
  if s.decoder = some work.format then (s, [], true)
  else
    let closing := if s.decoder.isSome then [DecodeEvent.shutdownDecoder] else []
    let s := { s with decoder := some work.format, decodedSinceInit := false }
    if initOk then (s, closing ++ [.initDecoder work.format !s.hardwareDecodeDisabled], true)
    else (s, closing, false)

/-- What is left alone while a decoder is made ready. -/
theorem prepareDecoder_eq (s : VideoStream) (work : DecodeWork) (initOk : Bool) :
    ∃ warm, (s.prepareDecoder work initOk).1 =
      { s with decoder := some work.format, decodedSinceInit := warm } := by
  unfold prepareDecoder
  split
  next hfits =>
    exact ⟨s.decodedSinceInit, by rw [← hfits]⟩
  · refine ⟨false, ?_⟩
    cases initOk <;> rfl

/-- One turn of the inner loop, up to the lock in front of a recovery. -/
def decodeOne (s : VideoStream) (work : DecodeWork) (rest : List DecodeWork) (turn : DecodeTurn)
    (nowUs : Int) : VideoStream × List DecodeEvent :=
  if s.decoder.isSome && turn.contextLost then ({ s with phase := .recovering true }, [])
  else
    match s.prepareDecoder work turn.initOk with
    | (s, events, false) => ({ s with phase := .recovering false }, events)
    | (s, events, true) =>
      -- only the last frame of the batch can reach the screen
      let events := events ++ [.decode work (decide (rest ≠ [])) turn.decoded]
      let s : VideoStream := { s with decodedSinceInit := s.decodedSinceInit || turn.delivered }
      if !turn.decoded then
        if !s.running then ({ s with phase := .waiting }, events)
        else ({ s with phase := .recovering turn.lostAfter }, events)
      else if s.staleFlushes.staleFlushesInARow = 0 then ({ s with phase := .decoding rest }, events)
      else
        ({ s with staleFlushes := s.staleFlushes.onFrameDecoded nowUs work.recoveryKeyframe,
                  phase := .decoding rest },
          events ++ [.trackerCall (.frameDecoded nowUs work.recoveryKeyframe)])

/-- What the decode thread does next. -/
def decodeStep (s : VideoStream) (turn : DecodeTurn) (nowUs : Int) :
    VideoStream × List DecodeEvent :=
  match s.phase with
  | .waiting => (s.takeBatch, [])
  | .judging batch => (s.judgeBatch batch nowUs, [])
  | .decoding [] => ({ s with phase := .waiting }, [])
  | .decoding (work :: rest) => s.decodeOne work rest turn nowUs
  | .flushing => s.flushBacklog nowUs
  | .recovering disableHardware => s.recoverAtKeyframe disableHardware
  | .asking => s.askForKeyframe
  | .exited => (s, [])

end VideoStream

/-! ### Runs -/

/-- A step of one of the threads. -/
inductive DecodeOp where
  /-- A frame is delivered. -/
  | frame (data : Bytes)
  | sendPli
  | decodeThread (turn : DecodeTurn)
  /-- The main thread asks whether the stream misses a keyframe. -/
  | poll
  | stop
deriving DecidableEq, Repr

namespace VideoStream

/-- The delivering thread takes the next frame once it is through with the last one. -/
def step (s : VideoStream) (op : Int × DecodeOp) : VideoStream × List DecodeEvent :=
  match op.2 with
  | .frame data => if s.senderAsking then (s, []) else s.onVideoFrameReceived data op.1
  | .sendPli => s.sendPli
  | .decodeThread turn => s.decodeStep turn op.1
  | .poll => (s.streamAwaitingKeyframe op.1).2
  | .stop => (s.stopStreamThread, [])

def new (selfPreview : Bool) : VideoStream := { selfPreview }

/-- The stream and its events after a run since `start_video_stream`. -/
def run (selfPreview : Bool) (ops : List (Int × DecodeOp)) : VideoStream × List DecodeEvent :=
  Machine.run (Machine.logged step) (new selfPreview, []) ops

end VideoStream

end Parties.Video

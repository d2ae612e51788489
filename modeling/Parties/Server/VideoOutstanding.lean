import Mathlib.Data.List.Basic
import Parties.Lib.ByteStream
import Parties.Lib.Machine
import Parties.Types
import Parties.Video.Common

/-!
# The bytes of video toward a viewer

`Session::video_outstanding_bytes` of one viewer, with `QuicServer::send_video_to`,
`QuicServer::send_video_frame_to`, `QuicServer::abort_video_frames`, `send_ctx_uncharge`,
`VideoOutStreamContext::uncharge` and the callbacks of the transport
(`server/src/quic_server.cpp`). The calls and the callbacks run on different threads, so
each is cut into its atomic steps, and these come in any order.

Of the transport it is assumed that it runs the callbacks of one stream one after the
other, and none before the call of `StreamSend`; that the stream of a refused send shuts
down only after it was asked to; and that a send on stream 1 is reported once if it was
queued, and before the stream is shut down. A frame stream may report its send any number
of times, canceled or not, or never.
-/

namespace Parties.QuicServer

open ByteStream Parties.Video

/-- The second half of `uncharge`: what is done to the counter for `n` bytes. -/
def settle (n : Nat) : Option Int := if n ≠ 0 then some (-(n : Int)) else none

inductive StreamEvent where
  | startComplete
  | sendComplete
  | peerReceiveAborted
  | shutdownComplete
deriving DecidableEq, Repr

/-! ### A frame on a stream of its own -/

/-- How far `send_video_frame_to` has come with a stream it has opened. -/
inductive FrameCall where
  | opened
  | added
  | stored
  | accepted
  | refused
  /-- The exchange in `uncharge` gave `n`. -/
  | uncharging (n : Nat)
  /-- It has asked for the shutdown and leaves the stream alone. -/
  | gaveUp
deriving DecidableEq, Repr

/-- What the callback of a stream is doing. -/
inductive FrameCallback where
  | idle
  /-- The exchange in `uncharge` gave `n`; the last event closes the stream. -/
  | uncharging (n : Nat) (closes : Bool)
  | closed
deriving DecidableEq, Repr

namespace FrameCall

def held : FrameCall → Nat
  | uncharging n => n
  | _ => 0

/-- `StreamSend` comes next or has been called. -/
def ready : FrameCall → Bool
  | opened | added => false
  | _ => true

/-- The call leaves the bytes with the context. -/
def storing : FrameCall → Bool
  | stored | accepted | refused => true
  | _ => false

/-- The stream may shut down. -/
def isOver : FrameCall → Bool
  | accepted | gaveUp => true
  | _ => false

end FrameCall

namespace FrameCallback

def held : FrameCallback → Nat
  | uncharging n _ => n
  | _ => 0

def closing : FrameCallback → Bool
  | uncharging _ closes => closes
  | closed => true
  | idle => false

end FrameCallback

structure VideoOutStreamContext where
  frame : Bytes
  charged : Nat := 0
  call : FrameCall := .opened
  callback : FrameCallback := .idle
  abortRequested : Bool := false
deriving DecidableEq, Repr

namespace VideoOutStreamContext

/-- The bytes of the frame with the type byte, a number of 32 bits. -/
def total (ctx : VideoOutStreamContext) : Nat := (1 + ctx.frame.length % 2 ^ 32) % 2 ^ 32

/-- The next step of `send_video_frame_to`, and what it does to the counter. -/
def callStep (ctx : VideoOutStreamContext) (streamSend : Bool) :
    VideoOutStreamContext × Option Int :=
  match ctx.call with
  | .opened => ({ ctx with call := .added }, some ctx.total)
  | .added => ({ ctx with call := .stored, charged := ctx.total }, none)
  | .stored => ({ ctx with call := if streamSend then .accepted else .refused }, none)
  | .refused => ({ ctx with call := .uncharging ctx.charged, charged := 0 }, none)
  | .uncharging n => ({ ctx with call := .gaveUp }, settle n)
  | .accepted | .gaveUp => (ctx, none)

/-- The transport may run the callback for this event. -/
def delivers (ctx : VideoOutStreamContext) (event : StreamEvent) : Bool :=
  ctx.callback = .idle &&
    match event with
    | .shutdownComplete => ctx.call.isOver
    | _ => ctx.call.ready && ctx.call ≠ .stored

/-- `video_out_stream_callback`, up to the exchange where there is one. -/
def onStreamEvent (ctx : VideoOutStreamContext) : StreamEvent → VideoOutStreamContext
  | .startComplete => ctx
  | .sendComplete => { ctx with callback := .uncharging ctx.charged false, charged := 0 }
  | .peerReceiveAborted => { ctx with abortRequested := true }
  | .shutdownComplete => { ctx with callback := .uncharging ctx.charged true, charged := 0 }

/-- The rest of the callback. -/
def callbackStep (ctx : VideoOutStreamContext) : VideoOutStreamContext × Option Int :=
  match ctx.callback with
  | .uncharging n closes => ({ ctx with callback := if closes then .closed else .idle }, settle n)
  | .idle | .closed => (ctx, none)

/-- The stream and the frame it is listed under in `video_out_streams`, until it closes. -/
def listed (ctx : VideoOutStreamContext) : Option (StreamId × BitVec 32) :=
  if ctx.callback = .closed || ctx.frame.length < 4 + VIDEO_FRAME_HEADER_SIZE then none
  else (VideoFrameHeader.parse (ctx.frame.drop 4)).map fun hdr =>
    (BitVec.ofNat 32 (readLe (ctx.frame.take 4)), hdr.frameSeq)

/-- `abort_video_frames` for one of the streams: it only asks for the shutdown. -/
def abort (ctx : VideoOutStreamContext) (stream : StreamId) (beforeSeq : Option (BitVec 32)) :
    VideoOutStreamContext :=
  match ctx.listed with
  | some (listedStream, frameSeq) =>
    if listedStream = stream && beforeSeq.all fun seq => videoSeqNewer seq frameSeq then
      { ctx with abortRequested := true }
    else ctx
  | none => ctx

/-- Its bytes are in the counter, and somebody will take them out. -/
def unsettled (ctx : VideoOutStreamContext) : Bool :=
  ctx.call = .added || ctx.charged ≠ 0 || ctx.call.held ≠ 0 || ctx.callback.held ≠ 0

end VideoOutStreamContext

/-! ### A packet on stream 1 -/

inductive SendPhase where
  | made
  | charged
  | queued
  | refused
  | freed
deriving DecidableEq, Repr

structure SendCtx where
  stream : Nat
  len : Nat
  phase : SendPhase := .made
deriving DecidableEq, Repr

namespace SendCtx

/-- `send_ctx_uncharge`, and the context is deleted. -/
def uncharge (ctx : SendCtx) : SendCtx × Option Int :=
  ({ ctx with len := 0, phase := .freed }, settle ctx.len)

/-- The next step of `send_video_to`, or of `send_video_frame_to` toward a viewer without
    frame streams. -/
def callStep (ctx : SendCtx) (streamSend : Bool) : SendCtx × Option Int :=
  match ctx.phase with
  | .made => ({ ctx with phase := .charged }, some ctx.len)
  | .charged => ({ ctx with phase := if streamSend then .queued else .refused }, none)
  | .refused => ctx.uncharge
  | .queued | .freed => (ctx, none)

/-- `on_stream_event`, for this send. -/
def onStreamEvent (ctx : SendCtx) (event : StreamEvent) : SendCtx × Option Int :=
  if event = .sendComplete ∧ ctx.phase = .queued then ctx.uncharge else (ctx, none)

def calling (ctx : SendCtx) : Bool :=
  match ctx.phase with
  | .made | .charged | .refused => true
  | .queued | .freed => false

def unsettled (ctx : SendCtx) : Bool :=
  match ctx.phase with
  | .charged | .queued | .refused => true
  | .made | .freed => false

end SendCtx

/-! ### The sends to a viewer -/

inductive SendContext where
  | frameStream (ctx : VideoOutStreamContext)
  | stream1 (ctx : SendCtx)
deriving DecidableEq, Repr

/-- One send, with what it has done to the counter. -/
structure VideoSend where
  bytes : Nat
  ctx : SendContext
  ops : List Int := []
deriving DecidableEq, Repr

namespace VideoSend

def unsettled (send : VideoSend) : Bool :=
  match send.ctx with
  | .frameStream ctx => ctx.unsettled
  | .stream1 ctx => ctx.unsettled

/-- What the send counts for. -/
def owed (send : VideoSend) : Int := if send.unsettled then send.bytes else 0

/-- Its call of `send_video_to` or `send_video_frame_to` has not returned. -/
def calling (send : VideoSend) : Bool :=
  match send.ctx with
  | .frameStream ctx => !ctx.call.isOver
  | .stream1 ctx => ctx.calling

/-- The transport took it, or is in its callback. -/
def atTransport (send : VideoSend) : Bool :=
  match send.ctx with
  | .frameStream ctx => ctx.call = .accepted || ctx.callback.held ≠ 0
  | .stream1 ctx => ctx.phase = .queued

def abort (send : VideoSend) (stream : StreamId) (beforeSeq : Option (BitVec 32)) : VideoSend :=
  match send.ctx with
  | .frameStream ctx => { send with ctx := .frameStream (ctx.abort stream beforeSeq) }
  | .stream1 _ => send

end VideoSend

/-- What the server knows of one viewer. -/
structure ViewerVideo where
  videoOutstandingBytes : Int := 0
  alive : Bool := true
  quicConnection : Bool := true
  quicVideoStream : Option Nat := none
  /-- The number of streams the viewer has opened as its stream 1. -/
  streamsOpened : Nat := 0
  /-- Those that have shut down. -/
  shutDown : List Nat := []
  sends : List VideoSend := []
deriving DecidableEq, Repr

inductive ViewerAction where
  | peerStreamStarted
  | sendVideoTo (data : Bytes)
  | sendVideoFrameTo (frameStreams streamOpen : Bool) (frame : Bytes)
  /-- The next step of the call for a send. -/
  | call (i : Nat) (streamSend : Bool)
  | streamEvent (i : Nat) (event : StreamEvent)
  /-- The rest of the callback for a send. -/
  | callback (i : Nat)
  | abortVideoFrames (stream : StreamId) (beforeSeq : Option (BitVec 32))
  /-- Stream 1 has shut down. -/
  | streamShutdownComplete (stream : Nat)
  | connectionShutdownComplete
deriving Repr

namespace ViewerVideo

def push (s : ViewerVideo) (bytes : Nat) (ctx : SendContext) : ViewerVideo :=
  { s with sends := s.sends ++ [{ bytes, ctx }] }

/-- Put a send back after a step, with what the step did to the counter. -/
def account (s : ViewerVideo) (i : Nat) (send : VideoSend) (ctx : SendContext)
    (delta : Option Int) : ViewerVideo :=
  { s with
    videoOutstandingBytes := s.videoOutstandingBytes + delta.getD 0
    sends := s.sends.set i { send with ctx, ops := send.ops ++ delta.toList } }

def withSend (s : ViewerVideo) (i : Nat) (f : VideoSend → ViewerVideo) : ViewerVideo :=
  match s.sends[i]? with
  | some send => f send
  | none => s

def sendVideoTo (s : ViewerVideo) (data : Bytes) : ViewerVideo :=
  match s.alive, s.quicVideoStream with
  | true, some stream =>
    let len := (4 + data.length) % 2 ^ 32
    s.push len (.stream1 { stream, len })
  | _, _ => s

/-- `send_video_frame_to` up to the charge. -/
def sendVideoFrameTo (s : ViewerVideo) (frameStreams streamOpen : Bool) (frame : Bytes) :
    ViewerVideo :=
  if !s.alive || !s.quicConnection then s
  else if VIDEO_FRAME_MAX_BYTES < 1 + frame.length then s
  else if frameStreams then
    if !streamOpen then s
    else
      let ctx : VideoOutStreamContext := { frame }
      s.push ctx.total (.frameStream ctx)
  else
    match s.quicVideoStream with
    | none => s
    | some stream =>
      let len := (5 + frame.length % 2 ^ 32) % 2 ^ 32
      s.push len (.stream1 { stream, len })

def callStep (s : ViewerVideo) (i : Nat) (send : VideoSend) (streamSend : Bool) : ViewerVideo :=
  match send.ctx with
  | .frameStream ctx =>
    let next := ctx.callStep streamSend
    s.account i send (.frameStream next.1) next.2
  | .stream1 ctx =>
    let next := ctx.callStep streamSend
    s.account i send (.stream1 next.1) next.2

def onStreamEvent (s : ViewerVideo) (i : Nat) (send : VideoSend) (event : StreamEvent) :
    ViewerVideo :=
  match send.ctx with
  | .frameStream ctx =>
    if ctx.delivers event then s.account i send (.frameStream (ctx.onStreamEvent event)) none
    else s
  | .stream1 ctx =>
    let next := ctx.onStreamEvent event
    s.account i send (.stream1 next.1) next.2

def callbackStep (s : ViewerVideo) (i : Nat) (send : VideoSend) : ViewerVideo :=
  match send.ctx with
  | .frameStream ctx => s.account i send (.frameStream ctx.callbackStep.1) ctx.callbackStep.2
  | .stream1 _ => s

def abortVideoFrames (s : ViewerVideo) (stream : StreamId) (beforeSeq : Option (BitVec 32)) :
    ViewerVideo :=
  { s with sends := s.sends.map (·.abort stream beforeSeq) }

/-- A send on that stream of which the transport has not reported the end. -/
def queuedOn (s : ViewerVideo) (stream : Nat) : Bool :=
  s.sends.any fun send =>
    match send.ctx with
    | .frameStream _ => false
    | .stream1 ctx => ctx.stream = stream && ctx.phase = .queued

/-- A call for stream 1 is under way: it holds `quic_mutex`. -/
def callingStream1 (s : ViewerVideo) : Bool :=
  s.sends.any fun send =>
    match send.ctx with
    | .frameStream _ => false
    | .stream1 ctx => ctx.calling

/-- The last event of stream 1. It comes after the reports, and the handler takes the mutex. -/
def streamShutdownComplete (s : ViewerVideo) (stream : Nat) : ViewerVideo :=
  if s.streamsOpened ≤ stream || s.queuedOn stream || s.callingStream1 then s
  else { s with
    quicVideoStream := if s.quicVideoStream = some stream then none else s.quicVideoStream
    shutDown := stream :: s.shutDown }

def step (s : ViewerVideo) : ViewerAction → ViewerVideo
  | .peerStreamStarted =>
    if s.alive && s.quicVideoStream = none then
      { s with quicVideoStream := some s.streamsOpened, streamsOpened := s.streamsOpened + 1 }
    else s
  | .sendVideoTo data => s.sendVideoTo data
  | .sendVideoFrameTo frameStreams streamOpen frame =>
    s.sendVideoFrameTo frameStreams streamOpen frame
  | .call i streamSend => s.withSend i fun send => s.callStep i send streamSend
  | .streamEvent i event => s.withSend i fun send => s.onStreamEvent i send event
  | .callback i => s.withSend i fun send => s.callbackStep i send
  | .abortVideoFrames stream beforeSeq => s.abortVideoFrames stream beforeSeq
  | .streamShutdownComplete stream => s.streamShutdownComplete stream
  | .connectionShutdownComplete =>
    if s.callingStream1 then s
    else { s with alive := false, quicConnection := false, quicVideoStream := none }

/-- The stream of every send has shut down. -/
def AllShutDown (s : ViewerVideo) : Prop :=
  ∀ send ∈ s.sends,
    match send.ctx with
    | .frameStream ctx => ctx.callback = .closed
    | .stream1 ctx => ctx.stream ∈ s.shutDown

end ViewerVideo

end Parties.QuicServer

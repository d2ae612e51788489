import Parties.Server.Streams

/-!
# The video path of the server

Mirror of the functions of `server/src/server.cpp` and `server/src/quic_server.cpp`
a video frame passes through: the ingress queue, the reorder buffer of its stream,
`forward_video_frame` with the gate of every viewer, and the requests for
keyframes. The main loop drains the queue and then makes a pass over the buffers
and the deferred requests; the model takes the frames and the entries of the pass
one by one, in any order, so that every interleaving with the transport thread is
among its runs.
-/

namespace Parties

open Parties.Video

namespace Session

/-! ### One viewer -/

/-- `abort_video_frames`: everything queued, or what is older than `beforeSeq`. -/
def abortVideoFrames (viewer : Session) (stream : StreamId) (beforeSeq : Option (BitVec 32)) :
    Session :=
  viewer.logViewer stream [.aborted beforeSeq (viewer.videoOutStreams.filter fun out =>
    out.stream = stream && beforeSeq.all fun seq => videoSeqNewer seq out.frameSeq)]

/-- `send_video_frame_to`, where it succeeds. -/
def handVideoFrame (viewer : Session) (stream : StreamId) (hdr : VideoFrameHeader) : Session :=
  { viewer.logViewer stream [.handed hdr viewer.framesHanded] with
    framesHanded := viewer.framesHanded + 1
    videoOutStreams := if viewer.supportsFrameStreams then
        viewer.videoOutStreams ++ [{
          handle := viewer.framesHanded
          stream := stream
          frameSeq := hdr.frameSeq
          keyframe := hdr.keyframe }]
      else viewer.videoOutStreams }

def setGate (viewer : Session) (stream : StreamId) (gate : ViewerVideoGate) : Session :=
  { viewer with videoGates := Function.update viewer.videoGates stream (some gate) }

def gate (viewer : Session) (stream : StreamId) : ViewerVideoGate :=
  (viewer.videoGates stream).getD {}

/-- The gate decides on a frame. A viewer that only lacks a keyframe may ask for one. -/
def askGate (viewer : Session) (stream : StreamId) (hdr : VideoFrameHeader) (nowUs : Int)
    (outstanding threshold : Int) : ViewerVideoGate.Admission × Bool :=
  let admission := (viewer.gate stream).admitFrame outstanding threshold hdr.keyframe
  if admission.needsKeyframe then
    ({ admission with gate := (admission.gate.allowKeyframeRequest nowUs).2 },
      (admission.gate.allowKeyframeRequest nowUs).1)
  else (admission, false)

/-- A frame the gate dropped. The first one takes what is queued before it along. -/
def dropFrame (viewer : Session) (stream : StreamId) (wasAwaiting : Bool) : Session :=
  if !wasAwaiting && (viewer.gate stream).awaitingKeyframe then
    (viewer.logViewer stream [.missed]).abortVideoFrames stream none
  else viewer.logViewer stream [.missed]

/-- A frame the gate let through. Older frames need not be sent before a keyframe. -/
def sendFrame (viewer : Session) (stream : StreamId) (hdr : VideoFrameHeader) (sent : Bool) :
    Session :=
  let viewer := if hdr.keyframe then viewer.abortVideoFrames stream (some hdr.frameSeq) else viewer
  if sent then viewer.handVideoFrame stream hdr
  else
    -- nothing was queued: it can only resume at the next keyframe
    (viewer.setGate stream { viewer.gate stream with awaitingKeyframe := true }).logViewer stream
      [.missed]

/-- What `forward_video_frame` does for one of the viewers, with the wish for a
keyframe on its behalf. -/
def offer (viewer : Session) (stream : StreamId) (hdr : VideoFrameHeader) (nowUs : Int)
    (outstanding threshold : Int) (sent : Bool) : Session × Bool :=
  let decision := viewer.askGate stream hdr nowUs outstanding threshold
  let gated := viewer.setGate stream decision.1.gate
  if decision.1.forward then (gated.sendFrame stream hdr sent, decision.2 || !sent)
  else (gated.dropFrame stream (viewer.gate stream).awaitingKeyframe, decision.2)

end Session

namespace Server

/-! ### Keyframe requests -/

def requestKeyframeFromSharer (s : Server) (stream : StreamId) (requester : UserId) : Server :=
  let nowUs := s.nowUs
  let s := s.readClock
  let deferUs := s.nowUs
  let s := s.readClock
  s.keyframeCall (.request stream requester nowUs deferUs (s.sharerReachable stream))

/-! ### Forwarding -/

/-- The sessions a frame of `stream` is offered to. -/
def isViewer (s : Server) (publisher : SessionId) (channel : ChannelId) (stream : StreamId)
    (sid : SessionId) : Bool :=
  sid ∈ s.sessionTable && sid ≠ publisher && (s.sessions sid).authenticated &&
    (s.sessions sid).channelId = channel && stream ∈ (s.sessions sid).subscribedSharers

def offerTo (s : Server) (stream : StreamId) (hdr : VideoFrameHeader) (sid : SessionId) :
    Session × Bool :=
  (s.sessions sid).offer stream hdr s.nowUs (s.env.videoOutstandingBytes s.reads sid)
    (s.env.viewerBacklogThreshold s.reads sid) (s.env.videoFrameSent s.reads sid)

/-- Offer a frame to every viewer. -/
def offerAll (s : Server) (publisher : SessionId) (channel : ChannelId) (stream : StreamId)
    (hdr : VideoFrameHeader) : Server :=
  { s with sessions := fun sid =>
      if s.isViewer publisher channel stream sid then (s.offerTo stream hdr sid).1
      else s.sessions sid }

def wantsKeyframe (s : Server) (publisher : SessionId) (channel : ChannelId) (stream : StreamId)
    (hdr : VideoFrameHeader) : Bool :=
  s.sessionTable.any fun sid =>
    s.isViewer publisher channel stream sid && (s.offerTo stream hdr sid).2

def forwardVideoFrame (s : Server) (sid : SessionId) (source : VideoSource) (frame : ShareFrame) :
    Server :=
  match s.getSession sid with
  | none => s
  | some session =>
    if !session.authenticated || session.channelId = 0 then s
    else
      let stream := videoStreamId session.userId source
      if stream ∉ s.channelVideoStreams session.channelId then s
      else
        match VideoFrameHeader.parse frame.bytes with
        | none => s
        | some hdr =>
          let wants := s.wantsKeyframe sid session.channelId stream hdr
          let nowUs := s.nowUs
          let s := (s.offerAll sid session.channelId stream hdr).readClock
          let s := s.keyframeCall (.frameForwarded stream hdr.keyframe nowUs)
          if wants then s.requestKeyframeFromSharer stream 0 else s

/-! ### Ingress -/

/-- The callbacks one call of the reorder buffer of `stream` made, in order. -/
def onIngressEvents (stream : StreamId) (sid : SessionId) (source : VideoSource) :
    Server → List (ReorderEvent ShareFrame) → Server
  | s, [] => s
  | s, .deliver _ frame :: events =>
    let s := s.modifyShareLog stream fun log => { log with passedOn := log.passedOn ++ [frame] }
    onIngressEvents stream sid source (s.forwardVideoFrame sid source frame) events
  | s, .lost _ :: events =>
    onIngressEvents stream sid source (s.requestKeyframeFromSharer stream 0) events

/-- Put the outcome of a call on the buffer of `stream` back. -/
def putIngress (s : Server) (stream : StreamId) (ingress : VideoIngress)
    (outcome : VideoFrameReorderBuffer ShareFrame × List (ReorderEvent ShareFrame)) : Server :=
  onIngressEvents stream ingress.session ingress.source
    { s with
      videoIngress := Function.update s.videoIngress stream
        (some { ingress with reorder := outcome.1 }) } outcome.2

/-- `video_ingress_[stream]`, with the session and the round trip time of the frame. -/
def ingressFor (s : Server) (stream : StreamId) (sid : SessionId) (source : VideoSource) :
    VideoIngress :=
  let reorder := match s.videoIngress stream with
    | none => VideoFrameReorderBuffer.new {}
    | some ingress => ingress.reorder
  { session := sid
    source := source
    reorder := reorder.setRtt (s.env.srttUs s.reads sid) }

def processIngressEvent (s : Server) (stream : StreamId) (ingress : VideoIngress) :
    IngressEvent → Server
  | .started hdr =>
    s.readClock.putIngress stream ingress (ingress.reorder.onFrameStarted hdr s.nowUs, [])
  | .aborted (some frameSeq) =>
    s.readClock.putIngress stream ingress (ingress.reorder.onFrameAborted frameSeq s.nowUs)
  | .aborted none =>
    let inFlight := ingress.reorder.keyframeInFlight s.nowUs
    let s := s.readClock.putIngress stream ingress (ingress.reorder, [])
    -- which frame died is unknown
    if inFlight then s else s.requestKeyframeFromSharer stream 0
  | .frame frame =>
    match VideoFrameHeader.parse frame.bytes with
    | none => s.putIngress stream ingress (ingress.reorder, [])
    | some hdr =>
      s.readClock.putIngress stream ingress (ingress.reorder.onFrame hdr frame s.nowUs)

/-- The frame at the head of the queue is still wanted. -/
def acceptsPending (s : Server) (p : PendingVideoFrame) : Bool :=
  (s.sessions p.session).alive && (s.sessions p.session).videoIngressAllowed p.source &&
    p.generation = ((s.sessions p.session).videoSources p.source).generation

/-- Take the head of the queue off; its bytes are no longer pending. -/
def dequeue (s : Server) (p : PendingVideoFrame) (rest : List PendingVideoFrame) : Server :=
  { s with videoIncoming := rest }.modifySession p.session fun session =>
    { session with videoPendingBytes := session.videoPendingBytes - p.size }

/-- The loop body of `process_video_frames` over the drained queue. -/
def processVideoFrame (s : Server) : Server :=
  match s.videoIncoming with
  | [] => s
  | p :: rest =>
    let s := s.dequeue p rest
    if !s.acceptsPending p then s
    else
      let stream := videoStreamId (s.sessions p.session).userId p.source
      s.processIngressEvent stream (s.ingressFor stream p.session p.source) p.event

/-- The time `process_video_frames` reads before its pass over the buffers. -/
def beginPass (s : Server) : Server := { s.readClock with passUs := some s.nowUs }

/-- The loop body of the pass over `video_ingress_`. -/
def pollIngress (s : Server) (stream : StreamId) : Server :=
  match s.passUs, s.videoIngress stream with
  | some nowUs, some ingress =>
    if !(s.sessions ingress.session).alive ||
        !(s.sessions ingress.session).videoIngressAllowed ingress.source then
      { s with videoIngress := Function.update s.videoIngress stream none }
    else
      let outcome := ingress.reorder.poll nowUs
      let s := s.putIngress stream ingress outcome
      if outcome.1.shouldRequestKeyframe nowUs then s.requestKeyframeFromSharer stream 0 else s
  | _, _ => s

/-- The loop body of `send_deferred_keyframe_requests`, which ends the pass. -/
def sendDeferredKeyframeRequest (s : Server) (stream : StreamId) : Server :=
  match s.passUs with
  | none => s
  | some nowUs => s.keyframeCall (.deferredPass stream nowUs (s.sharerReachable stream))

/-! ### The transport thread -/

/-- Queue an event of the current generation of a source. -/
def pushVideoIncoming (s : Server) (sid : SessionId) (source : VideoSource) (event : IngressEvent) :
    Server :=
  { s with
    videoIncoming := s.videoIncoming ++ [{
      session := sid
      source := source
      generation := ((s.sessions sid).videoSources source).generation
      event := event }] }

/-- The record of a frame that completed on the session its share runs on. -/
def logReceived (s : Server) (sid : SessionId) (source : VideoSource) (frame : ShareFrame) : Server :=
  s.modifyShareLog (videoStreamId (s.sessions sid).userId source) fun log =>
    if log.runsOn.any fun on => on.1 = sid then { log with received := log.received ++ [frame] }
    else log

def enqueueVideoFrame (s : Server) (sid : SessionId) (source : VideoSource) (frame : ShareFrame) :
    Server :=
  if frameSize frame < VIDEO_FRAME_HEADER_SIZE || VIDEO_FRAME_MAX_PAYLOAD_BYTES < frameSize frame then
    s
  else
    match s.getSession sid with
    | none => s
    | some session =>
      let s := s.logReceived sid source frame
      let pending := session.videoPendingBytes + frameSize frame
      if !session.videoIngressAllowed source then s
      else if VIDEO_INGRESS_MAX_BUFFERED_BYTES < pending then s
      else
        (s.pushVideoIncoming sid source (.frame frame)).modifySession sid fun session =>
          { session with videoPendingBytes := pending }

/-- `enqueue_video_event`, for a stream that started or died. -/
def enqueueVideoEvent (s : Server) (sid : SessionId) (source : VideoSource) (event : IngressEvent) :
    Server :=
  match s.getSession sid with
  | none => s
  | some session =>
    if !session.videoIngressAllowed source then s else s.pushVideoIncoming sid source event

/-- `SHUTDOWN_COMPLETE` of a per-frame stream toward a viewer. -/
def videoOutShutdown (s : Server) (sid : SessionId) (handle : Nat) : Server :=
  s.modifySession sid fun session =>
    { session with videoOutStreams := session.videoOutStreams.filter fun out => out.handle ≠ handle }

/-! ### The requests of the viewers -/

/-- `handle_video_control` for a PLI; `bucketAllows` is the session's token bucket. -/
def handleVideoControl (s : Server) (sid : SessionId) (target : StreamId) (bucketAllows : Bool) :
    Server :=
  match s.getSession sid with
  | none => s
  | some session =>
    if !session.authenticated || session.channelId = 0 then s
    else if !bucketAllows then s
    else if target ∉ s.channelVideoStreams session.channelId then s
    -- a new keyframe would be dropped for this viewer too
    else if (session.gate target).awaitingKeyframe &&
        s.env.viewerBacklogThreshold s.reads sid < s.env.videoOutstandingBytes s.reads sid then s
    else
      let (allowed, gate) := (session.gate target).allowKeyframeRequest s.nowUs
      let s := s.readClock.modifySession sid fun session => session.setGate target gate
      if !allowed then s else s.requestKeyframeFromSharer target session.userId

/-- A new subscription waits for a keyframe; its record starts. -/
def subscribe (s : Server) (sid : SessionId) (target : StreamId) : Server :=
  s.modifySession sid fun session =>
    { session.setGate target { session.gate target with awaitingKeyframe := true } with
      subscribedSharers := target :: session.subscribedSharers
      viewerLog := Function.update session.viewerLog target [] }

/-- The viewer drops a stream, or all of them. -/
def stopViewing (s : Server) (sid : SessionId) (target : StreamId) : Server :=
  if target = 0 then s.clearViewerSubscriptions sid true
  else
    let session := s.sessions sid
    let s := s.modifySession sid fun session => session.unsubscribe target
    if target ∈ session.subscribedSharers then s.notifyViewerChange target session.userId false
    else s

/-- The viewer adds a stream and drops others. -/
def startViewing (s : Server) (sid : SessionId) (target : StreamId) (dropped : List StreamId) :
    Server :=
  let session := s.sessions sid
  let s := s.modifySession sid fun session => dropped.foldl Session.unsubscribe session
  let isNew := target ∉ session.subscribedSharers
  let s := if isNew then s.subscribe sid target else s
  let s := dropped.foldl (fun s old => s.notifyViewerChange old session.userId false) s
  if isNew then
    (s.requestKeyframeFromSharer target session.userId).notifyViewerChange target session.userId
      true
  else s

/-- The message asks to watch; `action` is absent in the single-select form. -/
def viewStarts (target : StreamId) : Option (BitVec 8) → Bool
  | some action => action ≠ 0
  | none => target ≠ 0

/-- `SCREEN_SHARE_VIEW`. -/
def screenShareView (s : Server) (sid : SessionId) (target : StreamId)
    (action : Option (BitVec 8)) : Server :=
  let session := s.sessions sid
  if !session.authenticated || session.channelId = 0 then s
  else if !viewStarts target action then s.stopViewing sid target
  else if target = 0 then s
  else if target ∉ s.channelVideoStreams session.channelId then s
  else
    -- single-select: everything else is dropped
    s.startViewing sid target
      (if action.isSome then [] else session.subscribedSharers.filter (· ≠ target))

end Server

end Parties

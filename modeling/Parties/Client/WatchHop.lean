import Parties.Video.RouterIsolation

/-!
# The hop from the server to a viewer

One video stream on its way to a viewer who is not its owner: the part of the
server that starts and stops the shares of the stream and takes the requests of
the viewer (`server/src/server.cpp`), the wires, and the watch state of the
viewer (`client/src/app_core.cpp`). The control stream is in order in both
directions. Every frame has a stream of its own, so the frames arrive in any order
relative to it and to each other, also after their share has ended.

Which share a frame belongs to is not on the wire. It is kept here only to state
what arrives where.
-/

namespace Parties.Client

open Parties.Video

/-- The control messages to the viewer. -/
inductive ServerMessage where
  | channelUserList
  | screenShareStarted (share : Nat) (replay : Bool)
  | screenShareStopped
deriving DecidableEq, Repr

/-- The share whose start the message reports as it happens. -/
def ServerMessage.liveShare : ServerMessage → Option Nat
  | .screenShareStarted share false => some share
  | _ => none

/-- The control messages of the viewer. -/
inductive ClientMessage where
  | channelJoin
  | channelLeave
  | screenShareView (subscribe : Bool)
deriving DecidableEq, Repr

/-! ### The viewer -/

structure Viewer where
  /-- The platform has a decoder for each watched stream. -/
  multiStream : Bool
  router : VideoReceiveRouter ShareFrame := VideoReceiveRouter.new {}
  inChannel : Bool := false
  awaitingChannelJoin : Bool := false
  /-- The stream is among the sharers of the channel. -/
  sharer : Bool := false
  watched : Bool := false
  /-- The share of the last `SCREEN_SHARE_STARTED` that was handled. -/
  announced : Nat := 0
  /-- The share announced last when the stream was opened. -/
  watchedShare : Nat := 0
  /-- The frames that came in since then, while the stream was open. -/
  arrived : List ShareFrame := []
  /-- The frames handed to the decoder since then. -/
  delivered : List (VideoFrameHeader × ShareFrame) := []

namespace Viewer

variable (stream : StreamId)

/-- A call on the router. -/
def call (v : Viewer) (op : RouterOp ShareFrame) : Viewer :=
  { v with
    router := (v.router.step op).1
    delivered := v.delivered ++ deliveredTo stream (v.router.step op).2 }

def openVideoRx (v : Viewer) (nowUs : Int) : Viewer :=
  { v.call stream (.openStream stream nowUs) with
    watchedShare := v.announced
    arrived := []
    delivered := [] }

/-- `watch_sharer` where there is a single decoder. -/
def watchSharer (v : Viewer) (nowUs : Int) : Viewer × List ClientMessage :=
  if !v.sharer then (v, [])
  else if v.watched then (v, [])
  else
    let v := { v with watched := true }
    let v := v.call stream .closeAll
    (v.openVideoRx stream nowUs, [.screenShareView true])

def addWatch (v : Viewer) (nowUs : Int) : Viewer × List ClientMessage :=
  if !v.sharer then (v, [])
  else if !v.multiStream then v.watchSharer stream nowUs
  else if v.watched then (v, [])
  else
    let v := { v with watched := true }
    (v.openVideoRx stream nowUs, [.screenShareView true])

def removeWatch (v : Viewer) : Viewer × List ClientMessage :=
  if !v.watched then (v, [])
  else
    let v := { v with watched := false }
    (v.call stream (.close stream), [.screenShareView false])

/-- `stop_watching`; for this stream also the switch of a single decoder to
another one, which the server takes as the end of every other subscription. -/
def stopWatching (v : Viewer) : Viewer × List ClientMessage :=
  let v := { v with watched := false }
  (v.call stream .closeAll, [.screenShareView false])

/-- `set_single_watched`, whose callers send the request of the server themselves. -/
def setSingleWatched (v : Viewer) (on : Bool) (nowUs : Int) : Viewer × List ClientMessage :=
  let v := { v with watched := on }
  let v := v.call stream .closeAll
  (if on then v.openVideoRx stream nowUs else v, [.screenShareView on])

def clearAllSharers (v : Viewer) : Viewer :=
  let v := { v with watched := false, sharer := false }
  v.call stream .closeAll

def joinChannel (v : Viewer) : Viewer × List ClientMessage :=
  if v.inChannel then (v, [])
  else ({ v with awaitingChannelJoin := true }, [.channelJoin])

def leaveChannel (v : Viewer) : Viewer × List ClientMessage :=
  if !v.inChannel then (v, [])
  else
    let (v, requests) := if v.watched then v.stopWatching stream else (v, [])
    let v := v.clearAllSharers stream
    ({ v with inChannel := false }, requests ++ [.channelLeave])

def onChannelUserList (v : Viewer) : Viewer :=
  if !v.awaitingChannelJoin then v
  else
    let v := { v with awaitingChannelJoin := false }
    let v := if !v.inChannel then v.clearAllSharers stream else v
    { v with inChannel := true }

/-- `ownerShown`: the owner is among the users of the channel the viewer is in
(`add_channel_sharer`). -/
def onScreenShareStarted (v : Viewer) (share : Nat) (replay : Bool) (ownerShown : Bool)
    (nowUs : Int) : Viewer :=
  if !v.inChannel || !ownerShown then v
  else
    let v := { v with sharer := true, announced := share }
    if !replay && v.router.isOpen stream then v.openVideoRx stream nowUs else v

def onScreenShareStopped (v : Viewer) : Viewer × List ClientMessage :=
  let v := { v with sharer := false }
  if v.watched then v.removeWatch stream else (v, [])

def handleServerMessage (v : Viewer) (ownerShown : Bool) (nowUs : Int) :
    ServerMessage → Viewer × List ClientMessage
  | .channelUserList => (v.onChannelUserList stream, [])
  | .screenShareStarted share replay =>
    (v.onScreenShareStarted stream share replay ownerShown nowUs, [])
  | .screenShareStopped => v.onScreenShareStopped stream

/-- `route_video_stream_frame`. -/
def onVideoStreamFrame (v : Viewer) (frame : ShareFrame) (nowUs : Int) : Viewer :=
  { v.call stream (.onFrame stream frame nowUs) with
    arrived := if v.router.isOpen stream then v.arrived ++ [frame] else v.arrived }

/-- `on_video_stream_header`. -/
def onVideoStreamHeader (v : Viewer) (frame : ShareFrame) (nowUs : Int) : Viewer :=
  match VideoFrameHeader.parse frame.bytes with
  | none => v
  | some hdr => v.call stream (.onFrameStarted stream hdr nowUs)

/-- `route_video_stream_aborted`. -/
def onVideoStreamAborted (v : Viewer) (frame : ShareFrame) (haveSeq : Bool) (nowUs : Int) :
    Viewer :=
  let frameSeq := if haveSeq then
      (VideoFrameHeader.parse frame.bytes).map VideoFrameHeader.frameSeq
    else none
  v.call stream (.onFrameAborted stream frameSeq nowUs)

end Viewer

/-! ### The server and the wires -/

structure WatchHop where
  viewer : Viewer
  /-- The number of the last share the server accepted. -/
  share : Nat := 0
  running : Bool := false
  /-- The viewer is in the channel of the owner. -/
  member : Bool := false
  subscribed : Bool := false
  control : List ServerMessage := []
  requests : List ClientMessage := []
  /-- The frames whose streams are neither complete nor aborted. -/
  inFlight : List ShareFrame := []

inductive HopOp where
  -- the server
  | shareStart
  | shareStop
  | requestArrives
  | sendFrame (bytes : Bytes)
  -- the wires
  | controlArrives (ownerShown : Bool) (nowUs : Int)
  | headerArrives (i : Nat) (nowUs : Int)
  | frameArrives (i : Nat) (nowUs : Int)
  | frameAborts (i : Nat) (haveSeq : Bool) (nowUs : Int)
  -- the viewer
  | joinChannel
  | leaveChannel
  | addWatch (nowUs : Int)
  | removeWatch
  | stopWatching
  | setSingleWatched (on : Bool) (nowUs : Int)
  | setRtt (rttUs : Nat)
  | sendPli (nowUs : Int)
  | tick (nowUs : Int) (decoderNeedsKeyframe : StreamId → Bool) (order : List StreamId)
  | collect (nowUs : Int) (order : List (StreamId × Nat))
  | deliverNext

namespace WatchHop

variable (stream : StreamId)

def new (multiStream : Bool) : WatchHop := { viewer := { multiStream := multiStream } }

/-- Tell the viewer, if it is in the channel. -/
def announce (h : WatchHop) (messages : List ServerMessage) : WatchHop :=
  if h.member then { h with control := h.control ++ messages } else h

/-- `SCREEN_SHARE_START`, also of a stream that is still running. -/
def shareStart (h : WatchHop) : WatchHop :=
  { h with share := h.share + 1, running := true }.announce
    [.screenShareStarted (h.share + 1) false]

/-- `stop_video_stream`. -/
def shareStop (h : WatchHop) : WatchHop :=
  if !h.running then h
  else { h with running := false, subscribed := false }.announce [.screenShareStopped]

def handleMessage (h : WatchHop) : ClientMessage → WatchHop
  | .channelJoin =>
    { h with member := true }.announce
      (.channelUserList :: if h.running then [.screenShareStarted h.share true] else [])
  | .channelLeave => { h with member := false, subscribed := false }
  | .screenShareView subscribe =>
    if !h.member then h
    else if !subscribe then { h with subscribed := false }
    else if !h.running then h
    else { h with subscribed := true }

/-- `forward_video_frame` for this viewer. -/
def sendFrame (h : WatchHop) (bytes : Bytes) : WatchHop :=
  if h.running && h.member && h.subscribed then
    { h with inFlight := h.inFlight ++ [⟨h.share, bytes⟩] }
  else h

/-- Replace the viewer and send its requests. -/
def withViewer (h : WatchHop) (out : Viewer × List ClientMessage) : WatchHop :=
  { h with viewer := out.1, requests := h.requests ++ out.2 }

def step (h : WatchHop) : HopOp → WatchHop
  | .shareStart => h.shareStart
  | .shareStop => h.shareStop
  | .requestArrives =>
    match h.requests with
    | [] => h
    | request :: requests => { h with requests := requests }.handleMessage request
  | .sendFrame bytes => h.sendFrame bytes
  | .controlArrives ownerShown nowUs =>
    match h.control with
    | [] => h
    | message :: control =>
      { h with control := control }.withViewer
        (h.viewer.handleServerMessage stream ownerShown nowUs message)
  | .headerArrives i nowUs =>
    match h.inFlight[i]? with
    | none => h
    | some frame => { h with viewer := h.viewer.onVideoStreamHeader stream frame nowUs }
  | .frameArrives i nowUs =>
    match h.inFlight[i]? with
    | none => h
    | some frame =>
      { h with
        inFlight := h.inFlight.eraseIdx i
        viewer := h.viewer.onVideoStreamFrame stream frame nowUs }
  | .frameAborts i haveSeq nowUs =>
    match h.inFlight[i]? with
    | none => h
    | some frame =>
      { h with
        inFlight := h.inFlight.eraseIdx i
        viewer := h.viewer.onVideoStreamAborted stream frame haveSeq nowUs }
  | .joinChannel => h.withViewer h.viewer.joinChannel
  | .leaveChannel => h.withViewer (h.viewer.leaveChannel stream)
  | .addWatch nowUs => h.withViewer (h.viewer.addWatch stream nowUs)
  | .removeWatch => h.withViewer (h.viewer.removeWatch stream)
  | .stopWatching => h.withViewer (h.viewer.stopWatching stream)
  | .setSingleWatched on nowUs => h.withViewer (h.viewer.setSingleWatched stream on nowUs)
  | .setRtt rttUs => { h with viewer := h.viewer.call stream (.setRtt rttUs) }
  | .sendPli nowUs => { h with viewer := h.viewer.call stream (.requestKeyframe stream nowUs) }
  | .tick nowUs decoderNeedsKeyframe order =>
    { h with viewer := h.viewer.call stream (.tick nowUs decoderNeedsKeyframe order) }
  | .collect nowUs order => { h with viewer := h.viewer.call stream (.collect nowUs order) }
  | .deliverNext => { h with viewer := h.viewer.call stream .deliverNext }

/-- The state after a run of a new connection. -/
def run (multiStream : Bool) (ops : List HopOp) : WatchHop :=
  Machine.run (step stream) (new multiStream) ops

end WatchHop

end Parties.Client

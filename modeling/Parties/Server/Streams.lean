import Parties.Server.State

/-!
# Streams, subscriptions and departures

Mirror of the functions of `server/src/server.cpp` that end streams and
subscriptions: `stop_video_stream`, `clear_viewer_subscriptions` and
`process_disconnect`, with the announcements they make. A stream is named here by
its owner and source, as the source passes them around.
-/

namespace Parties

open Parties.Video

namespace Server

/-- The owner of a stream has a live authenticated session. -/
def sharerReachable (s : Server) (stream : StreamId) : Bool :=
  (s.sessionForUser (videoStreamOwner stream)).any fun sid => (s.sessions sid).authenticated

def notifyViewerChange (s : Server) (stream : StreamId) (viewer : UserId) (watching : Bool) :
    Server :=
  if videoStreamSource stream ≠ some .screen then s
  else if videoStreamOwner stream = viewer then s
  else
    match s.sessionForUser (videoStreamOwner stream) with
    | none => s
    | some sharer =>
      if !(s.sessions sharer).authenticated || !(s.sessions sharer).supportsFrameStreams then s
      else s.sendTo sharer (.screenShareViewer viewer watching)

def clearViewerSubscriptions (s : Server) (sid : SessionId) (notify : Bool) : Server :=
  let sharers := (s.sessions sid).subscribedSharers
  let viewer := (s.sessions sid).userId
  let s := s.modifySession sid Session.unsubscribeAll
  if !notify then s
  else sharers.foldl (fun s sharer => s.notifyViewerChange sharer viewer false) s

/-- The registry and everything hanging on it, for a stream that was published. -/
def unpublish (s : Server) (channel : ChannelId) (user : UserId) (source : VideoSource) : Server :=
  let stream := videoStreamId user source
  let s := { s with
    channelVideoStreams := Function.update s.channelVideoStreams channel
      ((s.channelVideoStreams channel).filter (· ≠ stream)) }
  let s := match s.sessionForUser user with
    | none => s
    | some sharer => s.modifySession sharer fun session => session.modifySource source fun state =>
        { state with ingressAllowed := false, generation := state.generation + 1 }
  let s := s.modifySessions fun session => session.unsubscribe stream
  let s := s.keyframeCall (.shareStopped stream)
  s.sendToAll (fun _ session => session.authenticated && session.channelId = channel &&
    (source = .screen || session.supportsCamera)) (.screenShareStopped stream)

def stopVideoStream (s : Server) (channel : ChannelId) (user : UserId) (source : VideoSource) :
    Server :=
  let stream := videoStreamId user source
  let s := { s with videoIngress := Function.update s.videoIngress stream none }
  if stream ∉ s.channelVideoStreams channel then s   -- wasn't publishing this source
  else s.unpublish channel user source

def stopAllVideoStreams (s : Server) (channel : ChannelId) (user : UserId) : Server :=
  (s.stopVideoStream channel user .screen).stopVideoStream channel user .camera

/-- The share a session runs of one of its sources ends. -/
def endShare (s : Server) (sid : SessionId) (source : VideoSource) : Server :=
  s.modifyShareLog (videoStreamId (s.sessions sid).userId source) fun log =>
    if log.runsOn.any fun on => on.1 = sid then { log with runsOn := none } else log

def endShares (s : Server) (sid : SessionId) : Server :=
  (s.endShare sid .screen).endShare sid .camera

def announceVideoStream (s : Server) (viewer : SessionId) (stream : StreamId)
    (publisher : SessionId) (replay : Bool) : Server :=
  match videoStreamSource stream with
  | none => s
  | some source =>
    if source ≠ .screen && !(s.sessions viewer).supportsCamera then s
    else
      let state := (s.sessions publisher).videoSources source
      s.sendTo viewer (.screenShareStarted stream state.codec state.width state.height replay)

/-- Forget the session in the index and in `authed_sessions_`, and close its ingress
if it was there. -/
def forgetSession (s : Server) (sid : SessionId) (user : UserId) : Server :=
  let s := if s.userSessions user = some sid then
      { s with userSessions := Function.update s.userSessions user none }
    else s
  if !s.authedSessions sid then s
  else
    { s with authedSessions := Function.update s.authedSessions sid false }.modifySession sid
      fun session => { session with videoSources := fun source =>
        { session.videoSources source with ingressAllowed := false } }

/-- The newer session that keeps a user in the channel an older one dropped from. -/
def rejoined (s : Server) (sid : SessionId) (user : UserId) (channel : ChannelId) : Bool :=
  (s.sessionForUser user).any fun current =>
    current ≠ sid && (s.sessions current).channelId = channel

def processDisconnect (s : Server) (sid : SessionId) (user : UserId) (channel : ChannelId) :
    Server :=
  let known := s.authedSessions sid
  let s := s.forgetSession sid user
  if channel = 0 then s
  -- the user is still there through a newer session
  else if s.rejoined sid user channel then
    if known then s.clearViewerSubscriptions sid false else s
  else
    let s := s.stopAllVideoStreams channel user
    let s := if known then s.clearViewerSubscriptions sid true else s
    s.sendToAll (fun other session => other ≠ sid && session.authenticated)
      (.userLeftChannel user channel)

end Server

end Parties

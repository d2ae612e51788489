import Parties.Server.Handlers
import Parties.Server.KeyframeAnswers

/-!
# Keyframe requests in runs of the server

What the server does to the states of its sharers is the record of its calls on
them: no handler changes them otherwise. The times in the record come from one
clock, so what holds of timely calls holds of every run of the server.

The main loop ends every drain of the queue with a pass over the deferred requests. So
what is absorbed wrongly is absorbed within one drain, and the counterexample is one.
-/

namespace Parties

open Parties.Video

/-- No call moves the time of the last keyframe past `t` unless it forwards a
keyframe later than `t`. -/
theorem SharerVideoStates.step_lastKeyframeUs_le {sts : SharerVideoStates} {t : Int} (ht : 0 ≤ t)
    (hpast : ∀ stream, ∀ st ∈ sts stream, st.lastKeyframeUs ≤ t) {c : KeyframeCall}
    (hc : ∀ stream nowUs, c = .frameForwarded stream true nowUs → nowUs ≤ t) :
    ∀ stream, ∀ st ∈ (sts.step c).1 stream, st.lastKeyframeUs ≤ t := by
  have hdefault : ∀ stream, ((sts stream).getD {}).lastKeyframeUs ≤ t := by
    intro stream
    cases hst : sts stream with
    | none => exact ht
    | some st => exact hpast stream st hst
  -- a call writes one entry
  have hwrite : ∀ (stream : StreamId) (st' : SharerVideoState), st'.lastKeyframeUs ≤ t →
      ∀ other, ∀ st ∈ Function.update sts stream (some st') other, st.lastKeyframeUs ≤ t := by
    intro stream st' hst' other st hst
    by_cases hs : other = stream
    · subst hs
      rw [Function.update_self] at hst
      obtain rfl := Option.some.inj hst
      exact hst'
    · rw [Function.update_of_ne hs] at hst
      exact hpast other st hst
  cases c with
  | frameForwarded s keyframe nowUs =>
      refine hwrite s _ ?_
      cases keyframe with
      | true => exact hc s nowUs rfl
      | false => exact hdefault s
  | request s requester nowUs deferUs reachable =>
      simp only [step, requestKeyframeFromSharer]
      split
      · exact hpast
      · split
        · refine hwrite s _ ?_
          split <;> exact hdefault s
        · exact hwrite s _ (hdefault s)
  | deferredPass s nowUs reachable =>
      simp only [step, sendDeferredKeyframeRequest]
      split
      · exact hpast
      next st hst =>
        split
        · exact hpast
        · split
          · exact hwrite s _ (hpast s st hst)
          · split
            · exact hpast
            · exact hwrite s _ (hpast s st hst)
  | shareStopped s =>
      intro other st hst
      by_cases hs : other = s
      · subst hs
        simp only [step, shareStopped, Function.update_self] at hst
        cases hst
      · simp only [step, shareStopped, Function.update_of_ne hs] at hst
        exact hpast other st hst

namespace Server

/-- The states of the sharers are those after the recorded calls, and the times of
the calls are readings of the clock. -/
structure Tracked (s : Server) : Prop where
  replay : SharerVideoStates.run (fun _ => none) s.keyframeCalls =
    (s.sharerVideoState, s.keyframeRequests)
  timely : Machine.AllSteps keyframeStep Timely (fun _ => none) s.keyframeCalls
  past : ∀ stream, ∀ st ∈ s.sharerVideoState stream, st.lastKeyframeUs ≤ s.nowUs
  pass : ∀ t ∈ s.passUs, 0 < t

variable {s : Server}

theorem nowUs_pos (s : Server) : 0 < s.nowUs := s.env.clock_pos _

theorem nowUs_le_readClock (s : Server) : s.nowUs ≤ s.readClock.nowUs := s.env.clock_mono _

/-- The part of the server the requests for keyframes depend on. -/
def keyframePart (s : Server) :=
  (s.env, s.reads, s.passUs, s.sharerVideoState, s.keyframeCalls, s.keyframeRequests)

namespace Tracked

/-- A change elsewhere. -/
theorem congr (h : s.Tracked) {s' : Server} (hpart : s'.keyframePart = s.keyframePart) :
    s'.Tracked := by
  simp only [keyframePart, Prod.mk.injEq] at hpart
  obtain ⟨henv, hreads, hpass, hstate, hcalls, hrequests⟩ := hpart
  obtain ⟨hreplay, htimely, hpast, hpos⟩ := h
  exact ⟨by rw [hcalls, hstate, hrequests, hreplay], by rw [hcalls]; exact htimely,
    by rw [hstate, nowUs, henv, hreads]; exact hpast, by rw [hpass]; exact hpos⟩

/-! ### Calls -/

/-- A timely call that forwards no keyframe of the future. -/
theorem keyframeCall (h : s.Tracked) {c : KeyframeCall} (htimely : Timely s.sharerVideoState c)
    (hc : ∀ stream nowUs, c = .frameForwarded stream true nowUs → nowUs ≤ s.nowUs) :
    (s.keyframeCall c).Tracked where
  replay := by
    simp only [Server.keyframeCall, SharerVideoStates.run_append, SharerVideoStates.run_cons,
      SharerVideoStates.run_nil, h.replay, List.append_nil]
  timely := by
    refine Machine.allSteps_append.mpr ⟨h.timely, ?_, trivial⟩
    rw [← SharerVideoStates.run_fst, h.replay]
    exact htimely
  past := SharerVideoStates.step_lastKeyframeUs_le s.nowUs_pos.le h.past hc
  pass := h.pass

theorem shareStopped (h : s.Tracked) (stream : StreamId) :
    (s.keyframeCall (.shareStopped stream)).Tracked :=
  h.keyframeCall trivial (fun _ _ heq => by cases heq)

theorem readClock (h : s.Tracked) : s.readClock.Tracked :=
  { h with past := fun stream st hst => (h.past stream st hst).trans s.nowUs_le_readClock }

theorem requestKeyframeFromSharer (h : s.Tracked) (stream : StreamId) (requester : UserId) :
    (s.requestKeyframeFromSharer stream requester).Tracked :=
  h.readClock.readClock.keyframeCall
    ⟨s.nowUs_pos, s.nowUs_le_readClock, h.past stream⟩ (fun _ _ heq => by cases heq)

theorem sendDeferredKeyframeRequest (h : s.Tracked) (stream : StreamId) :
    (s.sendDeferredKeyframeRequest stream).Tracked := by
  unfold Server.sendDeferredKeyframeRequest
  split
  · exact h
  next nowUs hpass =>
    exact h.keyframeCall (h.pass nowUs hpass) (fun _ _ heq => by cases heq)

theorem beginPass (h : s.Tracked) : s.beginPass.Tracked :=
  { h.readClock with
    pass := by
      rintro t ht
      obtain rfl := Option.some.inj ht
      exact s.nowUs_pos }

/-! ### Changes elsewhere -/

theorem modifySession (h : s.Tracked) (sid : SessionId) (f : Session → Session) :
    (s.modifySession sid f).Tracked :=
  h.congr rfl

theorem modifyShareLog (h : s.Tracked) (stream : StreamId) (f : ShareLog → ShareLog) :
    (s.modifyShareLog stream f).Tracked :=
  h.congr rfl

theorem sendTo (h : s.Tracked) (sid : SessionId) (message : ServerMessage) :
    (s.sendTo sid message).Tracked :=
  h.congr rfl

theorem sendToAll (h : s.Tracked) (picks : SessionId → Session → Bool) (message : ServerMessage) :
    (s.sendToAll picks message).Tracked :=
  h.congr rfl

theorem endShares (h : s.Tracked) (sid : SessionId) : (s.endShares sid).Tracked := h.congr rfl

theorem foldl (h : s.Tracked) {α : Type} {f : Server → α → Server}
    (hf : ∀ s a, s.Tracked → (f s a).Tracked) (l : List α) : (l.foldl f s).Tracked :=
  Machine.run_preserves hf h l

/-! ### Streams and departures -/

theorem notifyViewerChange (h : s.Tracked) (stream : StreamId) (viewer : UserId)
    (watching : Bool) : (s.notifyViewerChange stream viewer watching).Tracked := by
  unfold Server.notifyViewerChange
  split
  · exact h
  · split
    · exact h
    · split
      · exact h
      · split
        · exact h
        · exact h.sendTo _ _

theorem clearViewerSubscriptions (h : s.Tracked) (sid : SessionId) (notify : Bool) :
    (s.clearViewerSubscriptions sid notify).Tracked := by
  unfold Server.clearViewerSubscriptions
  dsimp only
  split
  · exact h.modifySession _ _
  · exact (h.modifySession _ _).foldl (fun s stream hs => hs.notifyViewerChange _ _ _) _

theorem stopVideoStream (h : s.Tracked) (channel : ChannelId) (user : UserId)
    (source : VideoSource) : (s.stopVideoStream channel user source).Tracked := by
  unfold Server.stopVideoStream unpublish
  dsimp only
  split
  · exact h.congr rfl
  · refine sendToAll (shareStopped ?_ _) _ _
    split <;> exact h.congr rfl

theorem stopAllVideoStreams (h : s.Tracked) (channel : ChannelId) (user : UserId) :
    (s.stopAllVideoStreams channel user).Tracked :=
  (h.stopVideoStream channel user .screen).stopVideoStream channel user .camera

theorem announceVideoStream (h : s.Tracked) (viewer : SessionId) (stream : StreamId)
    (publisher : SessionId) (replay : Bool) :
    (s.announceVideoStream viewer stream publisher replay).Tracked := by
  unfold Server.announceVideoStream
  split
  · exact h
  · split
    · exact h
    · exact h.sendTo _ _

theorem forgetSession (h : s.Tracked) (sid : SessionId) (user : UserId) :
    (s.forgetSession sid user).Tracked := by
  unfold Server.forgetSession
  dsimp only
  split <;> split <;> exact h.congr rfl

theorem processDisconnect (h : s.Tracked) (sid : SessionId) (user : UserId) (channel : ChannelId) :
    (s.processDisconnect sid user channel).Tracked := by
  have hforget := h.forgetSession sid user
  unfold Server.processDisconnect
  dsimp only
  split
  · exact hforget
  · split
    · split
      · exact hforget.clearViewerSubscriptions _ _
      · exact hforget
    · refine sendToAll ?_ _ _
      split
      · exact (hforget.stopAllVideoStreams _ _).clearViewerSubscriptions _ _
      · exact hforget.stopAllVideoStreams _ _

/-! ### The video path -/

theorem forwardVideoFrame (h : s.Tracked) (sid : SessionId) (source : VideoSource)
    (frame : ShareFrame) : (s.forwardVideoFrame sid source frame).Tracked := by
  unfold Server.forwardVideoFrame
  split
  · exact h
  · split
    · exact h
    · dsimp only
      split
      · exact h
      · split
        · exact h
        next session _ _ _ _ hdr _ =>
          have hoffered : (s.offerAll sid session.channelId
              (videoStreamId session.userId source) hdr).Tracked := h.congr rfl
          have hforwarded := hoffered.readClock.keyframeCall (c := .frameForwarded
              (videoStreamId session.userId source) hdr.keyframe s.nowUs) trivial (by
            rintro stream nowUs heq
            obtain ⟨_, _, rfl⟩ := KeyframeCall.frameForwarded.inj heq
            exact s.nowUs_le_readClock)
          split
          · exact hforwarded.requestKeyframeFromSharer _ _
          · exact hforwarded

theorem onIngressEvents {stream : StreamId} {sid : SessionId} {source : VideoSource}
    (h : s.Tracked) (events : List (ReorderEvent ShareFrame)) :
    (onIngressEvents stream sid source s events).Tracked := by
  induction events generalizing s with
  | nil => exact h
  | cons e events ih =>
      cases e with
      | deliver seq frame => exact ih ((h.modifyShareLog _ _).forwardVideoFrame _ _ _)
      | lost seq => exact ih (h.requestKeyframeFromSharer _ _)

theorem putIngress (h : s.Tracked) (stream : StreamId) (ingress : VideoIngress)
    (outcome : VideoFrameReorderBuffer ShareFrame × List (ReorderEvent ShareFrame)) :
    (s.putIngress stream ingress outcome).Tracked := by
  refine onIngressEvents ?_ _
  exact h.congr rfl

theorem processIngressEvent (h : s.Tracked) (stream : StreamId) (ingress : VideoIngress)
    (event : IngressEvent) : (s.processIngressEvent stream ingress event).Tracked := by
  unfold Server.processIngressEvent
  split
  · exact h.readClock.putIngress _ _ _
  · exact h.readClock.putIngress _ _ _
  · dsimp only
    split
    · exact h.readClock.putIngress _ _ _
    · exact (h.readClock.putIngress _ _ _).requestKeyframeFromSharer _ _
  · split
    · exact h.putIngress _ _ _
    · exact h.readClock.putIngress _ _ _

theorem processVideoFrame (h : s.Tracked) : s.processVideoFrame.Tracked := by
  unfold Server.processVideoFrame
  split
  · exact h
  next p rest _ =>
    have hdequeue : (s.dequeue p rest).Tracked := h.congr rfl
    dsimp only
    split
    · exact hdequeue
    · exact hdequeue.processIngressEvent _ _ _

theorem pollIngress (h : s.Tracked) (stream : StreamId) : (s.pollIngress stream).Tracked := by
  unfold Server.pollIngress
  split
  · split
    · exact h.congr rfl
    · dsimp only
      split
      · exact (h.putIngress _ _ _).requestKeyframeFromSharer _ _
      · exact h.putIngress _ _ _
  · exact h

theorem enqueueVideoFrame (h : s.Tracked) (sid : SessionId) (source : VideoSource)
    (frame : ShareFrame) : (s.enqueueVideoFrame sid source frame).Tracked := by
  unfold Server.enqueueVideoFrame
  split
  · exact h
  · split
    · exact h
    · dsimp only
      split
      · exact h.congr rfl
      · split <;> exact h.congr rfl

theorem enqueueVideoEvent (h : s.Tracked) (sid : SessionId) (source : VideoSource)
    (event : IngressEvent) : (s.enqueueVideoEvent sid source event).Tracked := by
  unfold Server.enqueueVideoEvent
  split
  · exact h
  · split <;> exact h.congr rfl

theorem handleVideoControl (h : s.Tracked) (sid : SessionId) (target : StreamId)
    (bucketAllows : Bool) : (s.handleVideoControl sid target bucketAllows).Tracked := by
  unfold Server.handleVideoControl
  repeat' split
  all_goals first
    | exact h
    | exact h.readClock.modifySession _ _
    | exact (h.readClock.modifySession _ _).requestKeyframeFromSharer _ _

theorem stopViewing (h : s.Tracked) (sid : SessionId) (target : StreamId) :
    (s.stopViewing sid target).Tracked := by
  unfold Server.stopViewing
  split
  · exact h.clearViewerSubscriptions _ _
  · dsimp only
    split
    · exact (h.modifySession _ _).notifyViewerChange _ _ _
    · exact h.modifySession _ _

theorem startViewing (h : s.Tracked) (sid : SessionId) (target : StreamId)
    (dropped : List StreamId) : (s.startViewing sid target dropped).Tracked := by
  have hdropped : ∀ (s' : Server) (viewer : UserId), s'.Tracked →
      (dropped.foldl (fun s old => s.notifyViewerChange old viewer false) s').Tracked :=
    fun s' viewer hs' => hs'.foldl (fun s old hs => hs.notifyViewerChange _ _ _) dropped
  unfold Server.startViewing
  dsimp only
  split
  · refine notifyViewerChange (requestKeyframeFromSharer (hdropped _ _ ?_) _ _) _ _ _
    exact (h.modifySession _ _).modifySession _ _
  · exact hdropped _ _ (h.modifySession _ _)

theorem screenShareView (h : s.Tracked) (sid : SessionId) (target : StreamId)
    (action : Option (BitVec 8)) : (s.screenShareView sid target action).Tracked := by
  unfold Server.screenShareView
  dsimp only
  split
  · exact h
  · split
    · exact h.stopViewing _ _
    · split
      · exact h
      · split
        · exact h
        · exact h.startViewing _ _ _

/-! ### Connections and logins -/

theorem disconnect (h : s.Tracked) (sid : SessionId) : (s.disconnect sid).Tracked := by
  unfold Server.disconnect
  split
  · exact h
  · exact (h.endShares sid).modifySession _ _

theorem onShutdownComplete (h : s.Tracked) (sid : SessionId) :
    (s.onShutdownComplete sid).Tracked := by
  unfold Server.onShutdownComplete
  split
  · exact h
  · exact h.congr rfl

theorem processDisconnects (h : s.Tracked) : s.processDisconnects.Tracked := by
  unfold Server.processDisconnects
  split
  · exact h
  · refine processDisconnect ?_ _ _ _
    exact h.congr rfl

theorem kickDuplicate (h : s.Tracked) (sid : SessionId) : (s.kickDuplicate sid).Tracked := by
  refine disconnect (modifySession (processDisconnect (endShares ?_ _) _ _ _) _ _) _
  exact h.sendTo _ _

theorem signIn (h : s.Tracked) (sid : SessionId) (auth : AuthIdentity) (user : UserRow) :
    (s.signIn sid auth user).Tracked := h.congr rfl

theorem acceptIdentity (h : s.Tracked) (sid : SessionId) (auth : AuthIdentity) (dbOk : Bool) :
    (s.acceptIdentity sid auth dbOk).Tracked := by
  unfold Server.acceptIdentity
  dsimp only
  split
  · exact h.congr rfl
  · refine signIn (foldl ?_ (fun s other hs => ?_) _) _ _ _
    · exact h.congr rfl
    · split
      · exact hs.kickDuplicate other
      · exact hs

theorem authIdentity (h : s.Tracked) (sid : SessionId) (auth : AuthIdentity) (nowS : BitVec 64)
    (dbOk : Bool) : (s.authIdentity sid auth nowS dbOk).Tracked := by
  unfold Server.authIdentity
  split
  · exact h
  · split
    · exact h.sendTo _ _
    · dsimp only
      split
      · exact h.congr rfl
      · refine acceptIdentity ?_ _ _ _
        exact h.congr rfl

/-! ### Channels -/

theorem leaveChannel (h : s.Tracked) (sid : SessionId) : (s.leaveChannel sid).Tracked := by
  unfold Server.leaveChannel
  dsimp only
  refine sendToAll (modifySession (clearViewerSubscriptions ?_ _ _) _ _) _ _
  exact (h.endShares sid).stopAllVideoStreams _ _

theorem replayStreams (h : s.Tracked) (sid : SessionId) (channel : ChannelId) :
    (s.replayStreams sid channel).Tracked := by
  refine h.foldl (fun s stream hs => ?_) _
  split
  · exact hs
  · split
    · exact hs.announceVideoStream _ _ _ _
    · exact hs

theorem channelJoin (h : s.Tracked) (sid : SessionId) (channel : ChannelId)
    (voiceState : Option (Bool × Bool)) : (s.channelJoin sid channel voiceState).Tracked := by
  unfold Server.channelJoin
  split
  · exact h
  · split
    · exact h.sendTo _ _
    · dsimp only
      refine sendToAll (replayStreams (sendTo (modifySession ?_ _ _) _ _) _ _) _ _
      split
      · exact h.leaveChannel sid
      · exact h

theorem channelLeave (h : s.Tracked) (sid : SessionId) : (s.channelLeave sid).Tracked := by
  unfold Server.channelLeave
  split
  · exact h
  · exact h.leaveChannel sid

/-! ### Administration -/

theorem adminCreateChannel (h : s.Tracked) (sid : SessionId) (name : String) (maxUsers : Int)
    (dbOk : Bool) : (s.adminCreateChannel sid name maxUsers dbOk).Tracked := by
  unfold Server.adminCreateChannel
  repeat' split
  all_goals exact h.congr rfl

theorem evictStreams (h : s.Tracked) (channel : ChannelId) : (s.evictStreams channel).Tracked := by
  refine h.foldl (fun s sid hs => ?_) _
  split
  · exact ((hs.endShares sid).stopAllVideoStreams _ _).clearViewerSubscriptions _ _
  · exact hs

theorem evictUsers (h : s.Tracked) (channel : ChannelId) : (s.evictUsers channel).Tracked := by
  refine h.foldl (fun s sid hs => ?_) _
  split
  · exact (hs.modifySession _ _).sendTo _ _
  · exact hs

theorem adminDeleteChannel (h : s.Tracked) (sid : SessionId) (channel : ChannelId) (dbOk : Bool) :
    (s.adminDeleteChannel sid channel dbOk).Tracked := by
  have hevicted := (h.evictStreams channel).evictUsers channel
  unfold Server.adminDeleteChannel
  split
  · exact h
  · split
    · exact h.sendTo _ _
    · dsimp only
      split
      · exact hevicted.sendTo _ _
      · exact hevicted.congr rfl

theorem kickAll (h : s.Tracked) (sid : SessionId) (target : UserId) (others : List SessionId) :
    (s.kickAll sid target others).Tracked := by
  induction others generalizing s with
  | nil => exact h
  | cons other rest ih =>
      unfold Server.kickAll
      dsimp only
      split
      · split
        · exact h.sendTo _ _
        · exact ih (disconnect (h.sendTo _ _) other)
      · exact ih h

theorem adminSetRole (h : s.Tracked) (sid : SessionId) (target : UserId) (newRole : Role)
    (dbOk : Bool) : (s.adminSetRole sid target newRole dbOk).Tracked := by
  unfold Server.adminSetRole
  dsimp only
  split
  · exact h
  · split
    · exact h.sendTo _ _
    · split
      · exact h.sendTo _ _
      · split <;> exact h.congr rfl

theorem adminKickUser (h : s.Tracked) (sid : SessionId) (target : UserId) :
    (s.adminKickUser sid target).Tracked := by
  unfold Server.adminKickUser
  split
  · exact h
  · split
    · exact h.sendTo _ _
    · exact (h.kickAll _ _ _).sendTo _ _

/-! ### Shares -/

theorem screenShareStart (h : s.Tracked) (sid : SessionId) (codec : BitVec 8)
    (width height : BitVec 16) (sourceRaw : BitVec 8) :
    (s.screenShareStart sid codec width height sourceRaw).Tracked := by
  unfold Server.screenShareStart
  split
  · exact h
  · split
    · exact h
    · refine foldl ?_ (fun s viewer hs => ?_) _
      · exact h.congr rfl
      · split
        · exact hs.announceVideoStream _ _ _ _
        · exact hs

theorem screenShareUpdate (h : s.Tracked) (sid : SessionId) (codec : BitVec 8)
    (width height : BitVec 16) (sourceRaw : BitVec 8) :
    (s.screenShareUpdate sid codec width height sourceRaw).Tracked := by
  unfold Server.screenShareUpdate
  dsimp only
  repeat' split
  all_goals exact h.congr rfl

theorem screenShareStop (h : s.Tracked) (sid : SessionId) (sourceRaw : BitVec 8) :
    (s.screenShareStop sid sourceRaw).Tracked := by
  unfold Server.screenShareStop
  dsimp only
  split
  · exact h
  · split
    · exact h
    · exact (h.modifyShareLog _ _).stopVideoStream _ _ _

/-! ### Runs -/

theorem handleMessage (h : s.Tracked) (sid : SessionId) (message : ControlMessage) :
    (s.handleMessage sid message).Tracked := by
  unfold Server.handleMessage
  split
  · exact h
  · cases message with
    | authIdentity auth nowS dbOk => exact h.authIdentity _ _ _ _
    | channelJoin channel voiceState => exact h.channelJoin _ _ _
    | channelLeave => exact h.channelLeave _
    | adminCreateChannel name maxUsers dbOk => exact h.adminCreateChannel _ _ _ _
    | adminDeleteChannel channel dbOk => exact h.adminDeleteChannel _ _ _
    | adminSetRole target newRole dbOk => exact h.adminSetRole _ _ _ _
    | adminKickUser target => exact h.adminKickUser _ _
    | screenShareStart codec width height source => exact h.screenShareStart _ _ _ _ _
    | screenShareUpdate codec width height source => exact h.screenShareUpdate _ _ _ _ _
    | screenShareStop source => exact h.screenShareStop _ _
    | screenShareView target action => exact h.screenShareView _ _ _

theorem step (h : s.Tracked) (op : ServerOp) : (s.step op).Tracked := by
  cases op with
  | connect => exact h.congr rfl
  | shutdownComplete sid => exact h.onShutdownComplete sid
  | videoFrame sid source frame => exact h.enqueueVideoFrame _ _ _
  | videoFrameStarted sid source hdr => exact h.enqueueVideoEvent _ _ _
  | videoFrameAborted sid source frameSeq => exact h.enqueueVideoEvent _ _ _
  | videoOutShutdown sid handle => exact h.congr rfl
  | message sid message => exact h.handleMessage _ _
  | videoControl sid target bucketAllows => exact h.handleVideoControl _ _ _
  | processVideoFrame => exact h.processVideoFrame
  | beginPass => exact h.beginPass
  | pollIngress stream => exact h.pollIngress _
  | sendDeferred stream => exact h.sendDeferredKeyframeRequest _
  | processDisconnect => exact h.processDisconnects

end Tracked

theorem tracked_run (config : Config) (env : Environment) (ops : List ServerOp) :
    (run config env ops).Tracked :=
  Machine.run_preserves (fun _ op h => h.step op)
    ⟨rfl, trivial, fun _ _ hst => (by cases hst), fun _ ht => (by cases ht)⟩ ops

/-- In every run that absorbs no request into a deferred one older than the last
keyframe, every request is answered; requests of one share are a cooldown apart. -/
theorem keyframes_answered (config : Config) (env : Environment) (ops : List ServerOp)
    (habsorbed : Machine.AllSteps keyframeStep AbsorbedInTime (fun _ => none)
      (run config env ops).keyframeCalls) :
    SharerVideoStates.run (fun _ => none) (run config env ops).keyframeCalls =
        ((run config env ops).sharerVideoState, (run config env ops).keyframeRequests) ∧
      Answered (run config env ops).keyframeCalls ∧ Spaced (run config env ops).keyframeCalls := by
  have htracked := tracked_run config env ops
  exact ⟨htracked.replay, answered_of_absorbedInTime htracked.timely habsorbed,
    spaced_of_timely htracked.timely⟩

/-- A stream dies before its header: the server asks for a keyframe. -/
def lostFrame : List ServerOp := [.videoFrameAborted 1 .screen none]

/-- One call of `process_video_frames`: what has arrived is drained, and the pass over the buffers
and the deferred requests ends the call. -/
def drainFrames (arrivals : List ServerOp) : List ServerOp :=
  arrivals ++ List.replicate arrivals.length .processVideoFrame ++
    [.beginPass, .pollIngress 1, .sendDeferred 1]

/-- Of two requests the second is deferred and sent by the first pass after the cooldown. -/
theorem keyframes_answered_deferred :
    Answered (run .small (.ticking 250000)
      (rootShares ++ drainFrames [.videoFrame 1 .screen ⟨1, keyframeBytes 0⟩] ++
        drainFrames (lostFrame ++ lostFrame))).keyframeCalls :=
  (keyframes_answered .small (.ticking 250000) _ (by decide +kernel)).2.1

/-- A frame is lost before the first keyframe; then the keyframe and another loss are drained
together, so that no pass comes between them. -/
def lostAfterKeyframe : List ServerOp :=
  rootShares ++ drainFrames lostFrame ++
    drainFrames (.videoFrame 1 .screen ⟨1, keyframeBytes 0⟩ :: lostFrame)

/-- The request after the keyframe is absorbed by the one before it and cancelled with it. -/
theorem not_keyframes_answered :
    ¬ ∀ config env ops, Answered (run config env ops).keyframeCalls := by
  intro hclaim
  have hanswered := hclaim .small (.ticking 120000) lostAfterKeyframe
  -- the second request is the retry of the pass, which read its time before it
  have hcalls : (run .small (.ticking 120000) lostAfterKeyframe).keyframeCalls =
      [.request 1 0 120001 240001 true, .request 1 0 480001 600001 true,
        .deferredPass 1 360001 true, .frameForwarded 1 true 840001] ++
          .request 1 0 1080001 1200001 true :: ([] ++ .deferredPass 1 1320001 true :: []) := by
    decide +kernel
  rw [hcalls] at hanswered
  have hanswer := hanswered _ 1 0 1080001 1200001 true [] 1320001 true [] rfl (by decide)
    (by simp [KeyframeCall.WhileRunning]) (by decide)
  exact absurd hanswer (by simp; decide)

end Server

end Parties

import Mathlib.Algebra.Order.Group.Int
import Parties.Lib.Tally
import Parties.Server.RegistryRuns

/-!
# The bytes that wait in the ingress queue

A session may have only so many bytes of completed frames in the queue of the server.
`enqueue_video_frame` adds them to the session's counter and `process_video_frames` takes
them out; nothing else touches the counter or the queue.
-/

namespace Parties

open Parties.Video

namespace Server

variable {s : Server}

/-- The counters of the sessions, the queue, and the first id not given out. -/
def pendingPart (s : Server) : (SessionId → Int) × List PendingVideoFrame × SessionId :=
  (fun sid => (s.sessions sid).videoPendingBytes, s.videoIncoming, s.nextSessionId)

/-! ### What leaves it alone -/

/-- A loop whose body leaves it alone. -/
theorem pendingPart_foldl {α : Type} {f : Server → α → Server}
    (hf : ∀ s a, (f s a).pendingPart = s.pendingPart) (s : Server) (l : List α) :
    (l.foldl f s).pendingPart = s.pendingPart :=
  Machine.run_preserves (fun s' a hs' => (hf s' a).trans hs')
    (rfl : s.pendingPart = s.pendingPart) l

@[simp] theorem pendingPart_sendTo (sid : SessionId) (message : ServerMessage) :
    (s.sendTo sid message).pendingPart = s.pendingPart := rfl

@[simp] theorem pendingPart_sendToAll (picks : SessionId → Session → Bool)
    (message : ServerMessage) : (s.sendToAll picks message).pendingPart = s.pendingPart := rfl

@[simp] theorem pendingPart_sendError (sid : SessionId) (text : String) (code : ServerErrorCode) :
    (s.sendError sid text code).pendingPart = s.pendingPart := rfl

@[simp] theorem pendingPart_requestKeyframeFromSharer (stream : StreamId) (requester : UserId) :
    (s.requestKeyframeFromSharer stream requester).pendingPart = s.pendingPart := rfl

@[simp] theorem pendingPart_keyframeCall (call : KeyframeCall) :
    (s.keyframeCall call).pendingPart = s.pendingPart := rfl

@[simp] theorem pendingPart_endShares (sid : SessionId) :
    (s.endShares sid).pendingPart = s.pendingPart := rfl

/-- The sessions change, but not their counters. -/
theorem pendingPart_withSessions {sessions : SessionId → Session}
    (h : ∀ sid, (sessions sid).videoPendingBytes = (s.sessions sid).videoPendingBytes) :
    { s with sessions := sessions }.pendingPart = s.pendingPart :=
  Prod.ext (funext h) rfl

theorem pendingPart_modifySession (sid : SessionId) {f : Session → Session}
    (hf : ∀ session, (f session).videoPendingBytes = session.videoPendingBytes) :
    (s.modifySession sid f).pendingPart = s.pendingPart := by
  apply pendingPart_withSessions
  intro other
  by_cases hsid : other = sid
  · subst hsid
    rw [Function.update_self, hf]
  · rw [Function.update_of_ne hsid]

theorem pendingPart_modifySessions {f : Session → Session}
    (hf : ∀ session, (f session).videoPendingBytes = session.videoPendingBytes) :
    (s.modifySessions f).pendingPart = s.pendingPart := by
  apply pendingPart_withSessions
  intro sid
  split
  · exact hf _
  · rfl

/-! ### Streams and departures -/

@[simp] theorem pendingPart_notifyViewerChange (stream : StreamId) (viewer : UserId)
    (watching : Bool) :
    (s.notifyViewerChange stream viewer watching).pendingPart = s.pendingPart := by
  unfold notifyViewerChange
  repeat' split
  all_goals rfl

@[simp] theorem pendingPart_clearViewerSubscriptions (sid : SessionId) (notify : Bool) :
    (s.clearViewerSubscriptions sid notify).pendingPart = s.pendingPart := by
  have hcleared : (s.modifySession sid Session.unsubscribeAll).pendingPart = s.pendingPart :=
    pendingPart_modifySession sid fun _ => rfl
  unfold clearViewerSubscriptions
  dsimp only
  split
  · exact hcleared
  · rw [pendingPart_foldl fun s stream => pendingPart_notifyViewerChange _ _ _, hcleared]

@[simp] theorem pendingPart_stopVideoStream (channel : ChannelId) (user : UserId)
    (source : VideoSource) :
    (s.stopVideoStream channel user source).pendingPart = s.pendingPart := by
  have hdropped : ∀ s : Server, (s.modifySessions fun session =>
      session.unsubscribe (videoStreamId user source)).pendingPart = s.pendingPart :=
    fun s => pendingPart_modifySessions fun _ => rfl
  have hstopped : ∀ (s : Server) (sid : SessionId) (f : VideoSourceState → VideoSourceState),
      (s.modifySession sid fun session => session.modifySource source f).pendingPart =
        s.pendingPart := fun s sid f => pendingPart_modifySession sid fun _ => rfl
  unfold stopVideoStream unpublish
  dsimp only
  split
  · rfl
  · rw [pendingPart_sendToAll, pendingPart_keyframeCall, hdropped]
    split
    · rfl
    · exact hstopped _ _ _

@[simp] theorem pendingPart_stopAllVideoStreams (channel : ChannelId) (user : UserId) :
    (s.stopAllVideoStreams channel user).pendingPart = s.pendingPart := by
  simp [stopAllVideoStreams]

@[simp] theorem pendingPart_announceVideoStream (viewer : SessionId) (stream : StreamId)
    (publisher : SessionId) (replay : Bool) :
    (s.announceVideoStream viewer stream publisher replay).pendingPart = s.pendingPart := by
  unfold announceVideoStream
  repeat' split
  all_goals rfl

@[simp] theorem pendingPart_processDisconnect (sid : SessionId) (user : UserId)
    (channel : ChannelId) : (s.processDisconnect sid user channel).pendingPart = s.pendingPart := by
  have hforget : (s.forgetSession sid user).pendingPart = s.pendingPart := by
    have hclosed : ∀ s : Server, (s.modifySession sid fun session => { session with
        videoSources := fun source =>
          { session.videoSources source with ingressAllowed := false } }).pendingPart =
        s.pendingPart := fun s => pendingPart_modifySession sid fun _ => rfl
    unfold forgetSession
    dsimp only
    split <;> split
    · rfl
    · exact hclosed _
    · rfl
    · exact hclosed _
  unfold processDisconnect
  dsimp only
  split
  · exact hforget
  · split
    · split
      · rw [pendingPart_clearViewerSubscriptions, hforget]
      · exact hforget
    · rw [pendingPart_sendToAll]
      split
      · rw [pendingPart_clearViewerSubscriptions, pendingPart_stopAllVideoStreams, hforget]
      · rw [pendingPart_stopAllVideoStreams, hforget]

/-! ### Connections and logins -/

/-- A session is marked as shutting down. -/
theorem pendingPart_retire (s : Server) (sid : SessionId) :
    ((s.endShares sid).modifySession sid fun session =>
      { session with alive := false }).pendingPart = s.pendingPart :=
  pendingPart_modifySession sid fun _ => rfl

@[simp] theorem pendingPart_onShutdownComplete (sid : SessionId) :
    (s.onShutdownComplete sid).pendingPart = s.pendingPart := by
  unfold onShutdownComplete
  split
  · rfl
  · exact s.pendingPart_retire sid

@[simp] theorem pendingPart_disconnect (sid : SessionId) :
    (s.disconnect sid).pendingPart = s.pendingPart := by
  unfold disconnect
  split
  · rfl
  · exact s.pendingPart_retire sid

theorem pendingPart_kickDuplicates (sid : SessionId) (key : PublicKey) :
    (s.kickDuplicates sid key).pendingPart = s.pendingPart := by
  refine pendingPart_foldl (fun s other => ?_) s _
  have hout : ∀ s : Server, (s.modifySession other fun session =>
      { session with channelId := 0, authenticated := false }).pendingPart = s.pendingPart :=
    fun s => pendingPart_modifySession other fun _ => rfl
  split
  · unfold kickDuplicate
    dsimp only
    rw [pendingPart_disconnect, hout, pendingPart_processDisconnect, pendingPart_endShares,
      pendingPart_sendError]
  · rfl

theorem pendingPart_authIdentity (sid : SessionId) (auth : AuthIdentity) (nowS : BitVec 64)
    (dbOk : Bool) : (s.authIdentity sid auth nowS dbOk).pendingPart = s.pendingPart := by
  have hsigned : ∀ (s : Server) (user : UserRow),
      (s.signIn sid auth user).pendingPart = s.pendingPart := by
    intro s user
    have hknown : (s.modifySession sid fun session => { session with
        authenticated := true
        userId := user.id
        username := user.displayName
        role := user.role
        publicKey := auth.publicKey
        protocolVersion := auth.version }).pendingPart = s.pendingPart :=
      pendingPart_modifySession sid fun _ => rfl
    exact hknown
  unfold authIdentity
  split
  · rfl
  · split
    · rfl
    · dsimp only
      split
      · rfl
      · unfold acceptIdentity
        dsimp only
        split
        · rfl
        · rw [hsigned, pendingPart_kickDuplicates]
          rfl

/-! ### Channels and administration -/

@[simp] theorem pendingPart_leaveChannel (sid : SessionId) :
    (s.leaveChannel sid).pendingPart = s.pendingPart := by
  have hleft : ∀ s : Server, (s.modifySession sid fun session =>
      { session with channelId := 0 }).pendingPart = s.pendingPart :=
    fun s => pendingPart_modifySession sid fun _ => rfl
  unfold leaveChannel
  dsimp only
  rw [pendingPart_sendToAll, hleft, pendingPart_clearViewerSubscriptions,
    pendingPart_stopAllVideoStreams, pendingPart_endShares]

@[simp] theorem pendingPart_replayStreams (sid : SessionId) (channel : ChannelId) :
    (s.replayStreams sid channel).pendingPart = s.pendingPart := by
  refine pendingPart_foldl (fun s stream => ?_) s _
  split
  · rfl
  · split
    · exact pendingPart_announceVideoStream _ _ _ _
    · rfl

theorem pendingPart_channelJoin (sid : SessionId) (channel : ChannelId)
    (voiceState : Option (Bool × Bool)) :
    (s.channelJoin sid channel voiceState).pendingPart = s.pendingPart := by
  have henter : ∀ s : Server, (s.modifySession sid fun session =>
      session.enter channel voiceState).pendingPart = s.pendingPart := by
    intro s
    apply pendingPart_modifySession
    intro session
    cases voiceState <;> rfl
  unfold channelJoin
  split
  · rfl
  · split
    · rfl
    · dsimp only
      rw [pendingPart_sendToAll, pendingPart_replayStreams, pendingPart_sendTo, henter]
      split
      · exact pendingPart_leaveChannel sid
      · rfl

theorem pendingPart_adminCreateChannel (sid : SessionId) (name : String) (maxUsers : Int)
    (dbOk : Bool) : (s.adminCreateChannel sid name maxUsers dbOk).pendingPart = s.pendingPart := by
  unfold adminCreateChannel
  repeat' split
  all_goals rfl

theorem pendingPart_adminDeleteChannel (sid : SessionId) (channel : ChannelId) (dbOk : Bool) :
    (s.adminDeleteChannel sid channel dbOk).pendingPart = s.pendingPart := by
  have hstreams : (s.evictStreams channel).pendingPart = s.pendingPart := by
    refine pendingPart_foldl (fun s sid => ?_) s _
    split
    · simp
    · rfl
  have husers : ((s.evictStreams channel).evictUsers channel).pendingPart = s.pendingPart := by
    refine (pendingPart_foldl (fun s sid => ?_) _ _).trans hstreams
    have hout : (s.modifySession sid fun session => { session with channelId := 0 }).pendingPart =
        s.pendingPart := pendingPart_modifySession sid fun _ => rfl
    split
    · rw [pendingPart_sendTo, hout]
    · rfl
  unfold adminDeleteChannel
  split
  · rfl
  · split
    · rfl
    · dsimp only
      split <;> exact husers

theorem pendingPart_adminSetRole (sid : SessionId) (target : UserId) (newRole : Role)
    (dbOk : Bool) : (s.adminSetRole sid target newRole dbOk).pendingPart = s.pendingPart := by
  have hlive : ∀ s : Server, (s.setLiveRole target newRole).pendingPart = s.pendingPart := by
    intro s
    apply pendingPart_modifySessions
    intro session
    split <;> rfl
  unfold adminSetRole
  dsimp only
  split
  · rfl
  · split
    · rfl
    · split
      · rfl
      · rw [pendingPart_sendTo, pendingPart_sendToAll, hlive]
        split <;> rfl

theorem pendingPart_adminKickUser (sid : SessionId) (target : UserId) :
    (s.adminKickUser sid target).pendingPart = s.pendingPart := by
  have hkicked : ∀ (others : List SessionId) (s : Server),
      (s.kickAll sid target others).pendingPart = s.pendingPart := by
    intro others
    induction others with
    | nil => exact fun _ => rfl
    | cons other rest ih =>
        intro s
        unfold kickAll
        dsimp only
        split
        · split
          · rfl
          · rw [ih, pendingPart_disconnect, pendingPart_sendError]
        · exact ih s
  unfold adminKickUser
  split
  · rfl
  · split
    · rfl
    · exact hkicked _ s

/-! ### Streams and views -/

theorem pendingPart_screenShareStart (sid : SessionId) (codec : BitVec 8)
    (width height : BitVec 16) (source : BitVec 8) :
    (s.screenShareStart sid codec width height source).pendingPart = s.pendingPart := by
  have hstarted : ∀ (s : Server) (source : VideoSource),
      (((s.publish sid source).setSourceInfo sid source codec width height).logStart sid
        source).pendingPart = s.pendingPart := by
    intro s source
    have hopened : (s.modifySession sid fun session => session.modifySource source fun state =>
        { state with ingressAllowed := true }).pendingPart = s.pendingPart :=
      pendingPart_modifySession sid fun _ => rfl
    have hinfo : ((s.publish sid source).setSourceInfo sid source codec width height).pendingPart =
        (s.publish sid source).pendingPart := pendingPart_modifySession sid fun _ => rfl
    exact hinfo.trans hopened
  unfold screenShareStart
  split
  · rfl
  · split
    · rfl
    · dsimp only
      refine (pendingPart_foldl (fun s viewer => ?_) _ _).trans (hstarted _ _)
      split
      · exact pendingPart_announceVideoStream _ _ _ _
      · rfl

theorem pendingPart_screenShareUpdate (sid : SessionId) (codec : BitVec 8)
    (width height : BitVec 16) (source : BitVec 8) :
    (s.screenShareUpdate sid codec width height source).pendingPart = s.pendingPart := by
  unfold screenShareUpdate
  dsimp only
  repeat' split
  all_goals first
    | rfl
    | exact pendingPart_modifySession sid fun _ => rfl

theorem pendingPart_screenShareStop (sid : SessionId) (source : BitVec 8) :
    (s.screenShareStop sid source).pendingPart = s.pendingPart := by
  unfold screenShareStop
  dsimp only
  split
  · rfl
  · split
    · rfl
    · exact pendingPart_stopVideoStream _ _ _

theorem pendingPart_screenShareView (sid : SessionId) (target : StreamId)
    (action : Option (BitVec 8)) :
    (s.screenShareView sid target action).pendingPart = s.pendingPart := by
  have hstopped : (s.stopViewing sid target).pendingPart = s.pendingPart := by
    have hunsubscribed : (s.modifySession sid fun session =>
        session.unsubscribe target).pendingPart = s.pendingPart :=
      pendingPart_modifySession sid fun _ => rfl
    unfold stopViewing
    dsimp only
    split
    · exact pendingPart_clearViewerSubscriptions _ _
    · split
      · rw [pendingPart_notifyViewerChange, hunsubscribed]
      · exact hunsubscribed
  have hstarted : ∀ dropped, (s.startViewing sid target dropped).pendingPart = s.pendingPart := by
    intro dropped
    have hdropped : (s.modifySession sid fun session =>
        dropped.foldl Session.unsubscribe session).pendingPart = s.pendingPart := by
      apply pendingPart_modifySession
      intro session
      induction dropped generalizing session with
      | nil => rfl
      | cons old rest ih => exact ih _
    have hsubscribed : ∀ s : Server, (s.subscribe sid target).pendingPart = s.pendingPart :=
      fun s => pendingPart_modifySession sid fun _ => rfl
    have hnotified : ∀ (s : Server) (viewer : UserId), (dropped.foldl (fun s old =>
        s.notifyViewerChange old viewer false) s).pendingPart = s.pendingPart :=
      fun s viewer => pendingPart_foldl (fun s old => pendingPart_notifyViewerChange _ _ _) s _
    unfold startViewing
    dsimp only
    split
    · rw [pendingPart_notifyViewerChange, pendingPart_requestKeyframeFromSharer, hnotified,
        hsubscribed, hdropped]
    · rw [hnotified, hdropped]
  unfold screenShareView
  dsimp only
  repeat' split
  all_goals first
    | rfl
    | exact hstopped
    | exact hstarted _

theorem pendingPart_handleMessage (sid : SessionId) (message : ControlMessage) :
    (s.handleMessage sid message).pendingPart = s.pendingPart := by
  unfold handleMessage
  split
  · rfl
  · cases message with
    | authIdentity auth nowS dbOk => exact pendingPart_authIdentity _ _ _ _
    | channelJoin channel voiceState => exact pendingPart_channelJoin _ _ _
    | channelLeave =>
        dsimp only
        unfold channelLeave
        split
        · rfl
        · exact pendingPart_leaveChannel sid
    | adminCreateChannel name maxUsers dbOk => exact pendingPart_adminCreateChannel _ _ _ _
    | adminDeleteChannel channel dbOk => exact pendingPart_adminDeleteChannel _ _ _
    | adminSetRole target newRole dbOk => exact pendingPart_adminSetRole _ _ _ _
    | adminKickUser target => exact pendingPart_adminKickUser _ _
    | screenShareStart codec width height source => exact pendingPart_screenShareStart _ _ _ _ _
    | screenShareUpdate codec width height source => exact pendingPart_screenShareUpdate _ _ _ _ _
    | screenShareStop source => exact pendingPart_screenShareStop _ _
    | screenShareView target action => exact pendingPart_screenShareView _ _ _

/-! ### The video path behind the queue -/

theorem videoPendingBytes_offer (viewer : Session) (stream : StreamId) (hdr : VideoFrameHeader)
    (nowUs outstanding threshold : Int) (sent : Bool) :
    (viewer.offer stream hdr nowUs outstanding threshold sent).1.videoPendingBytes =
      viewer.videoPendingBytes := by
  simp only [Session.offer, Session.sendFrame, Session.dropFrame]
  repeat' split
  all_goals rfl

theorem pendingPart_forwardVideoFrame (sid : SessionId) (source : VideoSource)
    (frame : ShareFrame) : (s.forwardVideoFrame sid source frame).pendingPart = s.pendingPart := by
  have hoffered : ∀ channel stream hdr,
      (s.offerAll sid channel stream hdr).pendingPart = s.pendingPart := by
    intro channel stream hdr
    apply pendingPart_withSessions
    intro other
    split
    · exact videoPendingBytes_offer _ _ _ _ _ _ _
    · rfl
  unfold forwardVideoFrame
  dsimp only
  repeat' split
  · rfl
  · rfl
  · rfl
  · rfl
  · exact hoffered _ _ _
  · exact hoffered _ _ _

theorem pendingPart_onIngressEvents (stream : StreamId) (sid : SessionId) (source : VideoSource)
    (events : List (ReorderEvent ShareFrame)) (s : Server) :
    (onIngressEvents stream sid source s events).pendingPart = s.pendingPart := by
  induction events generalizing s with
  | nil => rfl
  | cons event events ih =>
      cases event with
      | deliver hdr frame =>
          unfold onIngressEvents
          dsimp only
          rw [ih, pendingPart_forwardVideoFrame]
          rfl
      | lost seq =>
          unfold onIngressEvents
          rw [ih, pendingPart_requestKeyframeFromSharer]

@[simp] theorem pendingPart_putIngress (stream : StreamId) (ingress : VideoIngress)
    (outcome : VideoFrameReorderBuffer ShareFrame × List (ReorderEvent ShareFrame)) :
    (s.putIngress stream ingress outcome).pendingPart = s.pendingPart :=
  pendingPart_onIngressEvents stream ingress.session ingress.source outcome.2 _

theorem pendingPart_processIngressEvent (stream : StreamId) (ingress : VideoIngress)
    (event : IngressEvent) :
    (s.processIngressEvent stream ingress event).pendingPart = s.pendingPart := by
  unfold processIngressEvent
  cases event with
  | started hdr => exact pendingPart_putIngress _ _ _
  | aborted frameSeq =>
      cases frameSeq with
      | some frameSeq => exact pendingPart_putIngress _ _ _
      | none =>
          dsimp only
          split
          · exact pendingPart_putIngress _ _ _
          · rw [pendingPart_requestKeyframeFromSharer, pendingPart_putIngress]
            rfl
  | frame frame =>
      dsimp only
      split
      · exact pendingPart_putIngress _ _ _
      · exact pendingPart_putIngress _ _ _

theorem pendingPart_pollIngress (stream : StreamId) :
    (s.pollIngress stream).pendingPart = s.pendingPart := by
  unfold pollIngress
  split
  · dsimp only
    split
    · rfl
    · split
      · rw [pendingPart_requestKeyframeFromSharer, pendingPart_putIngress]
      · exact pendingPart_putIngress _ _ _
  · rfl

theorem pendingPart_videoOutShutdown (sid : SessionId) (handle : Nat) :
    (s.videoOutShutdown sid handle).pendingPart = s.pendingPart :=
  pendingPart_modifySession sid fun _ => rfl

theorem pendingPart_handleVideoControl (sid : SessionId) (target : StreamId)
    (bucketAllows : Bool) :
    (s.handleVideoControl sid target bucketAllows).pendingPart = s.pendingPart := by
  have hnoted : ∀ gate : ViewerVideoGate, (s.readClock.modifySession sid fun session =>
      session.setGate target gate).pendingPart = s.pendingPart :=
    fun gate => pendingPart_modifySession sid fun _ => rfl
  unfold handleVideoControl
  split
  · rfl
  · repeat' split
    all_goals first
      | rfl
      | exact hnoted _

/-! ### The balance -/

/-- What an entry of the queue counts for at a session. -/
def pendingFor (sid : SessionId) (p : PendingVideoFrame) : Int :=
  if p.session = sid then p.size else 0

theorem size_nonneg (p : PendingVideoFrame) : 0 ≤ p.size := by
  unfold PendingVideoFrame.size
  split
  · exact Int.natCast_nonneg _
  · exact le_rfl

/-- The counter of a session is the tally of its entries in the queue, and never too large. -/
structure PendingBalanced (s : Server) : Prop where
  queue : ∀ p ∈ s.videoIncoming, p.session < s.nextSessionId
  pending : ∀ sid, (s.sessions sid).videoPendingBytes = tally (pendingFor sid) s.videoIncoming
  cap : ∀ sid, (s.sessions sid).videoPendingBytes ≤ VIDEO_INGRESS_MAX_BUFFERED_BYTES

namespace PendingBalanced

variable {s' : Server}

theorem same (h : s.PendingBalanced) (hsame : s'.pendingPart = s.pendingPart) :
    s'.PendingBalanced := by
  simp only [pendingPart, Prod.mk.injEq] at hsame
  obtain ⟨hsessions, hqueue, hnext⟩ := hsame
  refine ⟨?_, fun sid => ?_, fun sid => ?_⟩
  · rw [hqueue, hnext]
    exact h.queue
  · rw [hqueue, ← h.pending sid]
    exact congrFun hsessions sid
  · apply (congrFun hsessions sid).trans_le
    exact h.cap sid

/-- The counter of a session changes with its entries of the queue, and stays below the cap. -/
theorem account (h : s.PendingBalanced) (sid : SessionId) {f : Session → Session}
    {queue : List PendingVideoFrame} (hqueue : ∀ p ∈ queue, p.session < s.nextSessionId)
    (hothers : ∀ other ≠ sid, tally (pendingFor other) queue =
      tally (pendingFor other) s.videoIncoming)
    (hself : (f (s.sessions sid)).videoPendingBytes = tally (pendingFor sid) queue)
    (hcap : (f (s.sessions sid)).videoPendingBytes ≤ VIDEO_INGRESS_MAX_BUFFERED_BYTES) :
    PendingBalanced ({ s with videoIncoming := queue }.modifySession sid f) := by
  refine ⟨hqueue, fun other => ?_, fun other => ?_⟩
  · by_cases hsid : other = sid
    · subst hsid
      simp only [modifySession, Function.update_self]
      exact hself
    · simp only [modifySession, Function.update_of_ne hsid]
      rw [hothers other hsid]
      exact h.pending other
  · by_cases hsid : other = sid
    · subst hsid
      simp only [modifySession, Function.update_self]
      exact hcap
    · simp only [modifySession, Function.update_of_ne hsid]
      exact h.cap other

theorem mem_of_getSession {sid : SessionId} {session : Session}
    (h : s.getSession sid = some session) : sid ∈ s.sessionTable ∧ s.sessions sid = session := by
  unfold getSession at h
  split at h
  next hin =>
    exact ⟨hin, Option.some.inj h⟩
  · cases h

/-- An event of a stream counts for nothing. -/
theorem enqueueVideoEvent (h : s.PendingBalanced) (hr : s.registry.InOrder) (sid : SessionId)
    (source : VideoSource) {event : IngressEvent} (hevent : ∀ frame, event ≠ .frame frame) :
    (s.enqueueVideoEvent sid source event).PendingBalanced := by
  have hsize : ∀ other generation,
      pendingFor other { session := sid, source, generation, event } = 0 := by
    intro other generation
    unfold pendingFor PendingVideoFrame.size
    split
    · split
      next frame hframe =>
        exact absurd hframe (hevent frame)
      · rfl
    · rfl
  unfold Server.enqueueVideoEvent
  split
  · exact h
  next session hsession =>
    split
    · exact h
    · refine ⟨?_, fun other => ?_, h.cap⟩
      · intro p hmem
        rcases List.mem_append.mp hmem with hold | hnew
        · exact h.queue p hold
        · rw [List.mem_singleton.mp hnew]
          exact hr.consistent.lt_next sid (mem_of_getSession hsession).1
      · rw [pushVideoIncoming, tally_concat, hsize, add_zero]
        exact h.pending other

theorem enqueueVideoFrame (h : s.PendingBalanced) (hr : s.registry.InOrder) (sid : SessionId)
    (source : VideoSource) (frame : ShareFrame) :
    (s.enqueueVideoFrame sid source frame).PendingBalanced := by
  unfold Server.enqueueVideoFrame
  split
  · exact h
  · split
    · exact h
    next session hsession =>
      obtain ⟨hin, rfl⟩ := mem_of_getSession hsession
      dsimp only
      split
      · exact h.same rfl
      · split
        · exact h.same rfl
        next hfits =>
          have hlogged : (s.logReceived sid source frame).PendingBalanced := h.same rfl
          apply hlogged.account sid
          · intro p hmem
            rcases List.mem_append.mp hmem with hold | hnew
            · exact h.queue p hold
            · rw [List.mem_singleton.mp hnew]
              exact hr.consistent.lt_next sid hin
          · intro other hother
            rw [tally_concat, pendingFor, if_neg hother.symm, add_zero]
          · rw [tally_concat, pendingFor, if_pos rfl]
            exact congrArg (· + _) (h.pending sid)
          · exact not_lt.mp hfits

theorem dequeue (h : s.PendingBalanced) {p : PendingVideoFrame} {rest : List PendingVideoFrame}
    (hqueue : s.videoIncoming = p :: rest) : (s.dequeue p rest).PendingBalanced := by
  have hpending := h.pending p.session
  rw [hqueue, tally_cons, pendingFor, if_pos rfl] at hpending
  apply h.account p.session
  · intro p' hmem
    apply h.queue
    rw [hqueue]
    exact List.mem_cons_of_mem p hmem
  · intro other hother
    rw [hqueue, tally_cons, pendingFor, if_neg hother.symm, zero_add]
  · dsimp only
    omega
  · have hcap := h.cap p.session
    have hsize := size_nonneg p
    dsimp only
    omega

theorem onNewConnection (h : s.PendingBalanced) : s.onNewConnection.PendingBalanced := by
  refine ⟨?_, fun sid => ?_, fun sid => ?_⟩
  · intro p hmem
    exact Nat.lt_succ_of_lt (h.queue p hmem)
  · by_cases hsid : sid = s.nextSessionId
    · subst hsid
      simp only [Server.onNewConnection, Function.update_self]
      symm
      apply tally_eq_zero
      intro p hmem
      exact if_neg (h.queue p hmem).ne
    · simp only [Server.onNewConnection, Function.update_of_ne hsid]
      exact h.pending sid
  · by_cases hsid : sid = s.nextSessionId
    · subst hsid
      simp only [Server.onNewConnection, Function.update_self]
      decide
    · simp only [Server.onNewConnection, Function.update_of_ne hsid]
      exact h.cap sid

theorem step (h : s.PendingBalanced) (hr : s.registry.InOrder) (op : ServerOp) :
    (s.step op).PendingBalanced := by
  cases op with
  | connect => exact h.onNewConnection
  | shutdownComplete sid => exact h.same (pendingPart_onShutdownComplete sid)
  | videoFrame sid source frame => exact h.enqueueVideoFrame hr sid source frame
  | videoFrameStarted sid source hdr => exact h.enqueueVideoEvent hr sid source nofun
  | videoFrameAborted sid source frameSeq => exact h.enqueueVideoEvent hr sid source nofun
  | videoOutShutdown sid handle => exact h.same (pendingPart_videoOutShutdown sid handle)
  | message sid message => exact h.same (pendingPart_handleMessage sid message)
  | videoControl sid target bucketAllows =>
      exact h.same (pendingPart_handleVideoControl sid target bucketAllows)
  | processVideoFrame =>
      rw [Server.step]
      unfold processVideoFrame
      split
      · exact h
      next p rest hqueue =>
        have hdequeued := h.dequeue hqueue
        dsimp only
        split
        · exact hdequeued
        · exact hdequeued.same (pendingPart_processIngressEvent _ _ _)
  | beginPass => exact h.same rfl
  | pollIngress stream => exact h.same (pendingPart_pollIngress stream)
  | sendDeferred stream =>
      apply h.same
      rw [Server.step]
      unfold sendDeferredKeyframeRequest
      split <;> rfl
  | processDisconnect =>
      apply h.same
      rw [Server.step]
      unfold processDisconnects
      split
      · rfl
      · exact pendingPart_processDisconnect _ _ _

theorem new (config : Config) (env : Environment) : (Server.new config env).PendingBalanced where
  queue := nofun
  pending _ := rfl
  cap _ := Int.le_of_lt (by decide : (0 : Int) < VIDEO_INGRESS_MAX_BUFFERED_BYTES)

end PendingBalanced

end Server

end Parties

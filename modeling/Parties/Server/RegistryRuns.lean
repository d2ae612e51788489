import Parties.Server.Handlers
import Parties.Server.RegistryMoves

/-!
# The registry in runs of the server

Each handler acts on the registry by the operations of `Registry`, and every step but
the end of a departed session is a sequence of moves; the handlers of the video path do
not act on the registry at all. So the registry is in order in every state the server
reaches.
-/

namespace Parties

open Parties.Video

namespace Server

variable {s : Server}

/-! ### Changes elsewhere -/

/-- What the registry keeps of a session. -/
def SameEntry (session session' : Session) : Prop :=
  session.member = session'.member ∧ session.videoIngressAllowed = session'.videoIngressAllowed ∧
    (∀ source,
      (session.videoSources source).generation = (session'.videoSources source).generation) ∧
    session.subscribedSharers = session'.subscribedSharers

theorem SameEntry.refl (session : Session) : SameEntry session session :=
  ⟨rfl, rfl, fun _ => rfl, rfl⟩

/-- The sessions change in nothing the registry keeps. -/
theorem registry_sessions {sessions : SessionId → Session}
    (h : ∀ sid, SameEntry (sessions sid) (s.sessions sid)) :
    { s with sessions := sessions }.registry = s.registry := by
  simp only [registry, (h _).1, (h _).2.1, (h _).2.2.1, (h _).2.2.2]

theorem registry_modifySession {sid : SessionId} {f : Session → Session}
    (h : SameEntry (f (s.sessions sid)) (s.sessions sid)) :
    (s.modifySession sid f).registry = s.registry := by
  refine registry_sessions fun other => ?_
  by_cases hsid : other = sid
  · subst hsid
    rw [Function.update_self]
    exact h
  · rw [Function.update_of_ne hsid]
    exact .refl _

/-- A loop whose body leaves the registry alone. -/
theorem registry_foldl {α : Type} {f : Server → α → Server}
    (hf : ∀ s a, (f s a).registry = s.registry) (s : Server) (l : List α) :
    (l.foldl f s).registry = s.registry :=
  Machine.run_preserves (fun s' a hs' => (hf s' a).trans hs') (rfl : s.registry = s.registry) l

@[simp] theorem registry_sendTo (sid : SessionId) (message : ServerMessage) :
    (s.sendTo sid message).registry = s.registry := rfl

@[simp] theorem registry_sendToAll (picks : SessionId → Session → Bool) (message : ServerMessage) :
    (s.sendToAll picks message).registry = s.registry := rfl

@[simp] theorem registry_sendError (sid : SessionId) (text : String) (code : ServerErrorCode) :
    (s.sendError sid text code).registry = s.registry := rfl

@[simp] theorem registry_keyframeCall (c : KeyframeCall) :
    (s.keyframeCall c).registry = s.registry := rfl

@[simp] theorem registry_readClock : s.readClock.registry = s.registry := rfl

@[simp] theorem registry_modifyShareLog (stream : StreamId) (f : ShareLog → ShareLog) :
    (s.modifyShareLog stream f).registry = s.registry := rfl

@[simp] theorem registry_endShare (sid : SessionId) (source : VideoSource) :
    (s.endShare sid source).registry = s.registry := rfl

@[simp] theorem registry_endShares (sid : SessionId) :
    (s.endShares sid).registry = s.registry := rfl

@[simp] theorem sessionForUser_registry (user : UserId) :
    s.registry.sessionForUser user = s.sessionForUser user := rfl

/-! ### The video path -/

@[simp] theorem registry_requestKeyframeFromSharer (stream : StreamId) (requester : UserId) :
    (s.requestKeyframeFromSharer stream requester).registry = s.registry := rfl

@[simp] theorem registry_notifyViewerChange (stream : StreamId) (viewer : UserId)
    (watching : Bool) : (s.notifyViewerChange stream viewer watching).registry = s.registry := by
  unfold notifyViewerChange
  split
  · rfl
  · split
    · rfl
    · split
      · rfl
      · split <;> rfl

/-- A session changes in what it watches. -/
theorem registry_watched {sid : SessionId} {f : Session → Session}
    (hmember : (f (s.sessions sid)).member = (s.sessions sid).member)
    (hsources : (f (s.sessions sid)).videoSources = (s.sessions sid).videoSources) :
    (s.modifySession sid f).registry =
      s.registry.setWatched sid (f (s.sessions sid)).subscribedSharers := by
  simp only [registry, Registry.setWatched, modifySession]
  congr 1
  · funext other
    by_cases hsid : other = sid
    · subst hsid
      simp [hmember]
    · simp [hsid]
  · funext other source
    by_cases hsid : other = sid
    · subst hsid
      simp [Session.videoIngressAllowed, hsources]
    · simp [hsid]
  · funext other source
    by_cases hsid : other = sid
    · subst hsid
      simp [hsources]
    · simp [hsid]
  · funext other
    by_cases hsid : other = sid
    · subst hsid
      simp
    · simp [hsid]

@[simp] theorem registry_clearViewerSubscriptions (sid : SessionId) (notify : Bool) :
    (s.clearViewerSubscriptions sid notify).registry = s.registry.setWatched sid [] := by
  have hclear : (s.modifySession sid Session.unsubscribeAll).registry =
      s.registry.setWatched sid [] := registry_watched rfl rfl
  unfold clearViewerSubscriptions
  dsimp only
  split
  · exact hclear
  · rw [registry_foldl fun s stream => registry_notifyViewerChange _ _ _, hclear]

theorem SameEntry.trans {session session' session'' : Session} (h : SameEntry session session')
    (h' : SameEntry session' session'') : SameEntry session session'' :=
  ⟨h.1.trans h'.1, h.2.1.trans h'.2.1, fun source => (h.2.2.1 source).trans (h'.2.2.1 source),
    h.2.2.2.trans h'.2.2.2⟩

theorem SameEntry.offer (viewer : Session) (stream : StreamId) (hdr : VideoFrameHeader)
    (nowUs outstanding threshold : Int) (sent : Bool) :
    SameEntry (viewer.offer stream hdr nowUs outstanding threshold sent).1 viewer := by
  have hsend : ∀ viewer : Session, SameEntry (viewer.sendFrame stream hdr sent) viewer := by
    intro viewer
    unfold Session.sendFrame
    dsimp only
    split <;> split <;> exact ⟨rfl, rfl, fun _ => rfl, rfl⟩
  have hdrop : ∀ (viewer : Session) (was : Bool),
      SameEntry (viewer.dropFrame stream was) viewer := by
    intro viewer was
    unfold Session.dropFrame
    split <;> exact ⟨rfl, rfl, fun _ => rfl, rfl⟩
  unfold Session.offer
  dsimp only
  split
  · exact (hsend _).trans ⟨rfl, rfl, fun _ => rfl, rfl⟩
  · exact (hdrop _ _).trans ⟨rfl, rfl, fun _ => rfl, rfl⟩

@[simp] theorem registry_forwardVideoFrame (sid : SessionId) (source : VideoSource)
    (frame : ShareFrame) : (s.forwardVideoFrame sid source frame).registry = s.registry := by
  have hoffer : ∀ channel stream hdr, (s.offerAll sid channel stream hdr).registry =
      s.registry := by
    intro channel stream hdr
    refine registry_sessions fun other => ?_
    split
    · exact .offer ..
    · exact .refl _
  unfold forwardVideoFrame
  split
  · rfl
  · split
    · rfl
    · dsimp only
      split
      · rfl
      · split
        · rfl
        · split <;> simp [hoffer]

@[simp] theorem registry_onIngressEvents (stream : StreamId) (sid : SessionId)
    (source : VideoSource) (events : List (ReorderEvent ShareFrame)) :
    (onIngressEvents stream sid source s events).registry = s.registry := by
  induction events generalizing s with
  | nil => rfl
  | cons e events ih =>
      cases e with
      | deliver seq frame => simp [onIngressEvents, ih]
      | lost seq => simp [onIngressEvents, ih]

@[simp] theorem registry_putIngress (stream : StreamId) (ingress : VideoIngress)
    (outcome : VideoFrameReorderBuffer ShareFrame × List (ReorderEvent ShareFrame)) :
    (s.putIngress stream ingress outcome).registry = s.registry :=
  registry_onIngressEvents ..

@[simp] theorem registry_processIngressEvent (stream : StreamId) (ingress : VideoIngress)
    (event : IngressEvent) : (s.processIngressEvent stream ingress event).registry = s.registry := by
  unfold processIngressEvent
  split
  · simp
  · simp
  · dsimp only
    split <;> simp
  · split <;> simp

@[simp] theorem registry_dequeue (p : PendingVideoFrame) (rest : List PendingVideoFrame) :
    (s.dequeue p rest).registry = s.registry :=
  registry_modifySession (s := { s with videoIncoming := rest }) ⟨rfl, rfl, fun _ => rfl, rfl⟩

@[simp] theorem registry_processVideoFrame : s.processVideoFrame.registry = s.registry := by
  unfold processVideoFrame
  split
  · rfl
  · dsimp only
    split <;> simp

@[simp] theorem registry_pollIngress (stream : StreamId) :
    (s.pollIngress stream).registry = s.registry := by
  unfold pollIngress
  split
  · split
    · rfl
    · dsimp only
      split <;> simp
  · rfl

@[simp] theorem registry_sendDeferredKeyframeRequest (stream : StreamId) :
    (s.sendDeferredKeyframeRequest stream).registry = s.registry := by
  unfold sendDeferredKeyframeRequest
  split <;> rfl

@[simp] theorem registry_enqueueVideoFrame (sid : SessionId) (source : VideoSource)
    (frame : ShareFrame) : (s.enqueueVideoFrame sid source frame).registry = s.registry := by
  unfold enqueueVideoFrame
  split
  · rfl
  · split
    · rfl
    · dsimp only
      split
      · rfl
      · split
        · rfl
        · exact registry_modifySession ⟨rfl, rfl, fun _ => rfl, rfl⟩

@[simp] theorem registry_enqueueVideoEvent (sid : SessionId) (source : VideoSource)
    (event : IngressEvent) : (s.enqueueVideoEvent sid source event).registry = s.registry := by
  unfold enqueueVideoEvent
  split
  · rfl
  · split <;> rfl

@[simp] theorem registry_videoOutShutdown (sid : SessionId) (handle : Nat) :
    (s.videoOutShutdown sid handle).registry = s.registry :=
  registry_modifySession ⟨rfl, rfl, fun _ => rfl, rfl⟩

@[simp] theorem registry_handleVideoControl (sid : SessionId) (target : StreamId)
    (bucketAllows : Bool) : (s.handleVideoControl sid target bucketAllows).registry = s.registry := by
  have hgate : ∀ gate, (s.readClock.modifySession sid fun session =>
      session.setGate target gate).registry = s.registry :=
    fun gate => registry_modifySession ⟨rfl, rfl, fun _ => rfl, rfl⟩
  unfold handleVideoControl
  repeat' split
  all_goals first
    | rfl
    | exact hgate _

/-! ### Streams and departures -/

/-- Only the flag and the generation of one source of one session change. -/
theorem registry_modifySource (sid : SessionId) (source : VideoSource)
    (f : VideoSourceState → VideoSourceState) :
    (s.modifySession sid fun session => session.modifySource source f).registry =
      { s.registry with
        allowed := fun other source' => if other = sid ∧ source' = source then
            (f ((s.sessions sid).videoSources source)).ingressAllowed
          else s.registry.allowed other source'
        generation := fun other source' => if other = sid ∧ source' = source then
            (f ((s.sessions sid).videoSources source)).generation
          else s.registry.generation other source' } := by
  have hmember : ∀ other, (((s.modifySession sid fun session =>
      session.modifySource source f).sessions other).member) = (s.sessions other).member := by
    intro other
    by_cases hsid : other = sid
    · subst hsid
      simp [modifySession, Session.modifySource, Session.member]
    · simp [modifySession, hsid]
  have hstate : ∀ other source', ((s.modifySession sid fun session =>
      session.modifySource source f).sessions other).videoSources source' =
        if other = sid ∧ source' = source then f ((s.sessions sid).videoSources source)
        else (s.sessions other).videoSources source' := by
    intro other source'
    by_cases hsid : other = sid
    · subst hsid
      by_cases hsource : source' = source
      · subst hsource
        simp [modifySession, Session.modifySource]
      · simp [modifySession, Session.modifySource, hsource]
    · simp [modifySession, hsid]
  have hwatched : ∀ other, ((s.modifySession sid fun session =>
      session.modifySource source f).sessions other).subscribedSharers =
        (s.sessions other).subscribedSharers := by
    intro other
    by_cases hsid : other = sid
    · subst hsid
      simp [modifySession, Session.modifySource]
    · simp [modifySession, hsid]
  simp only [registry, hmember, hwatched]
  congr 1
  · funext other source'
    simp only [Session.videoIngressAllowed, hstate]
    split <;> rfl
  · funext other source'
    simp only [hstate]
    split <;> rfl

theorem registry_unpublish {channel : ChannelId} {user : UserId} {source : VideoSource}
    (hlisted : videoStreamId user source ∈ s.channelVideoStreams channel) :
    (s.unpublish channel user source).registry = s.registry.stop channel user source := by
  have hunsubscribe : ∀ (s : Server) (stream : StreamId),
      (s.modifySessions fun session => session.unsubscribe stream).registry = { s.registry with
        watched := fun sid => if sid ∈ s.sessionTable then
            (s.registry.watched sid).filter (· ≠ stream)
          else s.registry.watched sid } := by
    intro s stream
    simp only [registry, modifySessions]
    congr 1 <;> funext sid <;> split <;> rfl
  have hstops : ∀ sid source', s.registry.stops channel user source sid source' =
      decide (s.sessionForUser user = some sid ∧ source' = source) := by
    intro sid source'
    rw [Bool.eq_iff_iff, Registry.stops_eq_true, decide_eq_true_iff]
    exact and_iff_right hlisted
  unfold unpublish
  dsimp only
  simp only [registry_sendToAll, registry_keyframeCall, hunsubscribe]
  unfold Registry.stop
  simp only [hstops]
  rw [show sessionForUser { s with
    channelVideoStreams := Function.update s.channelVideoStreams channel
      ((s.channelVideoStreams channel).filter (· ≠ videoStreamId user source)) } user =
      s.sessionForUser user from rfl]
  cases hsession : s.sessionForUser user with
  | none => simp [registry, hlisted]
  | some sharer =>
      dsimp only
      rw [registry_modifySource]
      simp only [registry]
      congr 1
      · funext other source'
        by_cases hsid : other = sharer
        · subst hsid
          by_cases hsource : source' = source <;> simp [hsource]
        · simp [hsid, Ne.symm hsid]
      · funext other source'
        by_cases hsid : other = sharer
        · subst hsid
          by_cases hsource : source' = source <;> simp [hsource]
        · simp [hsid, Ne.symm hsid]
      · funext other
        simp [modifySession, hlisted]

@[simp] theorem registry_stopVideoStream (channel : ChannelId) (user : UserId)
    (source : VideoSource) :
    (s.stopVideoStream channel user source).registry = s.registry.stop channel user source := by
  unfold stopVideoStream
  dsimp only
  split
  next hnot =>
    -- nothing is listed, so nothing stops
    have hstops : ∀ sid source', s.registry.stops channel user source sid source' = false := by
      intro sid source'
      have hnot' : videoStreamId user source ∉ s.registry.listed channel := hnot
      simp [Registry.stops, hnot']
    have hfilter : (s.channelVideoStreams channel).filter (· ≠ videoStreamId user source) =
        s.channelVideoStreams channel := by
      refine List.filter_eq_self.mpr fun stream hin => decide_eq_true ?_
      rintro rfl
      exact hnot hin
    simp only [Registry.stop, hstops]
    rw [show s.registry.listed = s.channelVideoStreams from rfl, hfilter, Function.update_eq_self]
    simp [registry, hnot]
  next hlisted =>
    exact registry_unpublish (s := { s with
      videoIngress := Function.update s.videoIngress (videoStreamId user source) none })
      (not_not.mp hlisted)

@[simp] theorem registry_stopAllVideoStreams (channel : ChannelId) (user : UserId) :
    (s.stopAllVideoStreams channel user).registry = s.registry.stopAll channel user := by
  simp [stopAllVideoStreams, Registry.stopAll]

@[simp] theorem registry_announceVideoStream (viewer : SessionId) (stream : StreamId)
    (publisher : SessionId) (replay : Bool) :
    (s.announceVideoStream viewer stream publisher replay).registry = s.registry := by
  unfold announceVideoStream
  split
  · rfl
  · split <;> rfl

@[simp] theorem registry_forgetSession (sid : SessionId) (user : UserId) :
    (s.forgetSession sid user).registry = s.registry.forget sid user := by
  have hindex : (if s.userSessions user = some sid then
      { s with userSessions := Function.update s.userSessions user none } else s) =
      { s with
        userSessions := if s.userSessions user = some sid then
            Function.update s.userSessions user none
          else s.userSessions } := by
    split <;> rfl
  unfold forgetSession
  dsimp only
  rw [hindex]
  dsimp only
  split
  next hnot =>
    -- it was not signed in: no flag is cleared
    have hmark : s.authedSessions sid = false := by simpa using hnot
    have hauthed : Function.update s.authedSessions sid false = s.authedSessions := by
      rw [← hmark, Function.update_eq_self]
    simp only [registry, Registry.forget, hauthed, hmark, Bool.and_false, Bool.not_false,
      Bool.and_true]
    congr
  next hmark =>
    have hmark' : s.authedSessions sid = true := by simpa using hmark
    simp only [registry, Registry.forget, modifySession]
    congr 1
    · funext other
      by_cases hsid : other = sid
      · subst hsid
        simp [Session.member]
      · simp [hsid]
    · funext other source
      by_cases hsid : other = sid
      · subst hsid
        simp [Session.videoIngressAllowed, hmark']
      · simp [hsid]
    · funext other source
      by_cases hsid : other = sid
      · subst hsid
        simp
      · simp [hsid]
    · funext other
      by_cases hsid : other = sid
      · subst hsid
        simp
      · simp [hsid]

@[simp] theorem registry_processDisconnect (sid : SessionId) (user : UserId) (channel : ChannelId) :
    (s.processDisconnect sid user channel).registry =
      s.registry.processDisconnect sid user channel := by
  have hrejoined : (s.forgetSession sid user).rejoined sid user channel =
      (s.registry.forget sid user).rejoined sid user channel := by
    rw [← registry_forgetSession]
    rfl
  have hauthed : s.registry.authed sid = s.authedSessions sid := rfl
  unfold processDisconnect Registry.processDisconnect Registry.endSession
  dsimp only
  rw [hrejoined, hauthed]
  by_cases hzero : channel = 0
  · simp [hzero]
  · by_cases hback : (s.registry.forget sid user).rejoined sid user channel = true
    · simp only [hzero, hback, if_true, if_false, or_true]
      by_cases hknown : s.authedSessions sid = true
      · simp only [hknown, ne_eq, hzero, not_false_eq_true, and_self, if_true]
        simp [Registry.setWatched]
      · simp [hknown]
    · simp only [hzero, hback, if_false, or_false, Bool.false_eq_true]
      by_cases hknown : s.authedSessions sid = true
      · simp only [hknown, ne_eq, hzero, not_false_eq_true, and_self, if_true]
        simp [Registry.setWatched]
      · simp [hknown]

/-! ### Connections and logins -/

@[simp] theorem registry_onNewConnection : s.onNewConnection.registry = s.registry.connect := by
  simp only [registry, onNewConnection, Registry.connect]
  congr 1
  · funext sid
    by_cases hsid : sid = s.nextSessionId
    · subst hsid
      simp
    · simp [hsid]
  · funext sid
    by_cases hsid : sid = s.nextSessionId
    · subst hsid
      funext source
      simp [Session.videoIngressAllowed]
    · simp [hsid]
  · funext sid source
    by_cases hsid : sid = s.nextSessionId
    · subst hsid
      simp
    · simp [hsid]
  · funext sid
    by_cases hsid : sid = s.nextSessionId
    · subst hsid
      simp
    · simp [hsid]

/-- A change of who a session is. -/
theorem registry_modifyMember {sid : SessionId} {f : Session → Session} {g : Member → Member}
    (hmember : (f (s.sessions sid)).member = g (s.sessions sid).member)
    (hsources : (f (s.sessions sid)).videoSources = (s.sessions sid).videoSources)
    (hwatched : (f (s.sessions sid)).subscribedSharers = (s.sessions sid).subscribedSharers) :
    (s.modifySession sid f).registry = s.registry.modify sid g := by
  simp only [registry, Registry.modify, modifySession]
  congr 1
  · funext other
    by_cases hsid : other = sid
    · subst hsid
      simp [hmember]
    · simp [hsid]
  · funext other source
    by_cases hsid : other = sid
    · subst hsid
      simp [Session.videoIngressAllowed, hsources]
    · simp [hsid]
  · funext other source
    by_cases hsid : other = sid
    · subst hsid
      simp [hsources]
    · simp [hsid]
  · funext other
    by_cases hsid : other = sid
    · subst hsid
      simp [hwatched]
    · simp [hsid]

theorem registry_disconnect {sid : SessionId} (hin : sid ∈ s.sessionTable) :
    (s.disconnect sid).registry = s.registry.retire sid := by
  unfold disconnect getSession
  rw [if_pos hin]
  exact registry_modifyMember (s := s.endShares sid) rfl rfl rfl

theorem registry_onShutdownComplete {sid : SessionId} (hin : sid ∈ s.sessionTable) :
    (s.onShutdownComplete sid).registry = s.registry.depart sid := by
  have hretire : ((s.endShares sid).modifySession sid fun session =>
      { session with alive := false }).registry = s.registry.retire sid :=
    registry_modifyMember (s := s.endShares sid) rfl rfl rfl
  unfold onShutdownComplete getSession
  rw [if_pos hin]
  dsimp only
  unfold Registry.depart
  rw [← hretire]
  rfl

theorem registry_kickDuplicate {sid : SessionId} (hin : sid ∈ s.sessionTable) :
    (s.kickDuplicate sid).registry = s.registry.replace sid := by
  have hended : (((s.sendError sid "Signed in from another location" .replaced).endShares
      sid).processDisconnect sid (s.sessions sid).userId (s.sessions sid).channelId).registry =
      s.registry.processDisconnect sid (s.sessions sid).userId (s.sessions sid).channelId := by
    rw [registry_processDisconnect]
    rfl
  unfold kickDuplicate
  dsimp only
  rw [registry_disconnect]
  · rw [registry_modifyMember (g := fun member =>
      { member with channelId := 0, authenticated := false }) rfl rfl rfl, hended]
    simp only [Registry.retire, Registry.replace, Registry.modify, Function.update_idem,
      Function.update_self]
    rfl
  · -- the session is still in the table
    have htable := congrArg Registry.table hended
    rw [(Registry.processDisconnect_frame ..).1] at htable
    exact (congrArg (sid ∈ ·) htable).mpr hin

@[simp] theorem registry_signIn (sid : SessionId) (auth : AuthIdentity) (user : UserRow) :
    (s.signIn sid auth user).registry =
      s.registry.signIn sid user.id auth.publicKey user.role := by
  have hmember : (s.modifySession sid fun session =>
      { session with
        authenticated := true
        userId := user.id
        username := user.displayName
        role := user.role
        publicKey := auth.publicKey
        protocolVersion := auth.version }).registry = s.registry.modify sid fun member =>
          { member with
            authenticated := true
            userId := user.id
            publicKey := auth.publicKey
            role := user.role } :=
    registry_modifyMember rfl rfl rfl
  unfold Registry.signIn
  rw [← hmember]
  rfl

@[simp] theorem registry_setLiveRole (target : UserId) (newRole : Role) :
    (s.setLiveRole target newRole).registry = s.registry.setRole target newRole false := by
  have hmember : ∀ sid, ((s.setLiveRole target newRole).sessions sid).member =
      (s.registry.setRole target newRole false).members sid := by
    intro sid
    simp only [setLiveRole, modifySessions, Registry.setRole]
    by_cases hin : sid ∈ s.sessionTable
    · by_cases huser : (s.sessions sid).userId = target <;>
        simp [hin, huser, registry, Session.member]
    · simp [hin, registry, Session.member]
  have hsources : ∀ sid, ((s.setLiveRole target newRole).sessions sid).videoSources =
      (s.sessions sid).videoSources := by
    intro sid
    simp only [setLiveRole, modifySessions]
    split
    · split <;> rfl
    · rfl
  have hallowed : ∀ sid, ((s.setLiveRole target newRole).sessions sid).videoIngressAllowed =
      (s.sessions sid).videoIngressAllowed := by
    intro sid
    funext source
    simp only [Session.videoIngressAllowed, hsources]
  have hwatched : ∀ sid, ((s.setLiveRole target newRole).sessions sid).subscribedSharers =
      (s.sessions sid).subscribedSharers := by
    intro sid
    simp only [setLiveRole, modifySessions]
    split
    · split <;> rfl
    · rfl
  have hreg : (s.setLiveRole target newRole).registry = { s.registry with
      members := fun sid => ((s.setLiveRole target newRole).sessions sid).member
      allowed := fun sid => ((s.setLiveRole target newRole).sessions sid).videoIngressAllowed
      generation := fun sid source =>
        (((s.setLiveRole target newRole).sessions sid).videoSources source).generation
      watched := fun sid =>
        ((s.setLiveRole target newRole).sessions sid).subscribedSharers } := rfl
  rw [hreg]
  simp only [hmember, hallowed, hsources, hwatched]
  rfl

/-! ### Channels and shares -/

@[simp] theorem registry_leaveChannel (sid : SessionId) :
    (s.leaveChannel sid).registry = s.registry.leave sid := by
  unfold leaveChannel
  dsimp only
  rw [registry_sendToAll, registry_modifyMember (g := fun member =>
    { member with channelId := 0 }) rfl rfl rfl, registry_clearViewerSubscriptions,
    registry_stopAllVideoStreams, registry_endShares]
  rfl

@[simp] theorem registry_replayStreams (sid : SessionId) (channel : ChannelId) :
    (s.replayStreams sid channel).registry = s.registry := by
  refine registry_foldl (fun s stream => ?_) s _
  split
  · rfl
  · split
    · simp
    · rfl

@[simp] theorem registry_setSourceInfo (sid : SessionId) (source : VideoSource) (codec : BitVec 8)
    (width height : BitVec 16) :
    (s.setSourceInfo sid source codec width height).registry = s.registry := by
  refine registry_modifySession ⟨rfl, ?_, fun source' => ?_, rfl⟩
  · funext source'
    by_cases hsource : source' = source
    · subst hsource
      simp [Session.videoIngressAllowed, Session.modifySource]
    · simp [Session.videoIngressAllowed, Session.modifySource, hsource]
  · by_cases hsource : source' = source
    · subst hsource
      simp [Session.modifySource]
    · simp [Session.modifySource, hsource]

@[simp] theorem registry_publish (sid : SessionId) (source : VideoSource) :
    (s.publish sid source).registry = s.registry.publish sid source := by
  unfold publish
  dsimp only
  rw [registry_modifySource]
  simp only [registry, Registry.publish]
  congr 1
  · funext other source'
    by_cases hsid : other = sid
    · subst hsid
      by_cases hsource : source' = source <;> simp [hsource]
    · simp [hsid]
  · funext other source'
    split
    next hthis =>
      rw [hthis.1, hthis.2]
    · rfl

/-! ### Handlers are sequences of moves -/

open Registry (Moves)

variable {o : Occasion}

/-- What a login finds or stores: the user is known, under the role they sign in with. -/
theorem moves_loginUser {auth : AuthIdentity} {user : UserRow} {db : Database}
    (hlogin : s.loginUser auth o.dbOk = some (user, db))
    (hroot : s.config.publicKeyFingerprint auth.publicKey ∈ s.config.rootFingerprints →
      o.root = true) :
    Moves o s.registry { s with db := db }.registry ∧ db.Knows user.id auth.publicKey ∧
      (o.dbOk = true → ∃ row ∈ db.users, row.id = user.id ∧ row.role = user.role) := by
  have hnot : o.root = false →
      s.config.publicKeyFingerprint auth.publicKey ∉ s.config.rootFingerprints := by
    intro hroot' hin
    rw [hroot hin] at hroot'
    cases hroot'
  unfold loginUser at hlogin
  dsimp only at hlogin
  cases hfind : s.db.getUserByPubkey auth.publicKey with
  | none =>
      rw [hfind] at hlogin
      dsimp only at hlogin
      split at hlogin
      · cases hlogin
      · obtain ⟨created, hcreate, hlogin⟩ := Option.bind_eq_some_iff.mp hlogin
        obtain ⟨row, hrow, hlogin⟩ := Option.bind_eq_some_iff.mp hlogin
        obtain ⟨rfl, rfl⟩ := Prod.mk.inj (Option.some.inj hlogin)
        obtain ⟨hin, hkey⟩ := Database.getUserByPubkey_mem hrow
        refine ⟨Registry.Move.moves ?_, ⟨row, hin, rfl, hkey⟩, fun _ => ⟨row, hin, rfl, rfl⟩⟩
        refine .register auth.publicKey auth.displayName _ created hfind hcreate fun hroot' => ?_
        rw [if_neg (hnot hroot')]
  | some row =>
      rw [hfind] at hlogin
      obtain ⟨rfl, rfl⟩ := Prod.mk.inj (Option.some.inj hlogin)
      obtain ⟨hin, hkey⟩ := Database.getUserByPubkey_mem hfind
      have hknown : s.db.Knows row.id auth.publicKey := ⟨row, hin, rfl, hkey⟩
      split
      · generalize huser : ({ row with
          displayName := auth.displayName
          role := if s.config.publicKeyFingerprint auth.publicKey ∈ s.config.rootFingerprints
            then Role.OWNER else row.role } : UserRow) = user
        have hid : user.id = row.id := by rw [← huser]
        have hkey' : user.publicKey = row.publicKey := by rw [← huser]
        have hstored : user ∈ (s.db.updateUser user.id fun _ => user).users := by
          refine List.mem_map.mpr ⟨row, hin, ?_⟩
          rw [if_pos hid.symm]
        have hmove : Registry.Move o s.registry
            { s.registry with db := s.db.updateUser user.id fun _ => user } := by
          refine .restore row user hin hid hkey' fun hroot' => ?_
          rw [← huser]
          exact if_neg (hnot hroot')
        rw [← hid]
        exact ⟨hmove.moves, ⟨user, hstored, rfl, hkey'.trans hkey⟩,
          fun _ => ⟨user, hstored, rfl, rfl⟩⟩
      next hfailed =>
        exact ⟨.refl, hknown, fun hok => absurd hok hfailed⟩

/-- The loop body of `kick_duplicates`. -/
theorem kickDuplicates_body (sid : SessionId) (key : PublicKey) {other : SessionId}
    (hin : other ∈ s.registry.table) :
    let s' := if other ≠ sid ∧ (s.sessions other).authenticated ∧ (s.sessions other).publicKey = key
      then s.kickDuplicate other else s
    Moves o s.registry s'.registry ∧ s'.registry.table = s.registry.table ∧
      s'.registry.db = s.registry.db ∧ s'.registry.members sid = s.registry.members sid ∧
      (∀ sid', (s'.registry.members sid').authenticated = true →
        s'.registry.members sid' = s.registry.members sid') ∧
      (other ≠ sid → (s'.registry.members other).authenticated = true →
        (s'.registry.members other).publicKey ≠ key) := by
  dsimp only
  split
  next hkick =>
    obtain ⟨hne, hauth, _⟩ := hkick
    rw [registry_kickDuplicate hin]
    obtain ⟨htable, hmembers, _, hdb⟩ := Registry.processDisconnect_frame s.registry other
      (s.registry.members other).userId (s.registry.members other).channelId
    have hself : ((s.registry.replace other).members other).authenticated = false := by
      simp [Registry.replace, Registry.modify]
    have hothers : ∀ sid', sid' ≠ other →
        (s.registry.replace other).members sid' = s.registry.members sid' := by
      intro sid' hsid
      simp only [Registry.replace, Registry.modify, Function.update_of_ne hsid, hmembers]
    refine ⟨Registry.Move.moves (.replace other hin hauth), htable, hdb, hothers sid hne.symm,
      fun sid' hauth' => ?_, fun _ hauth' => ?_⟩
    · refine hothers sid' ?_
      rintro rfl
      exact absurd (hself.symm.trans hauth') (by simp)
    · exact absurd (hself.symm.trans hauth') (by simp)
  next hnot =>
    exact ⟨.refl, rfl, rfl, rfl, fun _ _ => rfl, fun hne hauth hkey => hnot ⟨hne, hauth, hkey⟩⟩

/-- The older sessions of an identity end; nobody else changes. -/
theorem kickDuplicates_loop (sid : SessionId) (key : PublicKey) (l : List SessionId)
    (hl : ∀ other ∈ l, other ∈ s.registry.table) :
    let s' := l.foldl (fun s other =>
      if other ≠ sid ∧ (s.sessions other).authenticated ∧ (s.sessions other).publicKey = key then
        s.kickDuplicate other
      else s) s
    Moves o s.registry s'.registry ∧ s'.registry.table = s.registry.table ∧
      s'.registry.db = s.registry.db ∧ s'.registry.members sid = s.registry.members sid ∧
      (∀ other, (s'.registry.members other).authenticated = true →
        s'.registry.members other = s.registry.members other) ∧
      ∀ other ∈ l, other ≠ sid → (s'.registry.members other).authenticated = true →
        (s'.registry.members other).publicKey ≠ key := by
  induction l generalizing s with
  | nil => exact ⟨.refl, rfl, rfl, rfl, fun _ _ => rfl, fun _ hin => by cases hin⟩
  | cons other l ih =>
      obtain ⟨hmoves, htable, hdb, hself, hsame, hgone⟩ :=
        kickDuplicates_body (o := o) sid key (hl other (by simp))
      obtain ⟨hmoves', htable', hdb', hself', hsame', hgone'⟩ :=
        ih fun other' hin => by
          rw [htable]
          exact hl other' (by simp [hin])
      refine ⟨hmoves.trans hmoves', htable'.trans htable, hdb'.trans hdb, hself'.trans hself,
        fun other' hauth => ?_, fun other' hin hne hauth => ?_⟩
      · have hbefore := hsame' other' hauth
        exact hbefore.trans (hsame other' (hbefore ▸ hauth))
      · rcases List.mem_cons.mp hin with rfl | hin
        · have hbefore := hsame' other' hauth
          rw [List.foldl_cons, hbefore]
          rw [List.foldl_cons, hbefore] at hauth
          exact hgone hne hauth
        · exact hgone' other' hin hne hauth

/-- The freshness check of `AUTH_IDENTITY`. -/
def Fresh (auth : AuthIdentity) (nowS : BitVec 64) : Prop :=
  nowS.toInt - auth.timestamp.toInt ≤ AUTH_WINDOW_SEC ∧
    -AUTH_WINDOW_SEC ≤ nowS.toInt - auth.timestamp.toInt

instance (auth : AuthIdentity) (nowS : BitVec 64) : Decidable (Fresh auth nowS) :=
  inferInstanceAs (Decidable (_ ∧ _))

theorem fresh_of_checkFresh {auth : AuthIdentity} {nowS : BitVec 64}
    (h : checkFresh auth nowS = .ok ()) : Fresh auth nowS := by
  unfold checkFresh at h
  split at h
  · cases h
  · dsimp only at h
    split at h
    · cases h
    next hin =>
      unfold Fresh
      omega

theorem newer_of_checkIdentity {auth : AuthIdentity} (h : s.checkIdentity auth = .ok ())
    {seen : BitVec 64}
    (hseen : s.recentAuth (s.config.publicKeyFingerprint auth.publicKey) = some seen) :
    seen < auth.timestamp := by
  by_contra hnot
  have hstale : (s.recentAuth (s.config.publicKeyFingerprint auth.publicKey)).any
      (auth.timestamp ≤ ·) = true := by
    rw [hseen]
    exact decide_eq_true (BitVec.not_lt.mp hnot)
  unfold checkIdentity at h
  dsimp only at h
  rw [if_pos hstale] at h
  cases h

/-- A session signs in as the user of its key, in place of the older ones. -/
theorem moves_signIn {sid : SessionId} (hnow : o.now ≠ none) (hin : sid ∈ s.registry.table)
    (hout : (s.registry.members sid).authenticated = false) {auth : AuthIdentity} {user : UserRow}
    {db : Database} (hlogin : s.loginUser auth o.dbOk = some (user, db))
    (hroot : s.config.publicKeyFingerprint auth.publicKey ∈ s.config.rootFingerprints →
      o.root = true) :
    Moves o s.registry
      (({ s with db := db }.kickDuplicates sid auth.publicKey).signIn sid auth user).registry := by
  obtain ⟨hstored, hknown, hrole⟩ := moves_loginUser hlogin hroot
  obtain ⟨hkicked, htable, hdb, hself, _, honly⟩ :=
    kickDuplicates_loop (o := o) (s := { s with db := db }) sid auth.publicKey s.sessionTable
      fun _ => id
  change Moves o _ (kickDuplicates { s with db := db } sid auth.publicKey).registry at hkicked
  change (kickDuplicates { s with db := db } sid auth.publicKey).registry.table = _ at htable
  change (kickDuplicates { s with db := db } sid auth.publicKey).registry.db = _ at hdb
  change (kickDuplicates { s with db := db } sid auth.publicKey).registry.members sid = _ at hself
  rw [registry_signIn]
  refine hstored.trans (hkicked.trans (Registry.Move.moves ?_))
  refine .signIn sid user.id auth.publicKey user.role hnow ?_ ?_ ?_ ?_ ?_
  · rw [htable]
    exact hin
  · rw [hself]
    exact hout
  · rw [hdb]
    exact hknown
  · intro other hother hne
    rw [htable] at hother
    exact honly other hother hne
  · rw [hdb]
    exact hrole

/-- A login passes all checks. -/
def AcceptsLogin (s : Server) (sid : SessionId) (auth : AuthIdentity) (nowS : BitVec 64) : Prop :=
  sid ∈ s.sessionTable ∧ (s.sessions sid).authenticated = false ∧ checkFresh auth nowS = .ok () ∧
    (s.pruneRecentAuth nowS).checkIdentity auth = .ok ()

instance (sid : SessionId) (auth : AuthIdentity) (nowS : BitVec 64) :
    Decidable (s.AcceptsLogin sid auth nowS) :=
  inferInstanceAs (Decidable (_ ∧ _ ∧ _ ∧ _))

theorem moves_authIdentity {sid : SessionId} (hin : sid ∈ s.registry.table) (auth : AuthIdentity)
    {nowS : BitVec 64} (hnow : o.now = some nowS)
    (hearly : o.early = false → Fresh auth nowS → 0 ≤ auth.timestamp.toInt)
    (hroot : s.AcceptsLogin sid auth nowS →
      s.config.publicKeyFingerprint auth.publicKey ∈ s.config.rootFingerprints → o.root = true) :
    Moves o s.registry (s.authIdentity sid auth nowS o.dbOk).registry := by
  unfold authIdentity
  split
  · exact .refl
  next hout =>
    split
    · exact .refl
    next hok =>
      have hfresh := fresh_of_checkFresh hok
      have hpruned : Moves o s.registry (s.pruneRecentAuth nowS).registry :=
        Registry.Move.moves (.prune nowS hnow)
      dsimp only
      split
      · exact hpruned
      next hidentity =>
        have hentries : ∀ fp seen, (s.pruneRecentAuth nowS).recentAuth fp = some seen →
            nowS.toInt - seen.toInt ≤ AUTH_WINDOW_SEC := by
          intro fp seen hseen
          simpa using (Option.filter_eq_some_iff.mp hseen).2
        have haccepted : Moves o (s.pruneRecentAuth nowS).registry
            ((s.pruneRecentAuth nowS).registry.acceptAuth auth.publicKey auth.timestamp) :=
          Registry.Move.moves (.accept nowS auth.publicKey auth.timestamp hnow hfresh.1
            (fun hnot => hearly hnot hfresh) hentries fun seen => newer_of_checkIdentity hidentity)
        have hlogged := hpruned.trans haccepted
        unfold acceptIdentity
        dsimp only
        split
        · exact hlogged
        next user db hlogin =>
          refine hlogged.trans (moves_signIn (s := { s.pruneRecentAuth nowS with
            recentAuth := Function.update (s.pruneRecentAuth nowS).recentAuth
              ((s.pruneRecentAuth nowS).config.publicKeyFingerprint auth.publicKey)
              (some auth.timestamp)
            acceptedAuths := (s.pruneRecentAuth nowS).acceptedAuths ++
              [(auth.publicKey, auth.timestamp)] }) (by simp [hnow]) hin ?_ hlogin
            (hroot ⟨hin, Bool.eq_false_iff.mpr hout, hok, hidentity⟩))
          exact Bool.eq_false_iff.mpr hout

/-! ### Channels -/

theorem length_channelUsers (channel : ChannelId) :
    (s.channelUsers channel).length = s.registry.population channel := by
  unfold channelUsers Registry.population
  rw [show s.registry.table = s.sessionTable from rfl]
  induction s.sessionTable with
  | nil => rfl
  | cons sid table ih =>
      have hsame : ((s.registry.members sid).authenticated &&
          decide ((s.registry.members sid).channelId = channel)) =
          ((s.sessions sid).authenticated && decide ((s.sessions sid).channelId = channel)) := rfl
      rw [List.map_cons, List.filterMap_cons, List.filter_cons, hsame]
      split
      next hnone =>
        rw [ih, if_neg]
        intro hthere
        rw [if_pos hthere] at hnone
        cases hnone
      next hsome =>
        have hthere : ((s.sessions sid).authenticated &&
            decide ((s.sessions sid).channelId = channel)) = true := by
          by_contra hnot
          rw [if_neg hnot] at hsome
          cases hsome
        rw [if_pos hthere, List.length_cons, List.length_cons, ih]

/-- A join is let in where there is room. -/
theorem room_of_checkJoin {sid : SessionId} {channel : ChannelId}
    (h : s.checkJoin sid channel = .ok ()) :
    ∃ row, s.db.getChannel channel = some row ∧ ¬ s.registry.Full row := by
  unfold checkJoin at h
  cases hrow : s.db.getChannel channel with
  | none =>
      rw [hrow] at h
      cases h
  | some row =>
      obtain ⟨_, hid⟩ := Database.getChannel_mem hrow
      refine ⟨row, rfl, fun hfull => ?_⟩
      have hfull' : 0 < (if 0 < row.maxUsers then row.maxUsers else s.config.maxUsersPerChannel) ∧
          (if 0 < row.maxUsers then row.maxUsers else s.config.maxUsersPerChannel) ≤
            (s.channelUsers channel).length := by
        rw [length_channelUsers, ← hid]
        exact hfull
      rw [hrow] at h
      dsimp only at h
      rw [if_pos hfull'] at h
      split at h
      · cases h
      · cases h

/-- Leaving a channel frees no place in another one. -/
theorem population_leave {r : Registry} {sid : SessionId} {channel : ChannelId}
    (hother : (r.members sid).channelId ≠ channel) (hzero : channel ≠ 0) :
    (r.leave sid).population channel = r.population channel := by
  have hmembers : ∀ other, ((r.leave sid).members other).authenticated =
      (r.members other).authenticated ∧
        (((r.leave sid).members other).channelId = channel ↔
          (r.members other).channelId = channel) := by
    intro other
    by_cases hsid : other = sid
    · subst hsid
      rw [Registry.members_leave_self]
      exact ⟨rfl, fun hoff => absurd hoff.symm hzero, fun hin => absurd hin hother⟩
    · rw [Registry.members_leave_of_ne hsid]
      exact ⟨rfl, Iff.rfl⟩
  unfold Registry.population
  rw [show (r.leave sid).table = r.table from rfl]
  congr 1
  apply List.filter_congr
  intro other _
  rw [(hmembers other).1, decide_eq_decide.mpr (hmembers other).2]

theorem moves_channelJoin (h : s.registry.InOrder) {sid : SessionId}
    (hin : sid ∈ s.registry.table) (channel : ChannelId) (voiceState : Option (Bool × Bool)) :
    Moves o s.registry (s.channelJoin sid channel voiceState).registry := by
  unfold channelJoin
  split
  · exact .refl
  next hauth =>
    have hauth' : (s.registry.members sid).authenticated = true :=
      show (s.sessions sid).authenticated = true by simpa using hauth
    split
    · exact .refl
    next hjoin =>
      obtain ⟨row, hrow, hroom⟩ := room_of_checkJoin hjoin
      obtain ⟨hstored, rfl⟩ := Database.getChannel_mem hrow
      have hzero := (h.consistent.db.channels row hstored).1
      dsimp only
      rw [registry_sendToAll, registry_replayStreams, registry_sendTo]
      have hmove : ∀ s : Server, (s.modifySession sid fun session =>
          session.enter row.id voiceState).registry = s.registry.setChannel sid row.id :=
        fun s => registry_modifyMember (by cases voiceState <;> rfl) (by cases voiceState <;> rfl)
          (by cases voiceState <;> rfl)
      rw [hmove]
      split
      next hold =>
        -- from another channel
        rw [registry_leaveChannel]
        refine (Registry.Move.moves (.leave sid hin hauth')).trans (Registry.Move.moves ?_)
        have hmarked := h.marked sid hin hauth'
        refine .enter sid row.id row hin ?_ (h.consistent.allowed_stopAll hin hmarked) ?_ hrow ?_
        · rw [Registry.members_leave_self]
          exact hauth'
        · rw [Registry.members_leave_self]
        · intro hfull
          apply hroom
          refine ⟨hfull.1, ?_⟩
          rw [← population_leave hold.2 hzero]
          exact hfull.2
      next hnot =>
        by_cases hold : (s.registry.members sid).channelId = row.id
        · have hsame : s.registry.setChannel sid row.id = s.registry := by
            simp [Registry.setChannel, Registry.modify, ← hold]
          rw [hsame]
          exact .refl
        · -- from no channel
          have hoff : (s.registry.members sid).channelId = 0 := by
            by_contra hne
            exact hnot ⟨hne, hold⟩
          refine Registry.Move.moves (.enter sid row.id row hin hauth' ?_ hoff hrow hroom)
          intro source
          by_contra hallowed
          exact (h.consistent.published sid hin source (by simpa using hallowed)).1 hoff

theorem moves_channelLeave {sid : SessionId} (hin : sid ∈ s.registry.table) :
    Moves o s.registry (s.channelLeave sid).registry := by
  unfold channelLeave
  split
  · exact .refl
  next hauth =>
    rw [registry_leaveChannel]
    simp only [Bool.or_eq_true, not_or] at hauth
    exact Registry.Move.moves
      (.leave sid hin (show (s.sessions sid).authenticated = true by simpa using hauth.1))

/-! ### Administration -/

theorem moves_adminCreateChannel (sid : SessionId) (name : String) (maxUsers : Int)
    (dbOk : Bool) :
    Moves o s.registry (s.adminCreateChannel sid name maxUsers dbOk).registry := by
  unfold adminCreateChannel
  split
  · exact .refl
  · split
    · exact .refl
    · split
      · exact .refl
      · split
        · exact .refl
        next db hcreate =>
          rw [registry_sendTo]
          split at hcreate
          · exact Registry.Move.moves (.createChannel name maxUsers db hcreate)
          · cases hcreate

theorem setRole_of_checkSetRole {role : Role} {target : UserId} {newRole : Role}
    (h : s.checkSetRole role target newRole = .ok ()) :
    newRole ≠ Role.OWNER ∧ (role ≠ Role.OWNER → role < newRole) ∧
      ∃ user, s.db.getUserById target = some user ∧ canModerate role user.role = true := by
  have hnot : newRole ≠ Role.OWNER := by
    intro heq
    unfold checkSetRole at h
    dsimp only at h
    rw [if_pos heq] at h
    cases h
  have hbelow : ¬ (newRole ≤ role ∧ role ≠ Role.OWNER) := by
    intro habove
    unfold checkSetRole at h
    dsimp only at h
    rw [if_neg hnot, if_pos habove] at h
    cases h
  unfold checkSetRole at h
  dsimp only at h
  rw [if_neg hnot, if_neg hbelow] at h
  cases huser : s.db.getUserById target with
  | none =>
      rw [huser] at h
      cases h
  | some user =>
      rw [huser] at h
      dsimp only at h
      split at h
      · cases h
      next hover =>
        refine ⟨hnot, fun hne => ?_, user, rfl, by simpa using hover⟩
        exact BitVec.not_le.mp fun hle => hbelow ⟨hle, hne⟩

/-- A change of a role passes all checks. -/
def AcceptsSetRole (s : Server) (sid : SessionId) (target : UserId) (newRole : Role) : Prop :=
  sid ∈ s.sessionTable ∧ (s.sessions sid).authenticated = true ∧
    hasPermission (s.sessions sid).role Permissions.MANAGE_ROLES none = true ∧
    s.checkSetRole (s.sessions sid).role target newRole = .ok ()

instance (sid : SessionId) (target : UserId) (newRole : Role) :
    Decidable (s.AcceptsSetRole sid target newRole) :=
  inferInstanceAs (Decidable (_ ∧ _ ∧ _ ∧ _))

theorem registry_adminSetRole {sid : SessionId} (hin : sid ∈ s.sessionTable) (target : UserId)
    (newRole : Role) (dbOk : Bool) :
    (s.adminSetRole sid target newRole dbOk).registry =
      if s.AcceptsSetRole sid target newRole then s.registry.setRole target newRole dbOk
      else s.registry := by
  unfold adminSetRole
  dsimp only
  split
  next hout =>
    rw [if_neg]
    rintro ⟨_, hauth, _⟩
    rw [hauth] at hout
    cases hout
  next hauth =>
    split
    next hdenied =>
      have hnot : ¬ s.AcceptsSetRole sid target newRole := by
        rintro ⟨_, _, hmay, _⟩
        rw [hmay] at hdenied
        cases hdenied
      rw [if_neg hnot]
      rfl
    next hmay =>
      split
      next text herror =>
        have hnot : ¬ s.AcceptsSetRole sid target newRole := by
          rintro ⟨_, _, _, hcheck⟩
          rw [hcheck] at herror
          cases herror
        rw [if_neg hnot]
        rfl
      next hcheck =>
        have haccepted : s.AcceptsSetRole sid target newRole :=
          ⟨hin, by simpa using hauth, by simpa using hmay, hcheck⟩
        rw [if_pos haccepted, registry_sendTo, registry_sendToAll, registry_setLiveRole]
        cases dbOk <;> rfl

theorem moves_adminSetRole {sid : SessionId} (hin : sid ∈ s.registry.table) (target : UserId)
    (newRole : Role) (howner : s.AcceptsSetRole sid target newRole → o.owner = false →
      (s.sessions sid).role ≠ Role.OWNER) :
    Moves o s.registry (s.adminSetRole sid target newRole o.dbOk).registry := by
  rw [registry_adminSetRole hin]
  split
  next haccepted =>
    have howner' := howner haccepted
    obtain ⟨_, hauth, hmay, hcheck⟩ := haccepted
    obtain ⟨hnot, hbelow, user, huser, hover⟩ := setRole_of_checkSetRole hcheck
    exact Registry.Move.moves
      (.setRole sid target newRole user hin hauth hmay hnot hbelow huser hover howner')
  · exact .refl

theorem moves_kickAll (sid : SessionId) (target : UserId) (others : List SessionId)
    (hl : ∀ other ∈ others, other ∈ s.registry.table) :
    Moves o s.registry (s.kickAll sid target others).registry := by
  induction others generalizing s with
  | nil => exact .refl
  | cons other others ih =>
      unfold kickAll
      dsimp only
      split
      · split
        · exact .refl
        · have hreg : ((s.sendError other "You have been kicked from the server"
              .kicked).disconnect other).registry = s.registry.retire other :=
            registry_disconnect (s := s.sendError other "You have been kicked from the server"
              .kicked) (hl other (by simp))
          have hretired : Moves o s.registry ((s.sendError other
              "You have been kicked from the server" .kicked).disconnect other).registry := by
            rw [hreg]
            exact Registry.Move.moves (.retire other)
          refine hretired.trans (ih ?_)
          intro other' hin
          rw [hreg]
          exact hl other' (by simp [hin])
      · exact ih fun other' hin => hl other' (by simp [hin])

theorem moves_adminKickUser (sid : SessionId) (target : UserId) :
    Moves o s.registry (s.adminKickUser sid target).registry := by
  unfold adminKickUser
  split
  · exact .refl
  · split
    · exact .refl
    · exact moves_kickAll sid target _ fun _ => id

/-- Stopping the streams of others and watching less keeps a session idle. -/
theorem Idle.stopAll {r : Registry} {sid : SessionId} (h : r.Idle sid) (channel : ChannelId)
    (user : UserId) : (r.stopAll channel user).Idle sid := by
  have hstop : ∀ (r : Registry) source, r.Idle sid → (r.stop channel user source).Idle sid := by
    intro r source hr
    constructor
    · intro source'
      simp [Registry.stop, hr.allowed source']
    · simp [Registry.stop, hr.watched]
    · intro source' hlisted
      exact hr.listed source' (Registry.mem_listed_stop.mp hlisted).1
  exact hstop _ .camera (hstop _ .screen h)

/-- After the first loop of `ADMIN_DELETE_CHANNEL` nobody in the channel sends or watches. -/
theorem evictStreams_loop (h : s.registry.InOrder) (channel : ChannelId) (l : List SessionId)
    (hl : ∀ sid ∈ l, sid ∈ s.registry.table) :
    let s' := l.foldl (fun s sid =>
      if (s.sessions sid).authenticated ∧ (s.sessions sid).channelId = channel then
        ((s.endShares sid).stopAllVideoStreams channel
          (s.sessions sid).userId).clearViewerSubscriptions sid false
      else s) s
    Moves o s.registry s'.registry ∧ s'.registry.members = s.registry.members ∧
      s'.registry.table = s.registry.table ∧
      (∀ sid, s.registry.Idle sid → s'.registry.Idle sid) ∧
      ∀ sid ∈ l, (s.registry.members sid).authenticated = true →
        (s.registry.members sid).channelId = channel → s'.registry.Idle sid := by
  induction l generalizing s with
  | nil => exact ⟨.refl, rfl, rfl, fun _ => id, fun _ hin => by cases hin⟩
  | cons sid l ih =>
      rw [List.foldl_cons]
      split
      next hthere =>
        obtain ⟨hauth, rfl⟩ := hthere
        have hin : sid ∈ s.registry.table := hl sid (by simp)
        have hreg : (((s.endShares sid).stopAllVideoStreams (s.sessions sid).channelId
            (s.sessions sid).userId).clearViewerSubscriptions sid false).registry =
            (s.registry.stopAll (s.registry.members sid).channelId
              (s.registry.members sid).userId).setWatched sid [] := by
          rw [registry_clearViewerSubscriptions, registry_stopAllVideoStreams]
          rfl
        have hstopped : Moves o s.registry (((s.endShares sid).stopAllVideoStreams
            (s.sessions sid).channelId
            (s.sessions sid).userId).clearViewerSubscriptions sid false).registry := by
          rw [hreg]
          exact ((Registry.Move.moves (.stop sid .screen hin hauth)).trans
            (Registry.Move.moves (.stop (r := s.registry.stop _ _ _) sid .camera hin hauth))).trans
            (Registry.Move.moves (.unwatch sid [] (List.nil_subset _)))
        have hself : (((s.endShares sid).stopAllVideoStreams (s.sessions sid).channelId
            (s.sessions sid).userId).clearViewerSubscriptions sid false).registry.Idle sid := by
          rw [hreg]
          have hpack := h.consistent.packable hin (h.marked sid hin hauth)
          refine ⟨h.consistent.allowed_stopAll hin (h.marked sid hin hauth),
            Function.update_self .., fun source => ?_⟩
          exact Registry.not_mem_listed_stopAll (videoStreamSource_id _ _) (videoStreamOwner_id hpack _)
        have hothers : ∀ other, s.registry.Idle other →
            (((s.endShares sid).stopAllVideoStreams (s.sessions sid).channelId
              (s.sessions sid).userId).clearViewerSubscriptions sid false).registry.Idle other := by
          intro other hidle
          by_cases hsid : other = sid
          · rw [hsid]
            exact hself
          · rw [hreg]
            have hstop := Idle.stopAll hidle (s.registry.members sid).channelId
              (s.registry.members sid).userId
            exact ⟨hstop.allowed, (Function.update_of_ne hsid ..).trans hstop.watched,
              hstop.listed⟩
        obtain ⟨hmoves, hmembers, htable, hless, hnone⟩ :=
          ih (hstopped.inOrder h) fun other hin' => by
            rw [hreg]
            exact hl other (by simp [hin'])
        rw [hreg] at hmembers htable
        refine ⟨hstopped.trans hmoves, hmembers, htable,
          fun other hidle => hless other (hothers other hidle),
          fun other hin' hauth' hchannel => ?_⟩
        rcases List.mem_cons.mp hin' with rfl | hin'
        · exact hless other hself
        · rw [hreg] at hnone
          exact hnone other hin' hauth' hchannel
      next hnot =>
        obtain ⟨hmoves, hmembers, htable, hless, hnone⟩ :=
          ih h fun other hin' => hl other (by simp [hin'])
        refine ⟨hmoves, hmembers, htable, hless, fun other hin' hauth' hchannel => ?_⟩
        rcases List.mem_cons.mp hin' with rfl | hin'
        · exact absurd ⟨hauth', hchannel⟩ hnot
        · exact hnone other hin' hauth' hchannel

/-- The second loop takes out sessions that are idle. -/
theorem evictUsers_loop (channel : ChannelId) (l : List SessionId)
    (hidle : ∀ sid ∈ l, (s.registry.members sid).authenticated = true →
      (s.registry.members sid).channelId = channel → s.registry.Idle sid) :
    Moves o s.registry (l.foldl (fun s sid =>
      if (s.sessions sid).authenticated ∧ (s.sessions sid).channelId = channel then
        (s.modifySession sid fun session => { session with channelId := 0 }).sendTo sid
          (.userLeftChannel (s.sessions sid).userId channel)
      else s) s).registry := by
  induction l generalizing s with
  | nil => exact .refl
  | cons sid l ih =>
      rw [List.foldl_cons]
      split
      next hthere =>
        have hreg : ((s.modifySession sid fun session => { session with channelId := 0 }).sendTo sid
            (.userLeftChannel (s.sessions sid).userId channel)).registry =
            s.registry.setChannel sid 0 := by
          rw [registry_sendTo]
          exact registry_modifyMember rfl rfl rfl
        have hmoved : Moves o s.registry ((s.modifySession sid fun session =>
            { session with channelId := 0 }).sendTo sid
            (.userLeftChannel (s.sessions sid).userId channel)).registry := by
          rw [hreg]
          exact Registry.Move.moves
            (.evict sid hthere.1 (hidle sid (by simp) hthere.1 hthere.2))
        refine hmoved.trans (ih fun other hin hauth hchannel => ?_)
        rw [hreg] at hauth hchannel ⊢
        by_cases hsid : other = sid
        · subst hsid
          rw [Registry.setChannel, Registry.members_modify_self] at hchannel
          -- it was in no channel before
          have hself : s.registry.setChannel other 0 = s.registry := by
            have hnowhere : (s.registry.members other).channelId = 0 := hthere.2.trans hchannel.symm
            simp [Registry.setChannel, Registry.modify, ← hnowhere]
          rw [hself]
          exact hidle other (by simp) hthere.1 hthere.2
        · rw [Registry.setChannel, Registry.members_modify_of_ne hsid] at hauth hchannel
          obtain ⟨hallowed, hwatched, hnone⟩ := hidle other (by simp [hin]) hauth hchannel
          refine ⟨hallowed, hwatched, ?_⟩
          rw [Registry.setChannel, Registry.members_modify_of_ne hsid]
          exact hnone
      · exact ih fun other hin => hidle other (by simp [hin])

theorem moves_adminDeleteChannel (h : s.registry.InOrder) (sid : SessionId) (channel : ChannelId)
    (dbOk : Bool) : Moves o s.registry (s.adminDeleteChannel sid channel dbOk).registry := by
  unfold adminDeleteChannel
  split
  · exact .refl
  · split
    · exact .refl
    · obtain ⟨hstreams, hmembers, htable, _, hnone⟩ :=
        evictStreams_loop (o := o) h channel s.sessionTable fun _ => id
      have husers := evictUsers_loop (o := o) (s := s.evictStreams channel) channel s.sessionTable
        fun sid hin hauth hchannel => hnone sid hin (hmembers ▸ hauth) (hmembers ▸ hchannel)
      have hevicted : Moves o s.registry ((s.evictStreams channel).evictUsers channel).registry := by
        refine hstreams.trans ?_
        unfold evictUsers
        rw [show (s.evictStreams channel).sessionTable = s.sessionTable from htable]
        exact husers
      dsimp only
      split
      · exact hevicted
      · exact hevicted.trans (Registry.Move.moves (.deleteChannel channel))

/-! ### Streams -/

theorem registry_screenShareStart (sid : SessionId) (source : VideoSource) (codec : BitVec 8)
    (width height : BitVec 16) (viewers : List SessionId) (channel : ChannelId)
    (stream : StreamId) :
    (viewers.foldl (fun s viewer =>
      if (s.sessions viewer).authenticated && (s.sessions viewer).channelId = channel then
        s.announceVideoStream viewer stream sid false
      else s) (((s.publish sid source).setSourceInfo sid source codec width height).logStart sid
        source)).registry = s.registry.publish sid source := by
  rw [registry_foldl fun s viewer => ?_]
  · rw [← registry_publish, ← registry_setSourceInfo (s := s.publish sid source) sid source codec
      width height]
    rfl
  · split
    · simp
    · rfl

theorem moves_screenShareStart {sid : SessionId} (hin : sid ∈ s.registry.table) (codec : BitVec 8)
    (width height : BitVec 16) (sourceRaw : BitVec 8) :
    Moves o s.registry (s.screenShareStart sid codec width height sourceRaw).registry := by
  unfold screenShareStart
  split
  · exact .refl
  next source _ =>
    split
    · exact .refl
    next haccepts =>
      dsimp only
      rw [registry_screenShareStart]
      have haccepts' : s.acceptsStart sid source = true := by simpa using haccepts
      simp only [acceptsStart, Bool.and_eq_true, decide_eq_true_eq] at haccepts'
      exact Registry.Move.moves (.publish sid source hin haccepts'.1.1 haccepts'.1.2)

theorem moves_screenShareStop {sid : SessionId} (hin : sid ∈ s.registry.table)
    (sourceRaw : BitVec 8) :
    Moves o s.registry (s.screenShareStop sid sourceRaw).registry := by
  unfold screenShareStop
  dsimp only
  split
  · exact .refl
  next hauth =>
    split
    · exact .refl
    next source _ =>
      rw [registry_stopVideoStream]
      simp only [Bool.or_eq_true, not_or] at hauth
      exact Registry.Move.moves
        (.stop sid source hin (show (s.sessions sid).authenticated = true by simpa using hauth.1))

/-! ### Views -/

theorem foldl_unsubscribe (session : Session) (dropped : List StreamId) :
    (dropped.foldl Session.unsubscribe session).member = session.member ∧
      (dropped.foldl Session.unsubscribe session).videoSources = session.videoSources ∧
      (dropped.foldl Session.unsubscribe session).subscribedSharers ⊆
        session.subscribedSharers := by
  induction dropped generalizing session with
  | nil => exact ⟨rfl, rfl, List.Subset.refl _⟩
  | cons stream dropped ih =>
      obtain ⟨hmember, hsources, hwatched⟩ := ih (session.unsubscribe stream)
      exact ⟨hmember, hsources, List.Subset.trans hwatched (List.filter_subset_self _)⟩

theorem moves_unsubscribe (sid : SessionId) (dropped : List StreamId) :
    Moves o s.registry (s.modifySession sid fun session =>
      dropped.foldl Session.unsubscribe session).registry := by
  obtain ⟨hmember, hsources, hwatched⟩ := foldl_unsubscribe (s.sessions sid) dropped
  rw [registry_watched hmember hsources]
  exact Registry.Move.moves (.unwatch sid _ hwatched)

theorem moves_stopViewing (sid : SessionId) (target : StreamId) :
    Moves o s.registry (s.stopViewing sid target).registry := by
  unfold stopViewing
  split
  · rw [registry_clearViewerSubscriptions]
    exact Registry.Move.moves (.unwatch sid [] (List.nil_subset _))
  · have hdropped : Moves o s.registry
        (s.modifySession sid fun session => session.unsubscribe target).registry :=
      moves_unsubscribe sid [target]
    dsimp only
    split
    · rw [registry_notifyViewerChange]
      exact hdropped
    · exact hdropped

theorem moves_startViewing {sid : SessionId} (hnow : o.now = none)
    (hin : sid ∈ s.registry.table) {target : StreamId}
    (hlisted : target ∈ s.registry.listed (s.registry.members sid).channelId)
    (dropped : List StreamId) :
    Moves o s.registry (s.startViewing sid target dropped).registry := by
  have hdropped := moves_unsubscribe (o := o) (s := s) sid dropped
  obtain ⟨hmember, hsources, _⟩ := foldl_unsubscribe (s.sessions sid) dropped
  have hsubscribed : ∀ s : Server, (s.subscribe sid target).registry =
      s.registry.setWatched sid (target :: s.registry.watched sid) :=
    fun s => registry_watched rfl rfl
  have hnotified : ∀ (s : Server) (user : UserId), (dropped.foldl (fun s old =>
      s.notifyViewerChange old user false) s).registry = s.registry :=
    fun s user => registry_foldl (fun s stream => registry_notifyViewerChange _ _ _) s dropped
  unfold startViewing
  dsimp only
  split
  · rw [registry_notifyViewerChange, registry_requestKeyframeFromSharer, hnotified]
    refine hdropped.trans ?_
    rw [hsubscribed, registry_watched hmember hsources]
    exact Registry.Move.moves (.watch (r := s.registry.setWatched sid _) sid target hnow hin
      hlisted)
  · rw [hnotified]
    exact hdropped

theorem moves_screenShareView {sid : SessionId} (hnow : o.now = none)
    (hin : sid ∈ s.registry.table) (target : StreamId) (action : Option (BitVec 8)) :
    Moves o s.registry (s.screenShareView sid target action).registry := by
  unfold screenShareView
  dsimp only
  split
  · exact .refl
  · split
    · exact moves_stopViewing sid target
    · split
      · exact .refl
      · split
        · exact .refl
        next hlisted =>
          exact moves_startViewing hnow hin (not_not.mp hlisted) _

@[simp] theorem registry_screenShareUpdate (sid : SessionId) (codec : BitVec 8)
    (width height : BitVec 16) (source : BitVec 8) :
    (s.screenShareUpdate sid codec width height source).registry = s.registry := by
  unfold screenShareUpdate
  dsimp only
  split
  · rfl
  · split
    · rfl
    · split
      · rfl
      · simp

/-! ### Runs -/

/-- What a step brings from outside. -/
def occasion (s : Server) : ServerOp → Occasion
  | .message sid (.authIdentity auth nowS dbOk) =>
    { now := some nowS
      early := Fresh auth nowS ∧ auth.timestamp.toInt < 0
      root := s.AcceptsLogin sid auth nowS ∧
        s.config.publicKeyFingerprint auth.publicKey ∈ s.config.rootFingerprints
      dbOk := dbOk }
  | .message sid (.adminSetRole target newRole dbOk) =>
    { owner := s.AcceptsSetRole sid target newRole ∧ (s.sessions sid).role = Role.OWNER
      dbOk := dbOk }
  | _ => {}

theorem moves_handleMessage (h : s.registry.InOrder) (sid : SessionId) (message : ControlMessage) :
    Moves (s.occasion (.message sid message)) s.registry (s.handleMessage sid message).registry := by
  unfold handleMessage getSession
  split
  · exact .refl
  next hsome =>
    have hin : sid ∈ s.sessionTable := by
      by_contra hout
      rw [if_neg hout] at hsome
      cases hsome
    cases message with
    | authIdentity auth nowS dbOk =>
        exact moves_authIdentity (o := s.occasion (.message sid (.authIdentity auth nowS dbOk)))
          hin auth rfl (fun hearly hfresh => not_lt.mp fun hneg =>
            of_decide_eq_false hearly ⟨hfresh, hneg⟩)
          fun haccepts hroot => decide_eq_true ⟨haccepts, hroot⟩
    | channelJoin channel voiceState => exact moves_channelJoin h hin _ _
    | channelLeave => exact moves_channelLeave hin
    | adminCreateChannel name maxUsers dbOk => exact moves_adminCreateChannel _ _ _ _
    | adminDeleteChannel channel dbOk => exact moves_adminDeleteChannel h _ _ _
    | adminSetRole target newRole dbOk =>
        exact moves_adminSetRole (o := s.occasion (.message sid (.adminSetRole target newRole dbOk)))
          hin target newRole fun haccepts howner hrole =>
            of_decide_eq_false howner ⟨haccepts, hrole⟩
    | adminKickUser target => exact moves_adminKickUser _ _
    | screenShareStart codec width height source => exact moves_screenShareStart hin _ _ _ _
    | screenShareUpdate codec width height source =>
        rw [registry_screenShareUpdate]
        exact .refl
    | screenShareStop source => exact moves_screenShareStop hin _
    | screenShareView target action => exact moves_screenShareView rfl hin _ _

/-- Every step but the end of a departed session is a sequence of moves. -/
theorem moves_step (h : s.registry.InOrder) (op : ServerOp) (hop : op ≠ .processDisconnect) :
    Moves (s.occasion op) s.registry (s.step op).registry := by
  cases op with
  | connect =>
      rw [step, registry_onNewConnection]
      exact Registry.Move.moves .connect
  | shutdownComplete sid =>
      by_cases hin : sid ∈ s.sessionTable
      · rw [step, registry_onShutdownComplete hin]
        exact Registry.Move.moves (.depart sid hin)
      · have hsame : s.step (.shutdownComplete sid) = s := by
          simp [step, onShutdownComplete, getSession, hin]
        rw [hsame]
        exact .refl
  | message sid message => exact moves_handleMessage h sid message
  | videoFrame sid source frame =>
      rw [step, registry_enqueueVideoFrame]
      exact .refl
  | videoFrameStarted sid source hdr =>
      rw [step, registry_enqueueVideoEvent]
      exact .refl
  | videoFrameAborted sid source frameSeq =>
      rw [step, registry_enqueueVideoEvent]
      exact .refl
  | videoOutShutdown sid handle =>
      rw [step, registry_videoOutShutdown]
      exact .refl
  | videoControl sid target bucketAllows =>
      rw [step, registry_handleVideoControl]
      exact .refl
  | processVideoFrame =>
      rw [step, registry_processVideoFrame]
      exact .refl
  | beginPass => exact .refl
  | pollIngress stream =>
      rw [step, registry_pollIngress]
      exact .refl
  | sendDeferred stream =>
      rw [step, registry_sendDeferredKeyframeRequest]
      exact .refl
  | processDisconnect => exact absurd rfl hop

/-- Every step but the end of a departed session keeps the streams accounted for. -/
theorem keeps_step (h : s.registry.InOrder) (op : ServerOp) (hop : op ≠ .processDisconnect) :
    s.registry.Keeps (s.step op).registry :=
  (moves_step h op hop).keeps h

theorem registry_processDisconnects {d : SessionDisconnect} {rest : List SessionDisconnect}
    (hd : s.disconnects = d :: rest) :
    s.processDisconnects.registry = s.registry.workOff d rest := by
  simp only [processDisconnects, hd]
  exact registry_processDisconnect (s := { s with disconnects := rest }) ..

/-- What the moves of a step and the end of a departed session preserve, the step
preserves. -/
theorem registry_step {Inv : Registry → Prop} {op : ServerOp}
    (hmove : ∀ r r', r.InOrder → Inv r → Registry.Move (s.occasion op) r r' → Inv r')
    (hworkOff : ∀ r d rest, r.InOrder → Inv r → r.disconnects = d :: rest →
      Inv (r.workOff d rest))
    (hr : s.registry.InOrder) (h : Inv s.registry) :
    (s.step op).registry.InOrder ∧ Inv (s.step op).registry := by
  by_cases hop : op = .processDisconnect
  · subst hop
    cases hd : s.disconnects with
    | nil =>
        have hsame : s.step .processDisconnect = s := by simp [step, processDisconnects, hd]
        rw [hsame]
        exact ⟨hr, h⟩
    | cons d rest =>
        rw [step, registry_processDisconnects hd]
        exact ⟨hr.workOff hd, hworkOff _ d rest hr h hd⟩
  · have hboth : ∀ r r' : Registry, r.InOrder ∧ Inv r → Registry.Move (s.occasion op) r r' →
        r'.InOrder ∧ Inv r' := by
      intro r r' hinv hm
      exact ⟨(hm.keeps hinv.1).inOrder, hmove r r' hinv.1 hinv.2 hm⟩
    exact Registry.Moves.invariant hboth ⟨hr, h⟩ (moves_step hr op hop)

theorem inOrder_step (h : s.registry.InOrder) (op : ServerOp) : (s.step op).registry.InOrder :=
  (registry_step (fun _ _ _ _ _ => trivial) (fun _ _ _ _ _ _ => trivial) h trivial).1

theorem inOrder_restart (config : Config) (env : Environment) {db : Database} (hdb : db.Sound) :
    (restart config env db).registry.InOrder where
  consistent :=
    { lt_next := fun _ hin => by cases hin
      fresh := fun _ _ => ⟨rfl, fun _ hsome => by cases hsome⟩
      authed := fun _ hin => by cases hin
      user := fun _ _ hsome => by cases hsome
      idle := fun _ hin => by cases hin
      home := fun _ hin => by cases hin
      published := fun _ hin => by cases hin
      gone := fun _ _ _ _ => rfl
      events := fun _ hd => by cases hd
      db := hdb }
  marked := fun _ hin => by cases hin

theorem sound_empty : Database.Sound {} where
  ids := fun _ hrow => by cases hrow
  bound := show 0 < 2 ^ 30 by decide
  distinct := List.Pairwise.nil
  unique := fun _ _ _ hk => by
    obtain ⟨_, hrow, _⟩ := hk
    cases hrow
  owner := fun _ _ _ hk => by
    obtain ⟨_, hrow, _⟩ := hk
    cases hrow
  channels := fun _ hrow => by cases hrow
  distinctChannels := List.Pairwise.nil

theorem inOrder_new (config : Config) (env : Environment) : (new config env).registry.InOrder :=
  inOrder_restart config env sound_empty

/-- Between any two steps the registry is in order. -/
theorem inOrder_run (config : Config) (env : Environment) (ops : List ServerOp) :
    (run config env ops).registry.InOrder :=
  Machine.run_preserves (fun (s : Server) op (h : s.registry.InOrder) => inOrder_step h op)
    (inOrder_new config env) ops

/-- What every move and the end of every departed session preserve holds after every run. -/
theorem registry_run {Inv : Registry → Prop} {config : Config} {env : Environment}
    (hnew : Inv (new config env).registry)
    (hmove : ∀ o r r', r.InOrder → Inv r → Registry.Move o r r' → Inv r')
    (hworkOff : ∀ r d rest, r.InOrder → Inv r → r.disconnects = d :: rest →
      Inv (r.workOff d rest))
    (ops : List ServerOp) : Inv (run config env ops).registry := by
  have hstep : ∀ (s : Server) op, s.registry.InOrder ∧ Inv s.registry →
      (s.step op).registry.InOrder ∧ Inv (s.step op).registry :=
    fun s op h => registry_step (hmove _) hworkOff h.1 h.2
  exact (Machine.run_preserves hstep ⟨inOrder_new config env, hnew⟩ ops).2

end Server

end Parties

import Parties.Server.Handlers

/-!
# The records of the viewers

What the server has done with a stream toward a viewer is in the record of that viewer.
Only the frames of a stream prolong it, and only a new subscription starts it over. All
other steps leave the record as it is; they may end the subscription, but not begin one,
and the gate of a stream that stays subscribed waits for a keyframe if it did before.
-/

namespace Parties

open Parties.Video

@[simp] theorem Session.gate_setGate_self (viewer : Session) (stream : StreamId)
    (gate : ViewerVideoGate) : (viewer.setGate stream gate).gate stream = gate := by
  simp [Session.gate, Session.setGate]

theorem Session.gate_setGate_of_ne (viewer : Session) {stream other : StreamId}
    (h : stream ≠ other) (gate : ViewerVideoGate) :
    (viewer.setGate other gate).gate stream = viewer.gate stream := by
  simp [Session.gate, Session.setGate, h]

/-- The part of a session that concerns it as a viewer. -/
def Session.viewerPart (viewer : Session) :=
  (viewer.viewerLog, viewer.subscribedSharers, viewer.videoGates, viewer.framesHanded,
    viewer.videoOutStreams)

/-- Nothing new about a stream at a viewer, or a fresh record. -/
inductive SameRecord (stream : StreamId) (viewer viewer' : Session) : Prop
  | same (hlog : viewer'.viewerLog stream = viewer.viewerLog stream)
      (hhanded : viewer'.framesHanded = viewer.framesHanded)
      (hsending : viewer'.videoOutStreams ⊆ viewer.videoOutStreams)
      (hkept : stream ∈ viewer'.subscribedSharers → stream ∈ viewer.subscribedSharers ∧
        (viewer'.gate stream).awaitingKeyframe = (viewer.gate stream).awaitingKeyframe)
  | fresh (hlog : viewer'.viewerLog stream = [])
      (hsending : ∀ out ∈ viewer'.videoOutStreams, out ∈ viewer.videoOutStreams ∧
        viewer'.framesHanded = viewer.framesHanded)
      (hwaits : stream ∈ viewer'.subscribedSharers →
        (viewer'.gate stream).awaitingKeyframe = true)

namespace SameRecord

variable {stream : StreamId} {viewer viewer' viewer'' : Session}

/-- A change in nothing that concerns the session as a viewer. -/
theorem of_viewerPart (h : viewer'.viewerPart = viewer.viewerPart) :
    SameRecord stream viewer viewer' := by
  simp only [Session.viewerPart, Prod.mk.injEq] at h
  obtain ⟨hlog, hsubscribed, hgates, hhanded, hsending⟩ := h
  refine .same (by rw [hlog]) hhanded (fun out hout => hsending ▸ hout) fun hin => ?_
  refine ⟨hsubscribed ▸ hin, ?_⟩
  rw [Session.gate, Session.gate, hgates]

theorem refl (stream : StreamId) (viewer : Session) : SameRecord stream viewer viewer :=
  of_viewerPart rfl

theorem trans (h : SameRecord stream viewer viewer') (h' : SameRecord stream viewer' viewer'') :
    SameRecord stream viewer viewer'' := by
  cases h' with
  | fresh hlog' hsending' hwaits' =>
      refine .fresh hlog' (fun out hout => ?_) hwaits'
      obtain ⟨hmid, hsame⟩ := hsending' out hout
      cases h with
      | same hlog hhanded hsending hkept => exact ⟨hsending hmid, hsame.trans hhanded⟩
      | fresh hlog hsending hwaits =>
          obtain ⟨hold, hsame'⟩ := hsending out hmid
          exact ⟨hold, hsame.trans hsame'⟩
  | same hlog' hhanded' hsending' hkept' =>
      cases h with
      | same hlog hhanded hsending hkept =>
          refine .same (hlog'.trans hlog) (hhanded'.trans hhanded)
            (fun out hout => hsending (hsending' hout)) fun hin => ?_
          obtain ⟨hin', hgate'⟩ := hkept' hin
          obtain ⟨hold, hgate⟩ := hkept hin'
          exact ⟨hold, hgate'.trans hgate⟩
      | fresh hlog hsending hwaits =>
          refine .fresh (hlog'.trans hlog) (fun out hout => ?_) fun hin => ?_
          · obtain ⟨hold, hsame⟩ := hsending out (hsending' hout)
            exact ⟨hold, hhanded'.trans hsame⟩
          · obtain ⟨hin', hgate'⟩ := hkept' hin
            rw [hgate']
            exact hwaits hin'

theorem unsubscribe (viewer : Session) (stream other : StreamId) :
    SameRecord stream viewer (viewer.unsubscribe other) := by
  refine .same rfl rfl (List.Subset.refl _) fun hin => ?_
  obtain ⟨hold, hne⟩ := List.mem_filter.mp hin
  refine ⟨hold, ?_⟩
  simp only [Session.gate, Session.unsubscribe, Function.update_of_ne (of_decide_eq_true hne)]

theorem unsubscribeAll (viewer : Session) (stream : StreamId) :
    SameRecord stream viewer viewer.unsubscribeAll :=
  .same rfl rfl (List.Subset.refl _) fun hin => by cases hin

end SameRecord

/-- A step takes the frames of a stream out of the ingress queue or passes over its buffer. -/
def ServerOp.isVideo : ServerOp → Bool
  | .processVideoFrame | .pollIngress _ => true
  | _ => false

namespace Server

/-- No record goes on, and no reorder buffer takes anything in. -/
structure SameRecords (s s' : Server) : Prop where
  record : ∀ sid stream, SameRecord stream (s.sessions sid) (s'.sessions sid)
  ingress : ∀ stream, s'.videoIngress stream = s.videoIngress stream ∨
    s'.videoIngress stream = none

namespace SameRecords

variable {s s' s'' : Server}

theorem refl (s : Server) : s.SameRecords s := ⟨fun _ _ => .refl _ _, fun _ => .inl rfl⟩

theorem trans (h : s.SameRecords s') (h' : s'.SameRecords s'') : s.SameRecords s'' where
  record sid stream := (h.record sid stream).trans (h'.record sid stream)
  ingress stream := by
    rcases h'.ingress stream with hsame | hnone
    · rw [hsame]
      exact h.ingress stream
    · exact .inr hnone

/-- The sessions change, and none more than they may. -/
theorem withSessions (h : s.SameRecords s') {sessions : SessionId → Session}
    (hsessions : ∀ sid stream, SameRecord stream (s'.sessions sid) (sessions sid)) :
    s.SameRecords { s' with sessions := sessions } :=
  h.trans ⟨hsessions, fun _ => .inl rfl⟩

/-- A change elsewhere. -/
theorem elsewhere (h : s.SameRecords s')
    (heq : (s''.sessions, s''.videoIngress) = (s'.sessions, s'.videoIngress)) :
    s.SameRecords s'' := by
  obtain ⟨hsessions, hingress⟩ := Prod.mk.inj heq
  constructor
  · rw [hsessions]
    exact h.record
  · rw [hingress]
    exact h.ingress

/-- A buffer is thrown away. -/
theorem dropIngress (h : s.SameRecords s') (stream : StreamId) : s.SameRecords { s' with
    videoIngress := Function.update s'.videoIngress stream none } := by
  refine h.trans ⟨fun _ _ => .refl _ _, fun other => ?_⟩
  by_cases hother : other = stream
  · subst hother
    exact .inr (Function.update_self ..)
  · exact .inl (Function.update_of_ne hother ..)

theorem sendTo (h : s.SameRecords s') (sid : SessionId) (message : ServerMessage) :
    s.SameRecords (s'.sendTo sid message) :=
  h.elsewhere rfl

theorem sendToAll (h : s.SameRecords s') (picks : SessionId → Session → Bool)
    (message : ServerMessage) : s.SameRecords (s'.sendToAll picks message) :=
  h.elsewhere rfl

theorem sendError (h : s.SameRecords s') (sid : SessionId) (text : String)
    (code : ServerErrorCode) : s.SameRecords (s'.sendError sid text code) :=
  h.elsewhere rfl

theorem readClock (h : s.SameRecords s') : s.SameRecords s'.readClock := h.elsewhere rfl

theorem requestKeyframeFromSharer (h : s.SameRecords s') (stream : StreamId)
    (requester : UserId) : s.SameRecords (s'.requestKeyframeFromSharer stream requester) :=
  h.elsewhere rfl

theorem endShare (h : s.SameRecords s') (sid : SessionId) (source : VideoSource) :
    s.SameRecords (s'.endShare sid source) :=
  h.elsewhere rfl

theorem endShares (h : s.SameRecords s') (sid : SessionId) : s.SameRecords (s'.endShares sid) :=
  h.elsewhere rfl

/-- One session changes. -/
theorem modifySession (h : s.SameRecords s') {sid : SessionId} {f : Session → Session}
    (hf : ∀ stream, SameRecord stream (s'.sessions sid) (f (s'.sessions sid))) :
    s.SameRecords (s'.modifySession sid f) := by
  refine h.withSessions fun other stream => ?_
  by_cases hsid : other = sid
  · subst hsid
    rw [Function.update_self]
    exact hf stream
  · rw [Function.update_of_ne hsid]
    exact .refl _ _

/-- One session changes, but not as a viewer. -/
theorem modifyElsewhere (h : s.SameRecords s') (sid : SessionId) (f : Session → Session)
    (hf : ∀ viewer, (f viewer).viewerPart = viewer.viewerPart) :
    s.SameRecords (s'.modifySession sid f) :=
  h.modifySession fun _ => .of_viewerPart (hf _)

theorem modifySessions (h : s.SameRecords s') {f : Session → Session}
    (hf : ∀ viewer stream, SameRecord stream viewer (f viewer)) :
    s.SameRecords (s'.modifySessions f) := by
  refine h.withSessions fun sid stream => ?_
  split
  · exact hf _ _
  · exact .refl _ _

theorem foldl (h : s.SameRecords s') {α : Type} {f : Server → α → Server}
    (hf : ∀ (s' : Server) a, s.SameRecords s' → s.SameRecords (f s' a)) (l : List α) :
    s.SameRecords (l.foldl f s') :=
  Machine.run_preserves hf h l

/-! ### Streams and departures -/

theorem notifyViewerChange (h : s.SameRecords s') (stream : StreamId) (viewer : UserId)
    (watching : Bool) : s.SameRecords (s'.notifyViewerChange stream viewer watching) := by
  refine h.elsewhere ?_
  unfold Server.notifyViewerChange
  split
  · rfl
  · split
    · rfl
    · split
      · rfl
      · split <;> rfl

theorem clearViewerSubscriptions (h : s.SameRecords s') (sid : SessionId) (notify : Bool) :
    s.SameRecords (s'.clearViewerSubscriptions sid notify) := by
  have hclear : s.SameRecords (s'.modifySession sid Session.unsubscribeAll) :=
    h.modifySession fun stream => .unsubscribeAll _ _
  unfold Server.clearViewerSubscriptions
  dsimp only
  split
  · exact hclear
  · exact hclear.foldl (fun s' stream hs' => hs'.notifyViewerChange _ _ _) _

theorem stopVideoStream (h : s.SameRecords s') (channel : ChannelId) (user : UserId)
    (source : VideoSource) : s.SameRecords (s'.stopVideoStream channel user source) := by
  have hstop : ∀ (s' : Server) (sid : SessionId) (f : VideoSourceState → VideoSourceState),
      s.SameRecords s' →
        s.SameRecords (s'.modifySession sid fun session => session.modifySource source f) :=
    fun s' sid f hs' => hs'.modifyElsewhere _ _ fun _ => rfl
  have hdropped := h.dropIngress (videoStreamId user source)
  have hunlist : ∀ listed, s.SameRecords { s' with
      videoIngress := Function.update s'.videoIngress (videoStreamId user source) none
      channelVideoStreams := listed } := fun listed => hdropped.elsewhere rfl
  unfold Server.stopVideoStream unpublish
  dsimp only
  split
  · exact hdropped
  · have hdropped : ∀ s' : Server, s.SameRecords s' → s.SameRecords (s'.modifySessions fun session =>
        session.unsubscribe (videoStreamId user source)) :=
      fun s' hs' => hs'.modifySessions fun viewer stream => .unsubscribe _ _ _
    refine (hdropped _ ?_).elsewhere rfl
    split
    · exact hunlist _
    · exact hstop _ _ _ (hunlist _)

theorem stopAllVideoStreams (h : s.SameRecords s') (channel : ChannelId) (user : UserId) :
    s.SameRecords (s'.stopAllVideoStreams channel user) :=
  (h.stopVideoStream channel user .screen).stopVideoStream channel user .camera

theorem announceVideoStream (h : s.SameRecords s') (viewer : SessionId) (stream : StreamId)
    (publisher : SessionId) (replay : Bool) :
    s.SameRecords (s'.announceVideoStream viewer stream publisher replay) := by
  refine h.elsewhere ?_
  unfold Server.announceVideoStream
  split
  · rfl
  · split <;> rfl

theorem forgetSession (h : s.SameRecords s') (sid : SessionId) (user : UserId) :
    s.SameRecords (s'.forgetSession sid user) := by
  have hclose : ∀ s' : Server, s.SameRecords s' →
      s.SameRecords (s'.modifySession sid fun session => { session with
        videoSources := fun source =>
          { session.videoSources source with ingressAllowed := false } }) :=
    fun s' hs' => hs'.modifyElsewhere _ _ fun _ => rfl
  unfold Server.forgetSession
  dsimp only
  split <;> split
  · exact h.elsewhere rfl
  · exact hclose _ (h.elsewhere rfl)
  · exact h
  · exact hclose _ (h.elsewhere rfl)

theorem processDisconnect (h : s.SameRecords s') (sid : SessionId) (user : UserId)
    (channel : ChannelId) : s.SameRecords (s'.processDisconnect sid user channel) := by
  have hforget := h.forgetSession sid user
  unfold Server.processDisconnect
  dsimp only
  split
  · exact hforget
  · split
    · split
      · exact hforget.clearViewerSubscriptions _ _
      · exact hforget
    · have hstopped := hforget.stopAllVideoStreams channel user
      split
      · exact (hstopped.clearViewerSubscriptions _ _).elsewhere rfl
      · exact hstopped.elsewhere rfl

/-! ### Connections and logins -/

theorem onNewConnection (h : s.SameRecords s') : s.SameRecords s'.onNewConnection := by
  refine h.trans ⟨fun sid stream => ?_, fun _ => .inl rfl⟩
  by_cases hsid : sid = s'.nextSessionId
  · subst hsid
    refine .fresh ?_ (fun out hout => ?_) fun hin => ?_
    · simp [Server.onNewConnection]
    · simp [Server.onNewConnection] at hout
    · simp [Server.onNewConnection] at hin
  · simp only [Server.onNewConnection, Function.update_of_ne hsid]
    exact .refl _ _

/-- A session is marked as shutting down. -/
theorem retire (h : s.SameRecords s') (sid : SessionId) :
    s.SameRecords (s'.modifySession sid fun session => { session with alive := false }) :=
  h.modifyElsewhere _ _ fun _ => rfl

theorem onShutdownComplete (h : s.SameRecords s') (sid : SessionId) :
    s.SameRecords (s'.onShutdownComplete sid) := by
  unfold Server.onShutdownComplete
  split
  · exact h
  · exact ((h.endShares sid).retire sid).elsewhere rfl

theorem disconnect (h : s.SameRecords s') (sid : SessionId) :
    s.SameRecords (s'.disconnect sid) := by
  unfold Server.disconnect
  split
  · exact h
  · exact (h.endShares sid).retire sid

theorem kickDuplicates (h : s.SameRecords s') (sid : SessionId) (key : PublicKey) :
    s.SameRecords (s'.kickDuplicates sid key) := by
  refine h.foldl (fun s' other hs' => ?_) _
  split
  · have hended := ((hs'.sendError other "Signed in from another location" .replaced).endShares
      other).processDisconnect other (s'.sessions other).userId (s'.sessions other).channelId
    have hout := hended.modifyElsewhere other
      (fun session => { session with channelId := 0, authenticated := false }) fun _ => rfl
    exact hout.disconnect other
  · exact hs'

theorem authIdentity (h : s.SameRecords s') (sid : SessionId) (auth : AuthIdentity)
    (nowS : BitVec 64) (dbOk : Bool) : s.SameRecords (s'.authIdentity sid auth nowS dbOk) := by
  unfold Server.authIdentity
  split
  · exact h
  · split
    · exact h.elsewhere rfl
    · dsimp only
      split
      · exact h.elsewhere rfl
      · unfold acceptIdentity
        dsimp only
        split
        · exact h.elsewhere rfl
        next user db _ =>
          have hstored : s.SameRecords { s'.pruneRecentAuth nowS with
              recentAuth := Function.update (s'.pruneRecentAuth nowS).recentAuth
                ((s'.pruneRecentAuth nowS).config.publicKeyFingerprint auth.publicKey)
                (some auth.timestamp)
              acceptedAuths := (s'.pruneRecentAuth nowS).acceptedAuths ++
                [(auth.publicKey, auth.timestamp)]
              db := db } := h.elsewhere rfl
          have hkicked := hstored.kickDuplicates sid auth.publicKey
          exact (hkicked.modifyElsewhere sid (fun session => { session with
            authenticated := true
            userId := user.id
            username := user.displayName
            role := user.role
            publicKey := auth.publicKey
            protocolVersion := auth.version }) fun _ => rfl).elsewhere rfl

/-! ### Channels -/

/-- A session moves to another channel. -/
theorem setChannel (h : s.SameRecords s') (sid : SessionId) (channel : ChannelId) :
    s.SameRecords (s'.modifySession sid fun session => { session with channelId := channel }) :=
  h.modifyElsewhere _ _ fun _ => rfl

theorem leaveChannel (h : s.SameRecords s') (sid : SessionId) :
    s.SameRecords (s'.leaveChannel sid) := by
  have hleft := (((h.endShares sid).stopAllVideoStreams (s'.sessions sid).channelId
    (s'.sessions sid).userId).clearViewerSubscriptions sid true).setChannel sid 0
  exact hleft.elsewhere rfl

theorem replayStreams (h : s.SameRecords s') (sid : SessionId) (channel : ChannelId) :
    s.SameRecords (s'.replayStreams sid channel) := by
  refine h.foldl (fun s' stream hs' => ?_) _
  split
  · exact hs'
  · split
    · exact hs'.announceVideoStream _ _ _ _
    · exact hs'

theorem channelJoin (h : s.SameRecords s') (sid : SessionId) (channel : ChannelId)
    (voiceState : Option (Bool × Bool)) :
    s.SameRecords (s'.channelJoin sid channel voiceState) := by
  have henter : ∀ s' : Server, s.SameRecords s' → s.SameRecords
      (s'.modifySession sid fun session => session.enter channel voiceState) := by
    intro s' hs'
    cases voiceState with
    | none => exact hs'.setChannel sid channel
    | some flags => exact hs'.modifyElsewhere _ _ fun _ => rfl
  unfold Server.channelJoin
  split
  · exact h
  · split
    · exact h.elsewhere rfl
    · dsimp only
      have hleft : s.SameRecords (if (s'.sessions sid).channelId ≠ 0 ∧
          (s'.sessions sid).channelId ≠ channel then s'.leaveChannel sid else s') := by
        split
        · exact h.leaveChannel sid
        · exact h
      exact (((henter _ hleft).sendTo _ _).replayStreams sid channel).sendToAll _ _

theorem channelLeave (h : s.SameRecords s') (sid : SessionId) :
    s.SameRecords (s'.channelLeave sid) := by
  unfold Server.channelLeave
  split
  · exact h
  · exact h.leaveChannel sid

/-! ### Administration -/

theorem adminCreateChannel (h : s.SameRecords s') (sid : SessionId) (name : String)
    (maxUsers : Int) (dbOk : Bool) :
    s.SameRecords (s'.adminCreateChannel sid name maxUsers dbOk) := by
  refine h.elsewhere ?_
  unfold Server.adminCreateChannel
  repeat' split
  all_goals rfl

theorem evictStreams (h : s.SameRecords s') (channel : ChannelId) :
    s.SameRecords (s'.evictStreams channel) := by
  refine h.foldl (fun s' sid hs' => ?_) _
  split
  · exact ((hs'.endShares sid).stopAllVideoStreams _ _).clearViewerSubscriptions _ _
  · exact hs'

theorem evictUsers (h : s.SameRecords s') (channel : ChannelId) :
    s.SameRecords (s'.evictUsers channel) := by
  refine h.foldl (fun s' sid hs' => ?_) _
  split
  · exact (hs'.setChannel sid 0).elsewhere rfl
  · exact hs'

theorem adminDeleteChannel (h : s.SameRecords s') (sid : SessionId) (channel : ChannelId)
    (dbOk : Bool) : s.SameRecords (s'.adminDeleteChannel sid channel dbOk) := by
  have hevicted := (h.evictStreams channel).evictUsers channel
  unfold Server.adminDeleteChannel
  split
  · exact h
  · split
    · exact h.elsewhere rfl
    · dsimp only
      split <;> exact hevicted.elsewhere rfl

theorem adminSetRole (h : s.SameRecords s') (sid : SessionId) (target : UserId) (newRole : Role)
    (dbOk : Bool) : s.SameRecords (s'.adminSetRole sid target newRole dbOk) := by
  have hlive : ∀ s' : Server, s.SameRecords s' → s.SameRecords (s'.setLiveRole target newRole) := by
    intro s' hs'
    refine hs'.modifySessions fun viewer stream => ?_
    split
    · exact .of_viewerPart rfl
    · exact .refl _ _
  unfold Server.adminSetRole
  dsimp only
  split
  · exact h
  · split
    · exact h.elsewhere rfl
    · split
      · exact h.elsewhere rfl
      · refine elsewhere (hlive _ ?_) rfl
        split
        · exact h.elsewhere rfl
        · exact h

theorem kickAll (h : s.SameRecords s') (sid : SessionId) (target : UserId)
    (others : List SessionId) : s.SameRecords (s'.kickAll sid target others) := by
  induction others generalizing s' with
  | nil => exact h
  | cons other rest ih =>
      unfold Server.kickAll
      dsimp only
      split
      · split
        · exact h.elsewhere rfl
        · exact ih ((h.sendError other _ _).disconnect other)
      · exact ih h

theorem adminKickUser (h : s.SameRecords s') (sid : SessionId) (target : UserId) :
    s.SameRecords (s'.adminKickUser sid target) := by
  unfold Server.adminKickUser
  split
  · exact h
  · split
    · exact h.elsewhere rfl
    · exact (h.kickAll sid target _).elsewhere rfl

/-! ### Streams and views -/

theorem setSourceInfo (h : s.SameRecords s') (sid : SessionId) (source : VideoSource)
    (codec : BitVec 8) (width height : BitVec 16) :
    s.SameRecords (s'.setSourceInfo sid source codec width height) :=
  h.modifyElsewhere _ _ fun _ => rfl

theorem publish (h : s.SameRecords s') (sid : SessionId) (source : VideoSource) :
    s.SameRecords (s'.publish sid source) := by
  have hopened : ∀ s' : Server, s.SameRecords s' →
      s.SameRecords (s'.modifySession sid fun session => session.modifySource source fun state =>
        { state with ingressAllowed := true }) :=
    fun s' hs' => hs'.modifyElsewhere _ _ fun _ => rfl
  exact hopened _ (h.elsewhere rfl)

theorem logStart (h : s.SameRecords s') (sid : SessionId) (source : VideoSource) :
    s.SameRecords (s'.logStart sid source) :=
  h.elsewhere rfl

theorem screenShareStart (h : s.SameRecords s') (sid : SessionId) (codec : BitVec 8)
    (width height : BitVec 16) (source : BitVec 8) :
    s.SameRecords (s'.screenShareStart sid codec width height source) := by
  unfold Server.screenShareStart
  split
  · exact h
  next source' _ =>
    split
    · exact h
    · dsimp only
      have hstarted := ((h.publish sid source').setSourceInfo sid source' codec width
        height).logStart sid source'
      refine hstarted.foldl (fun s' viewer hs' => ?_) _
      split
      · exact hs'.announceVideoStream _ _ _ _
      · exact hs'

theorem screenShareUpdate (h : s.SameRecords s') (sid : SessionId) (codec : BitVec 8)
    (width height : BitVec 16) (source : BitVec 8) :
    s.SameRecords (s'.screenShareUpdate sid codec width height source) := by
  unfold Server.screenShareUpdate
  dsimp only
  split
  · exact h
  · split
    · exact h
    · split
      · exact h
      · exact h.setSourceInfo _ _ _ _ _

theorem screenShareStop (h : s.SameRecords s') (sid : SessionId) (source : BitVec 8) :
    s.SameRecords (s'.screenShareStop sid source) := by
  unfold Server.screenShareStop
  dsimp only
  split
  · exact h
  · split
    · exact h
    · exact (h.endShare sid _).stopVideoStream _ _ _

/-- A new subscription starts a record. -/
theorem subscribe (h : s.SameRecords s') (sid : SessionId) (target : StreamId) :
    s.SameRecords (s'.subscribe sid target) := by
  refine h.modifySession fun stream => ?_
  by_cases htarget : stream = target
  · subst htarget
    refine .fresh ?_ (fun out hout => ⟨hout, rfl⟩) fun _ => ?_
    · simp
    · simp [Session.setGate, Session.gate]
  · refine .same ?_ rfl (List.Subset.refl _) fun hin => ⟨?_, ?_⟩
    · simp [htarget]
    · simpa [htarget] using hin
    · exact congrArg ViewerVideoGate.awaitingKeyframe (Session.gate_setGate_of_ne _ htarget _)

theorem stopViewing (h : s.SameRecords s') (sid : SessionId) (target : StreamId) :
    s.SameRecords (s'.stopViewing sid target) := by
  have hunsubscribed : s.SameRecords
      (s'.modifySession sid fun session => session.unsubscribe target) :=
    h.modifySession fun stream => .unsubscribe _ _ _
  unfold Server.stopViewing
  dsimp only
  split
  · exact h.clearViewerSubscriptions _ _
  · split
    · exact hunsubscribed.notifyViewerChange _ _ _
    · exact hunsubscribed

theorem startViewing (h : s.SameRecords s') (sid : SessionId) (target : StreamId)
    (dropped : List StreamId) : s.SameRecords (s'.startViewing sid target dropped) := by
  have hdrop : ∀ (viewer : Session) stream,
      SameRecord stream viewer (dropped.foldl Session.unsubscribe viewer) := by
    intro viewer stream
    induction dropped generalizing viewer with
    | nil => exact .refl _ _
    | cons old rest ih => exact (SameRecord.unsubscribe viewer stream old).trans (ih _)
  have hdropped : s.SameRecords (s'.modifySession sid fun session =>
      dropped.foldl Session.unsubscribe session) := h.modifySession (hdrop _)
  have hnotified : ∀ (s' : Server) (viewer : UserId), s.SameRecords s' → s.SameRecords
      (dropped.foldl (fun s' old => s'.notifyViewerChange old viewer false) s') :=
    fun s' viewer hs' => hs'.foldl (fun s' old hs' => hs'.notifyViewerChange _ _ _) _
  unfold Server.startViewing
  dsimp only
  split
  · have hasked := (hnotified _ (s'.sessions sid).userId
      (hdropped.subscribe sid target)).requestKeyframeFromSharer target (s'.sessions sid).userId
    exact hasked.notifyViewerChange _ _ _
  · exact hnotified _ _ hdropped

theorem screenShareView (h : s.SameRecords s') (sid : SessionId) (target : StreamId)
    (action : Option (BitVec 8)) : s.SameRecords (s'.screenShareView sid target action) := by
  unfold Server.screenShareView
  dsimp only
  repeat' split
  all_goals first
    | exact h
    | exact h.stopViewing _ _
    | exact h.startViewing _ _ _

/-- A request for a keyframe may note its time in the gate, and no more. -/
theorem handleVideoControl (h : s.SameRecords s') (sid : SessionId) (target : StreamId)
    (bucketAllows : Bool) : s.SameRecords (s'.handleVideoControl sid target bucketAllows) := by
  have hnote : ∀ gate : ViewerVideoGate,
      gate.awaitingKeyframe = ((s'.sessions sid).gate target).awaitingKeyframe →
        s.SameRecords (s'.readClock.modifySession sid fun session => session.setGate target gate) := by
    intro gate hgate
    refine h.readClock.modifySession fun stream =>
      .same rfl rfl (List.Subset.refl _) fun hin => ⟨hin, ?_⟩
    by_cases hstream : stream = target
    · subst hstream
      rw [Session.gate_setGate_self]
      exact hgate
    · rw [Session.gate_setGate_of_ne _ hstream]
  unfold Server.handleVideoControl
  split
  · exact h
  next session hsession =>
    have hsame : session = s'.sessions sid := by
      unfold getSession at hsession
      split at hsession
      · exact (Option.some.inj hsession).symm
      · cases hsession
    subst hsame
    split
    · exact h
    · split
      · exact h
      · split
        · exact h
        · split
          · exact h
          · have hnoted := hnote _ (ViewerVideoGate.allowKeyframeRequest_awaiting
              ((s'.sessions sid).gate target) s'.nowUs)
            dsimp only
            split
            · exact hnoted
            · exact hnoted.requestKeyframeFromSharer _ _

/-! ### The ingress queue -/

theorem dequeue (h : s.SameRecords s') (p : PendingVideoFrame) (rest : List PendingVideoFrame) :
    s.SameRecords (s'.dequeue p rest) := by
  have hqueue : s.SameRecords { s' with videoIncoming := rest } := h.elsewhere rfl
  exact hqueue.modifyElsewhere p.session
    (fun session => { session with videoPendingBytes := session.videoPendingBytes - p.size })
    fun _ => rfl

theorem enqueueVideoFrame (h : s.SameRecords s') (sid : SessionId) (source : VideoSource)
    (frame : ShareFrame) : s.SameRecords (s'.enqueueVideoFrame sid source frame) := by
  unfold Server.enqueueVideoFrame
  split
  · exact h
  · split
    · exact h
    next session _ =>
      dsimp only
      split
      · exact h.elsewhere rfl
      · split
        · exact h.elsewhere rfl
        · have hpushed : s.SameRecords ((s'.logReceived sid source frame).pushVideoIncoming sid
              source (.frame frame)) := h.elsewhere rfl
          exact hpushed.modifyElsewhere sid (fun viewer =>
            { viewer with videoPendingBytes := session.videoPendingBytes + frameSize frame })
            fun _ => rfl

theorem enqueueVideoEvent (h : s.SameRecords s') (sid : SessionId) (source : VideoSource)
    (event : IngressEvent) : s.SameRecords (s'.enqueueVideoEvent sid source event) := by
  unfold Server.enqueueVideoEvent
  split
  · exact h
  · split
    · exact h
    · exact h.elsewhere rfl

/-- A stream toward a viewer has shut down. -/
theorem videoOutShutdown (h : s.SameRecords s') (sid : SessionId) (handle : Nat) :
    s.SameRecords (s'.videoOutShutdown sid handle) :=
  h.modifySession fun _ =>
    .same rfl rfl (List.filter_subset_self _) fun hin => ⟨hin, rfl⟩

theorem sendDeferredKeyframeRequest (h : s.SameRecords s') (stream : StreamId) :
    s.SameRecords (s'.sendDeferredKeyframeRequest stream) := by
  unfold Server.sendDeferredKeyframeRequest
  split
  · exact h
  · exact h.elsewhere rfl

theorem processDisconnects (h : s.SameRecords s') : s.SameRecords s'.processDisconnects := by
  unfold Server.processDisconnects
  split
  · exact h
  next d rest _ =>
    have hqueue : s.SameRecords { s' with disconnects := rest } := h.elsewhere rfl
    exact hqueue.processDisconnect _ _ _

theorem handleMessage (h : s.SameRecords s') (sid : SessionId) (message : ControlMessage) :
    s.SameRecords (s'.handleMessage sid message) := by
  unfold Server.handleMessage
  split
  · exact h
  · cases message with
    | authIdentity auth nowS dbOk => exact h.authIdentity _ _ _ _
    | channelJoin channel voiceState => exact h.channelJoin _ _ _
    | channelLeave => exact h.channelLeave _
    | adminCreateChannel name maxUsers dbOk => exact h.adminCreateChannel _ _ _ _
    | adminDeleteChannel channel dbOk => exact h.adminDeleteChannel _ _ _
    | adminSetRole target newRole dbOk => exact h.adminSetRole _ _ _ _
    | adminKickUser target => exact h.adminKickUser _ _
    | screenShareStart codec width height source => exact h.screenShareStart _ _ _ _ _
    | screenShareUpdate codec width height source => exact h.screenShareUpdate _ _ _ _ _
    | screenShareStop source => exact h.screenShareStop _ _
    | screenShareView target action => exact h.screenShareView _ _ _

end SameRecords

/-- Only the frames of the streams prolong a record. -/
theorem sameRecords_step (s : Server) {op : ServerOp} (hop : op.isVideo = false) :
    s.SameRecords (s.step op) := by
  have h := SameRecords.refl s
  cases op with
  | connect => exact h.onNewConnection
  | shutdownComplete sid => exact h.onShutdownComplete sid
  | videoFrame sid source frame => exact h.enqueueVideoFrame _ _ _
  | videoFrameStarted sid source hdr => exact h.enqueueVideoEvent _ _ _
  | videoFrameAborted sid source frameSeq => exact h.enqueueVideoEvent _ _ _
  | videoOutShutdown sid handle => exact h.videoOutShutdown _ _
  | message sid message => exact h.handleMessage _ _
  | videoControl sid target bucketAllows => exact h.handleVideoControl _ _ _
  | processVideoFrame => cases hop
  | beginPass => exact h.elsewhere rfl
  | pollIngress stream => cases hop
  | sendDeferred stream => exact h.sendDeferredKeyframeRequest _
  | processDisconnect => exact h.processDisconnects

end Server

end Parties

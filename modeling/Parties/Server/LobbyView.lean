import Parties.Server.LobbyServer

/-!
# What the lobby depends on

Of the server the lobby sees who is signed in where, with which voice state, the channels
and the departures that wait. The video handlers change nothing of it and tell nothing about
it; the handlers of the lobby are reduced here to what they do to it and whom they tell.
-/

namespace Parties

open Parties.Video

structure Seat where
  authenticated : Bool
  userId : UserId
  channelId : ChannelId
  voice : VoiceState
  alive : Bool

structure Lobby where
  table : List SessionId
  next : SessionId
  seats : SessionId → Seat
  channels : List ChannelId
  disconnects : List SessionDisconnect

def Session.seat (session : Session) : Seat where
  authenticated := session.authenticated
  userId := session.userId
  channelId := session.channelId
  voice := (session.muted, session.deafened)
  alive := session.alive

/-- What a message of a handler leaves to other listeners. -/
def ServerMessage.Quiet : ServerMessage → Prop
  | .channelUserList .. | .userJoinedChannel .. | .userLeftChannel .. | .authResponse ..
  | .adminResult _ => False
  | _ => True

namespace Server

def lobby (s : Server) : Lobby where
  table := s.sessionTable
  next := s.nextSessionId
  seats sid := (s.sessions sid).seat
  channels := s.db.channels.map ChannelRow.id
  disconnects := s.disconnects

/-- Nothing happens in the lobby. -/
structure Still (s s' : Server) : Prop where
  lobby : s'.lobby = s.lobby
  told : ∃ added, s'.sent = s.sent ++ added ∧ ∀ m ∈ added, m.2.Quiet

variable {s s' s'' : Server}

/-- The sessions change in nothing the lobby sees. -/
theorem lobby_sessions {sessions : SessionId → Session}
    (h : ∀ sid, (sessions sid).seat = (s.sessions sid).seat) :
    { s with sessions := sessions }.lobby = s.lobby := by
  simp only [lobby, h]

namespace Still

theorem of_eq (hlobby : s'.lobby = s.lobby) (hsent : s'.sent = s.sent) : Still s s' :=
  ⟨hlobby, [], by rw [hsent, List.append_nil], fun m hm => by cases hm⟩

theorem refl (s : Server) : Still s s := of_eq rfl rfl

theorem trans (h : Still s s') (h' : Still s' s'') : Still s s'' := by
  refine ⟨h'.lobby.trans h.lobby, ?_⟩
  obtain ⟨added, hsent, hquiet⟩ := h.told
  obtain ⟨more, hsent', hquiet'⟩ := h'.told
  refine ⟨added ++ more, by rw [hsent', hsent, List.append_assoc], fun m hm => ?_⟩
  rcases List.mem_append.mp hm with hold | hnew
  · exact hquiet m hold
  · exact hquiet' m hnew

theorem sendTo (s : Server) (sid : SessionId) {message : ServerMessage} (hquiet : message.Quiet) :
    Still s (s.sendTo sid message) := by
  refine ⟨rfl, [(sid, message)], rfl, fun m hm => ?_⟩
  rw [List.mem_singleton.mp hm]
  exact hquiet

theorem sendToAll (s : Server) (picks : SessionId → Session → Bool) {message : ServerMessage}
    (hquiet : message.Quiet) : Still s (s.sendToAll picks message) := by
  refine ⟨rfl, _, rfl, fun m hm => ?_⟩
  obtain ⟨sid, _, rfl⟩ := List.mem_map.mp hm
  exact hquiet

theorem sessions (s : Server) {sessions : SessionId → Session}
    (h : ∀ sid, (sessions sid).seat = (s.sessions sid).seat) :
    Still s { s with sessions := sessions } :=
  of_eq (lobby_sessions h) rfl

theorem modifySession (s : Server) (sid : SessionId) {f : Session → Session}
    (hf : ∀ session, (f session).seat = session.seat) : Still s (s.modifySession sid f) := by
  refine .sessions s fun other => ?_
  by_cases hsid : other = sid
  · subst hsid
    rw [Function.update_self, hf]
  · rw [Function.update_of_ne hsid]

theorem modifySessions (s : Server) {f : Session → Session}
    (hf : ∀ session, (f session).seat = session.seat) : Still s (s.modifySessions f) := by
  refine .sessions s fun other => ?_
  split
  · exact hf _
  · rfl

/-- A loop whose body does nothing in the lobby. -/
theorem foldl {α : Type} {f : Server → α → Server} (hf : ∀ s a, Still s (f s a)) (s : Server)
    (l : List α) : Still s (l.foldl f s) :=
  Machine.run_preserves (fun s' a hs' => hs'.trans (hf s' a)) (.refl s) l

end Still

/-! ### Streams and subscriptions -/

theorem still_notifyViewerChange (s : Server) (stream : StreamId) (viewer : UserId)
    (watching : Bool) : Still s (s.notifyViewerChange stream viewer watching) := by
  unfold notifyViewerChange
  split
  · exact .refl s
  · split
    · exact .refl s
    · split
      · exact .refl s
      · split
        · exact .refl s
        · exact .sendTo s _ trivial

theorem still_clearViewerSubscriptions (s : Server) (sid : SessionId) (notify : Bool) :
    Still s (s.clearViewerSubscriptions sid notify) := by
  have hcleared := Still.modifySession s sid (f := Session.unsubscribeAll) fun _ => rfl
  unfold clearViewerSubscriptions
  dsimp only
  split
  · exact hcleared
  · exact hcleared.trans (.foldl (fun s stream => still_notifyViewerChange s _ _ _) _ _)

theorem still_unpublish (s : Server) (channel : ChannelId) (user : UserId) (source : VideoSource) :
    Still s (s.unpublish channel user source) := by
  unfold unpublish
  extract_lets stream s₁ s₂ s₃ s₄
  have hunlisted : Still s s₁ := .of_eq rfl rfl
  have hclosed : Still s₁ s₂ := by
    dsimp only [s₂]
    split
    · exact .refl s₁
    · exact .modifySession s₁ _ fun _ => rfl
  have hdropped : Still s₂ s₃ := .modifySessions s₂ fun _ => rfl
  have hcalled : Still s₃ s₄ := .of_eq rfl rfl
  have hstopped := hunlisted.trans (hclosed.trans (hdropped.trans hcalled))
  exact hstopped.trans (.sendToAll s₄ _ trivial)

theorem still_stopVideoStream (s : Server) (channel : ChannelId) (user : UserId)
    (source : VideoSource) : Still s (s.stopVideoStream channel user source) := by
  unfold stopVideoStream
  extract_lets stream s₁
  have hdropped : Still s s₁ := .of_eq rfl rfl
  split
  · exact hdropped
  · exact hdropped.trans (still_unpublish s₁ channel user source)

theorem still_stopAllVideoStreams (s : Server) (channel : ChannelId) (user : UserId) :
    Still s (s.stopAllVideoStreams channel user) :=
  (still_stopVideoStream s channel user .screen).trans (still_stopVideoStream _ channel user .camera)

theorem still_endShares (s : Server) (sid : SessionId) : Still s (s.endShares sid) := .of_eq rfl rfl

theorem still_announceVideoStream (s : Server) (viewer : SessionId) (stream : StreamId)
    (publisher : SessionId) (replay : Bool) :
    Still s (s.announceVideoStream viewer stream publisher replay) := by
  unfold announceVideoStream
  split
  · exact .refl s
  · split
    · exact .refl s
    · exact .sendTo s _ trivial

theorem still_replayStreams (s : Server) (sid : SessionId) (channel : ChannelId) :
    Still s (s.replayStreams sid channel) := by
  refine .foldl (fun s stream => ?_) s _
  split
  · exact .refl s
  · split
    · exact still_announceVideoStream s _ _ _ _
    · exact .refl s

theorem still_forgetSession (s : Server) (sid : SessionId) (user : UserId) :
    Still s (s.forgetSession sid user) := by
  unfold forgetSession
  extract_lets s₁
  have hindex : Still s s₁ := by
    show Still s (if _ then _ else _)
    split
    · exact .of_eq rfl rfl
    · exact .refl s
  split
  · exact hindex
  · have hmarks : Still s₁ { s₁ with
        authedSessions := Function.update s₁.authedSessions sid false } := .of_eq rfl rfl
    exact hindex.trans (hmarks.trans (.modifySession _ sid fun _ => rfl))

theorem still_requestKeyframe (s : Server) (stream : StreamId) (requester : UserId) :
    Still s (s.requestKeyframeFromSharer stream requester) := .of_eq rfl rfl

theorem still_setSourceInfo (s : Server) (sid : SessionId) (source : VideoSource)
    (codec : BitVec 8) (width height : BitVec 16) :
    Still s (s.setSourceInfo sid source codec width height) :=
  .modifySession s sid fun _ => rfl

theorem still_publish (s : Server) (sid : SessionId) (source : VideoSource) :
    Still s (s.publish sid source) := by
  unfold publish
  extract_lets channel stream s₁
  have hlisted : Still s s₁ := .of_eq rfl rfl
  exact hlisted.trans (.modifySession s₁ sid fun _ => rfl)

theorem still_screenShareStart (s : Server) (sid : SessionId) (codec : BitVec 8)
    (width height : BitVec 16) (sourceRaw : BitVec 8) :
    Still s (s.screenShareStart sid codec width height sourceRaw) := by
  unfold screenShareStart
  split
  · exact .refl s
  next source _ =>
    split
    · exact .refl s
    · extract_lets channel stream s₁ s₂
      have hlogged : Still s₁ s₂ := .of_eq rfl rfl
      have hstarted : Still s s₂ :=
        (still_publish s sid source).trans ((still_setSourceInfo _ sid source _ _ _).trans hlogged)
      refine hstarted.trans (.foldl (fun s viewer => ?_) s₂ _)
      split
      · exact still_announceVideoStream s _ _ _ _
      · exact .refl s

theorem still_screenShareUpdate (s : Server) (sid : SessionId) (codec : BitVec 8)
    (width height : BitVec 16) (sourceRaw : BitVec 8) :
    Still s (s.screenShareUpdate sid codec width height sourceRaw) := by
  unfold screenShareUpdate
  dsimp only
  split
  · exact .refl s
  · split
    · exact .refl s
    · split
      · exact .refl s
      · exact still_setSourceInfo s _ _ _ _ _

theorem still_screenShareStop (s : Server) (sid : SessionId) (sourceRaw : BitVec 8) :
    Still s (s.screenShareStop sid sourceRaw) := by
  unfold screenShareStop
  dsimp only
  split
  · exact .refl s
  · split
    · exact .refl s
    next source _ =>
      have hended : Still s (s.endShare sid source) := .of_eq rfl rfl
      exact hended.trans (still_stopVideoStream _ _ _ _)

theorem seat_unsubscribe (dropped : List StreamId) (session : Session) :
    (dropped.foldl Session.unsubscribe session).seat = session.seat := by
  induction dropped generalizing session with
  | nil => rfl
  | cons old rest ih => exact ih (session.unsubscribe old)

theorem still_screenShareView (s : Server) (sid : SessionId) (target : StreamId)
    (action : Option (BitVec 8)) : Still s (s.screenShareView sid target action) := by
  have hnotify : ∀ (s : Server) (user : UserId) (dropped : List StreamId),
      Still s (dropped.foldl (fun s old => s.notifyViewerChange old user false) s) :=
    fun s user dropped => .foldl (fun s old => still_notifyViewerChange s old user false) s dropped
  unfold screenShareView
  dsimp only
  split
  · exact .refl s
  · split
    · unfold stopViewing
      split
      · exact still_clearViewerSubscriptions s _ _
      · have hleft := Still.modifySession s sid (f := fun session => session.unsubscribe target)
          fun _ => rfl
        dsimp only
        split
        · exact hleft.trans (still_notifyViewerChange _ _ _ _)
        · exact hleft
    · split
      · exact .refl s
      · split
        · exact .refl s
        · unfold startViewing
          extract_lets session s₁ isNew s₂ s₃
          have hdropped : Still s s₁ := .modifySession s sid (seat_unsubscribe _)
          have hadded : Still s₁ s₂ := by
            show Still s₁ (if _ then _ else _)
            split
            · exact .modifySession s₁ sid fun _ => rfl
            · exact .refl s₁
          have hnotified : Still s s₃ := hdropped.trans (hadded.trans (hnotify s₂ _ _))
          split
          · exact hnotified.trans ((still_requestKeyframe s₃ _ _).trans
              (still_notifyViewerChange _ _ _ _))
          · exact hnotified

/-! ### The video path -/

theorem seat_offer (viewer : Session) (stream : StreamId) (hdr : VideoFrameHeader)
    (nowUs outstanding threshold : Int) (sent : Bool) :
    (viewer.offer stream hdr nowUs outstanding threshold sent).1.seat = viewer.seat := by
  have hsend : ∀ viewer : Session, (viewer.sendFrame stream hdr sent).seat = viewer.seat := by
    intro viewer
    unfold Session.sendFrame
    dsimp only
    split <;> split <;> rfl
  have hdrop : ∀ (viewer : Session) (was : Bool),
      (viewer.dropFrame stream was).seat = viewer.seat := by
    intro viewer was
    unfold Session.dropFrame
    split <;> rfl
  unfold Session.offer
  dsimp only
  split
  · exact (hsend _).trans rfl
  · exact (hdrop _ _).trans rfl

theorem still_forwardVideoFrame (s : Server) (sid : SessionId) (source : VideoSource)
    (frame : ShareFrame) : Still s (s.forwardVideoFrame sid source frame) := by
  have hoffered : ∀ channel stream hdr, Still s (s.offerAll sid channel stream hdr) := by
    intro channel stream hdr
    refine .sessions s fun other => ?_
    split
    · exact seat_offer ..
    · rfl
  unfold forwardVideoFrame
  split
  · exact .refl s
  · split
    · exact .refl s
    · dsimp only
      split
      · exact .refl s
      · split
        · exact .refl s
        · split
          · exact (hoffered _ _ _).trans (.of_eq rfl rfl)
          · exact (hoffered _ _ _).trans (.of_eq rfl rfl)

theorem still_onIngressEvents (stream : StreamId) (sid : SessionId) (source : VideoSource)
    (s : Server) (events : List (ReorderEvent ShareFrame)) :
    Still s (onIngressEvents stream sid source s events) := by
  induction events generalizing s with
  | nil => exact .refl s
  | cons event events ih =>
      cases event with
      | deliver seq frame =>
          have hlogged : Still s (s.modifyShareLog stream fun log =>
            { log with passedOn := log.passedOn ++ [frame] }) := .of_eq rfl rfl
          exact hlogged.trans ((still_forwardVideoFrame _ sid source frame).trans (ih _))
      | lost seq => exact (still_requestKeyframe s stream 0).trans (ih _)

theorem still_putIngress (s : Server) (stream : StreamId) (ingress : VideoIngress)
    (outcome : VideoFrameReorderBuffer ShareFrame × List (ReorderEvent ShareFrame)) :
    Still s (s.putIngress stream ingress outcome) := by
  have hput : Still s { s with
      videoIngress := Function.update s.videoIngress stream
        (some { ingress with reorder := outcome.1 }) } := .of_eq rfl rfl
  exact hput.trans (still_onIngressEvents ..)

theorem still_processIngressEvent (s : Server) (stream : StreamId) (ingress : VideoIngress)
    (event : IngressEvent) : Still s (s.processIngressEvent stream ingress event) := by
  have hread : Still s s.readClock := .of_eq rfl rfl
  unfold processIngressEvent
  split
  · exact hread.trans (still_putIngress ..)
  · exact hread.trans (still_putIngress ..)
  · dsimp only
    split
    · exact hread.trans (still_putIngress ..)
    · exact hread.trans ((still_putIngress ..).trans (still_requestKeyframe ..))
  · split
    · exact still_putIngress ..
    · exact hread.trans (still_putIngress ..)

theorem still_processVideoFrame (s : Server) : Still s s.processVideoFrame := by
  unfold processVideoFrame
  split
  · exact .refl s
  next p rest _ =>
    have hqueue : Still s { s with videoIncoming := rest } := .of_eq rfl rfl
    have htaken : Still s (s.dequeue p rest) := hqueue.trans (.modifySession _ _ fun _ => rfl)
    dsimp only
    split
    · exact htaken
    · exact htaken.trans (still_processIngressEvent ..)

theorem still_pollIngress (s : Server) (stream : StreamId) : Still s (s.pollIngress stream) := by
  unfold pollIngress
  split
  · split
    · exact .of_eq rfl rfl
    · dsimp only
      split
      · exact (still_putIngress ..).trans (still_requestKeyframe ..)
      · exact still_putIngress ..
  · exact .refl s

theorem still_sendDeferredKeyframeRequest (s : Server) (stream : StreamId) :
    Still s (s.sendDeferredKeyframeRequest stream) := by
  unfold sendDeferredKeyframeRequest
  split
  · exact .refl s
  · exact .of_eq rfl rfl

theorem still_enqueueVideoFrame (s : Server) (sid : SessionId) (source : VideoSource)
    (frame : ShareFrame) : Still s (s.enqueueVideoFrame sid source frame) := by
  unfold enqueueVideoFrame
  split
  · exact .refl s
  · split
    · exact .refl s
    · have hlogged : Still s (s.logReceived sid source frame) := .of_eq rfl rfl
      dsimp only
      split
      · exact hlogged
      · split
        · exact hlogged
        · have hpushed : Still (s.logReceived sid source frame)
            ((s.logReceived sid source frame).pushVideoIncoming sid source (.frame frame)) :=
              .of_eq rfl rfl
          exact hlogged.trans (hpushed.trans (.modifySession _ sid fun _ => rfl))

theorem still_enqueueVideoEvent (s : Server) (sid : SessionId) (source : VideoSource)
    (event : IngressEvent) : Still s (s.enqueueVideoEvent sid source event) := by
  unfold enqueueVideoEvent
  split
  · exact .refl s
  · split
    · exact .refl s
    · exact .of_eq rfl rfl

theorem still_handleVideoControl (s : Server) (sid : SessionId) (target : StreamId)
    (bucketAllows : Bool) : Still s (s.handleVideoControl sid target bucketAllows) := by
  have hgate : ∀ gate, Still s (s.readClock.modifySession sid fun session =>
      session.setGate target gate) := by
    intro gate
    have hread : Still s s.readClock := .of_eq rfl rfl
    exact hread.trans (.modifySession _ sid fun _ => rfl)
  unfold handleVideoControl
  repeat' split
  all_goals first
    | exact .refl s
    | exact hgate _
    | exact (hgate _).trans (still_requestKeyframe ..)

end Server

end Parties

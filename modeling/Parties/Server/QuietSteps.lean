import Parties.Server.RegistryRuns

/-!
# Handlers that change no roles

What the handlers besides the login and `ADMIN_SET_ROLE` send is stated here for any
property of messages, together with what they leave alone: the table of users and the
roles and logins of the sessions.
-/

namespace Parties

open Parties.Video

namespace Server

/-- From `s` to `s'` nobody signs in, all roles stay, and what is sent meets `P`. -/
structure Quiet (P : ServerMessage → Prop) (s s' : Server) : Prop where
  users : s'.db.users = s.db.users
  table : s'.sessionTable ⊆ s.sessionTable
  roles : ∀ sid, (s'.sessions sid).role = (s.sessions sid).role
  logins : ∀ sid, (s'.sessions sid).authenticated = true →
    (s.sessions sid).authenticated = true ∧ (s'.sessions sid).userId = (s.sessions sid).userId
  sent : ∃ added, s'.sent = s.sent ++ added ∧ ∀ m ∈ added, P m.2

/-- The announcements of streams and departures meet `P`. -/
structure Announced (P : ServerMessage → Prop) : Prop where
  left : ∀ user channel, P (.userLeftChannel user channel)
  started : ∀ stream codec width height replay,
    P (.screenShareStarted stream codec width height replay)
  stopped : ∀ stream, P (.screenShareStopped stream)
  viewer : ∀ viewer watching, P (.screenShareViewer viewer watching)

/-- So do the answers, and the users that are shown with a role of one of the sessions. -/
structure Answered (P : ServerMessage → Prop) (s : Server) : Prop extends Announced P where
  error : ∀ code text, P (.serverError code text)
  result : ∀ text, P (.adminResult text)
  list : ∀ channel users, (∀ user ∈ users, ∃ sid, user.role = (s.sessions sid).role) →
    P (.channelUserList channel users)
  joined : ∀ (user : ChannelUser) channel, (∃ sid, user.role = (s.sessions sid).role) →
    P (.userJoinedChannel user channel)

variable {P : ServerMessage → Prop} {s s' s'' : Server}

theorem sessions_modifySession (sid : SessionId) (f : Session → Session) :
    (s.modifySession sid f).sessions = Function.update s.sessions sid (f (s.sessions sid)) := rfl

namespace Quiet

/-! ### Changes of the state -/

theorem refl (P : ServerMessage → Prop) (s : Server) : Quiet P s s where
  users := rfl
  table := List.Subset.refl _
  roles _ := rfl
  logins _ hauth := ⟨hauth, rfl⟩
  sent := ⟨[], (List.append_nil _).symm, fun m hm => by cases hm⟩

theorem trans (h : Quiet P s s') (h' : Quiet P s' s'') : Quiet P s s'' where
  users := h'.users.trans h.users
  table := List.Subset.trans h'.table h.table
  roles sid := (h'.roles sid).trans (h.roles sid)
  logins sid hauth := by
    obtain ⟨hauth', huser'⟩ := h'.logins sid hauth
    obtain ⟨hauth'', huser⟩ := h.logins sid hauth'
    exact ⟨hauth'', huser'.trans huser⟩
  sent := by
    obtain ⟨added, hsent, hadded⟩ := h.sent
    obtain ⟨more, hsent', hmore⟩ := h'.sent
    refine ⟨added ++ more, by rw [hsent', hsent, List.append_assoc], fun m hm => ?_⟩
    rcases List.mem_append.mp hm with hold | hnew
    · exact hadded m hold
    · exact hmore m hnew

/-- What is sent meets a weaker property. -/
theorem imp {Q : ServerMessage → Prop} (h : Quiet P s s') (hPQ : ∀ message, P message → Q message) :
    Quiet Q s s' := by
  obtain ⟨added, hsent, hadded⟩ := h.sent
  exact { h with sent := ⟨added, hsent, fun m hm => hPQ _ (hadded m hm)⟩ }

/-- The next change is outside of what is looked at here. -/
theorem elsewhere (h : Quiet P s s') (husers : s''.db.users = s'.db.users)
    (htable : s''.sessionTable = s'.sessionTable) (hsessions : s''.sessions = s'.sessions)
    (hsent : s''.sent = s'.sent) : Quiet P s s'' := by
  refine h.trans ⟨husers, htable ▸ List.Subset.refl _, fun _ => by rw [hsessions], ?_, ?_⟩
  · intro sid hauth
    rw [hsessions] at hauth ⊢
    exact ⟨hauth, rfl⟩
  · exact ⟨[], by rw [hsent, List.append_nil], fun m hm => by cases hm⟩

/-- The next change does not act on the registry. -/
theorem offRegistry (h : Quiet P s s') (hregistry : s''.registry = s'.registry)
    (hsent : s''.sent = s'.sent) : Quiet P s s'' := by
  have hmember : ∀ sid, (s''.sessions sid).member = (s'.sessions sid).member :=
    fun sid => congrFun (congrArg Registry.members hregistry) sid
  refine h.trans ⟨?_, ?_, fun sid => congrArg Member.role (hmember sid), fun sid hauth => ?_, ?_⟩
  · exact congrArg (fun r => r.db.users) hregistry
  · have htable : s''.sessionTable = s'.sessionTable := congrArg Registry.table hregistry
    rw [htable]
    exact List.Subset.refl _
  · exact ⟨(congrArg Member.authenticated (hmember sid)).symm.trans hauth,
      congrArg Member.userId (hmember sid)⟩
  · exact ⟨[], by rw [hsent, List.append_nil], fun m hm => by cases hm⟩

theorem sendTo (h : Quiet P s s') (sid : SessionId) {message : ServerMessage}
    (hmessage : P message) : Quiet P s (s'.sendTo sid message) := by
  refine h.trans ⟨rfl, List.Subset.refl _, fun _ => rfl, fun _ hauth => ⟨hauth, rfl⟩, ?_⟩
  refine ⟨[(sid, message)], rfl, fun m hm => ?_⟩
  rw [List.mem_singleton.mp hm]
  exact hmessage

theorem sendToAll (h : Quiet P s s') (picks : SessionId → Session → Bool)
    {message : ServerMessage} (hmessage : P message) : Quiet P s (s'.sendToAll picks message) := by
  refine h.trans ⟨rfl, List.Subset.refl _, fun _ => rfl, fun _ hauth => ⟨hauth, rfl⟩, ?_⟩
  refine ⟨_, rfl, fun m hm => ?_⟩
  obtain ⟨sid, _, rfl⟩ := List.mem_map.mp hm
  exact hmessage

theorem keyframeCall (h : Quiet P s s') (c : KeyframeCall) : Quiet P s (s'.keyframeCall c) :=
  h.elsewhere rfl rfl rfl rfl

/-- A session changes, but not its role, and it is not signed in. -/
theorem modifySession (h : Quiet P s s') (sid : SessionId) {f : Session → Session}
    (hrole : ∀ session, (f session).role = session.role)
    (hlogin : ∀ session, (f session).authenticated = true →
      session.authenticated = true ∧ (f session).userId = session.userId) :
    Quiet P s (s'.modifySession sid f) := by
  refine h.trans ⟨rfl, List.Subset.refl _, fun other => ?_, fun other hauth => ?_,
    [], (List.append_nil _).symm, fun m hm => by cases hm⟩
  · by_cases hsid : other = sid
    · subst hsid
      rw [sessions_modifySession, Function.update_self, hrole]
    · rw [sessions_modifySession, Function.update_of_ne hsid]
  · by_cases hsid : other = sid
    · subst hsid
      rw [sessions_modifySession, Function.update_self] at hauth ⊢
      exact hlogin _ hauth
    · rw [sessions_modifySession, Function.update_of_ne hsid] at hauth ⊢
      exact ⟨hauth, rfl⟩

/-- Such a change of every session. -/
theorem modifySessions (h : Quiet P s s') {f : Session → Session}
    (hrole : ∀ session, (f session).role = session.role)
    (hlogin : ∀ session, (f session).authenticated = true →
      session.authenticated = true ∧ (f session).userId = session.userId) :
    Quiet P s (s'.modifySessions f) := by
  refine h.trans ⟨rfl, List.Subset.refl _, fun sid => ?_, fun sid hauth => ?_,
    [], (List.append_nil _).symm, fun m hm => by cases hm⟩
  · rw [Server.modifySessions]
    dsimp only
    split
    · exact hrole _
    · rfl
  · rw [Server.modifySessions] at hauth ⊢
    dsimp only at hauth ⊢
    split at hauth
    next hin =>
      rw [if_pos hin]
      exact hlogin _ hauth
    next hout =>
      rw [if_neg hout]
      exact ⟨hauth, rfl⟩

/-- A loop whose body is quiet. -/
theorem foldl {α : Type} {f : Server → α → Server} (h : Quiet P s s')
    (hf : ∀ s' a, Quiet P s s' → Quiet P s (f s' a)) (l : List α) : Quiet P s (l.foldl f s') :=
  Machine.run_preserves hf h l

theorem requestKeyframeFromSharer (h : Quiet P s s') (stream : StreamId) (requester : UserId) :
    Quiet P s (s'.requestKeyframeFromSharer stream requester) :=
  h.elsewhere rfl rfl rfl rfl

/-! ### Streams and departures -/

theorem notifyViewerChange (hP : Announced P) (h : Quiet P s s') (stream : StreamId)
    (viewer : UserId) (watching : Bool) : Quiet P s (s'.notifyViewerChange stream viewer watching) := by
  unfold Server.notifyViewerChange
  split
  · exact h
  · split
    · exact h
    · split
      · exact h
      · split
        · exact h
        · exact h.sendTo _ (hP.viewer _ _)

theorem clearViewerSubscriptions (hP : Announced P) (h : Quiet P s s') (sid : SessionId)
    (notify : Bool) : Quiet P s (s'.clearViewerSubscriptions sid notify) := by
  have hcleared : Quiet P s (s'.modifySession sid Session.unsubscribeAll) :=
    h.modifySession sid (fun _ => rfl) fun _ hauth => ⟨hauth, rfl⟩
  unfold Server.clearViewerSubscriptions
  dsimp only
  split
  · exact hcleared
  · exact hcleared.foldl (fun s' stream hs' => hs'.notifyViewerChange hP _ _ _) _

theorem unpublish (hP : Announced P) (h : Quiet P s s') (channel : ChannelId) (user : UserId)
    (source : VideoSource) : Quiet P s (s'.unpublish channel user source) := by
  unfold Server.unpublish
  dsimp only
  apply sendToAll _ _ (hP.stopped _)
  apply keyframeCall
  refine modifySessions ?_ (fun _ => rfl) fun _ hauth => ⟨hauth, rfl⟩
  split
  · exact h.elsewhere rfl rfl rfl rfl
  · refine modifySession ?_ _ (fun _ => rfl) fun _ hauth => ⟨hauth, rfl⟩
    exact h.elsewhere rfl rfl rfl rfl

theorem stopVideoStream (hP : Announced P) (h : Quiet P s s') (channel : ChannelId)
    (user : UserId) (source : VideoSource) :
    Quiet P s (s'.stopVideoStream channel user source) := by
  unfold Server.stopVideoStream
  dsimp only
  split
  · exact h.elsewhere rfl rfl rfl rfl
  · refine unpublish hP ?_ _ _ _
    exact h.elsewhere rfl rfl rfl rfl

theorem stopAllVideoStreams (hP : Announced P) (h : Quiet P s s') (channel : ChannelId)
    (user : UserId) : Quiet P s (s'.stopAllVideoStreams channel user) :=
  (h.stopVideoStream hP channel user .screen).stopVideoStream hP channel user .camera

theorem endShares (h : Quiet P s s') (sid : SessionId) : Quiet P s (s'.endShares sid) :=
  h.elsewhere rfl rfl rfl rfl

theorem announceVideoStream (hP : Announced P) (h : Quiet P s s') (viewer : SessionId)
    (stream : StreamId) (publisher : SessionId) (replay : Bool) :
    Quiet P s (s'.announceVideoStream viewer stream publisher replay) := by
  unfold Server.announceVideoStream
  split
  · exact h
  · split
    · exact h
    · exact h.sendTo _ (hP.started _ _ _ _ _)

theorem forgetSession (h : Quiet P s s') (sid : SessionId) (user : UserId) :
    Quiet P s (s'.forgetSession sid user) := by
  have hindex : Quiet P s (if s'.userSessions user = some sid then
      { s' with userSessions := Function.update s'.userSessions user none } else s') := by
    split
    · exact h.elsewhere rfl rfl rfl rfl
    · exact h
  unfold Server.forgetSession
  extract_lets t
  split
  · exact hindex
  · refine modifySession ?_ sid (fun _ => rfl) fun _ hauth => ⟨hauth, rfl⟩
    exact hindex.elsewhere rfl rfl rfl rfl

theorem processDisconnect (hP : Announced P) (h : Quiet P s s') (sid : SessionId) (user : UserId)
    (channel : ChannelId) : Quiet P s (s'.processDisconnect sid user channel) := by
  have hforgotten := h.forgetSession sid user
  unfold Server.processDisconnect
  dsimp only
  split
  · exact hforgotten
  · split
    · split
      · exact hforgotten.clearViewerSubscriptions hP _ _
      · exact hforgotten
    · apply sendToAll _ _ (hP.left _ _)
      split
      · exact (hforgotten.stopAllVideoStreams hP _ _).clearViewerSubscriptions hP _ _
      · exact hforgotten.stopAllVideoStreams hP _ _

theorem processDisconnects (hP : Announced P) (h : Quiet P s s') :
    Quiet P s s'.processDisconnects := by
  unfold Server.processDisconnects
  split
  · exact h
  · refine processDisconnect hP ?_ _ _ _
    exact h.elsewhere rfl rfl rfl rfl

/-! ### Connections -/

theorem retire (h : Quiet P s s') (sid : SessionId) :
    Quiet P s (s'.modifySession sid fun session => { session with alive := false }) :=
  h.modifySession sid (fun _ => rfl) fun _ hauth => ⟨hauth, rfl⟩

theorem disconnect (h : Quiet P s s') (sid : SessionId) : Quiet P s (s'.disconnect sid) := by
  unfold Server.disconnect
  split
  · exact h
  · exact (h.endShares sid).retire sid

theorem onShutdownComplete (h : Quiet P s s') (sid : SessionId) :
    Quiet P s (s'.onShutdownComplete sid) := by
  unfold Server.onShutdownComplete
  split
  · exact h
  · have hretired := (h.endShares sid).retire sid
    refine hretired.trans ⟨rfl, List.filter_subset_self _, fun _ => rfl, fun _ hauth => ⟨hauth, rfl⟩,
      [], (List.append_nil _).symm, fun m hm => by cases hm⟩

/-- Older sessions of the identity end before a login. -/
theorem kickDuplicates (hP : Announced P) (herror : ∀ code text, P (.serverError code text))
    (h : Quiet P s s') (sid : SessionId) (key : PublicKey) :
    Quiet P s (s'.kickDuplicates sid key) := by
  refine h.foldl (fun s' other hs' => ?_) _
  split
  · have hended := ((hs'.sendTo other (herror .replaced "Signed in from another location")).endShares
      other).processDisconnect hP other (s'.sessions other).userId (s'.sessions other).channelId
    refine disconnect (hended.modifySession other ?_ ?_) other
    · exact fun _ => rfl
    · intro session hauth
      cases hauth
  · exact hs'

/-! ### Channels -/

theorem leaveChannel (hP : Announced P) (h : Quiet P s s') (sid : SessionId) :
    Quiet P s (s'.leaveChannel sid) := by
  have hstopped := ((h.endShares sid).stopAllVideoStreams hP (s'.sessions sid).channelId
    (s'.sessions sid).userId).clearViewerSubscriptions hP sid true
  unfold Server.leaveChannel
  refine sendToAll (hstopped.modifySession sid ?_ ?_) _ (hP.left _ _)
  · exact fun _ => rfl
  · exact fun _ hauth => ⟨hauth, rfl⟩

theorem replayStreams (hP : Announced P) (h : Quiet P s s') (sid : SessionId)
    (channel : ChannelId) : Quiet P s (s'.replayStreams sid channel) := by
  refine h.foldl (fun s' stream hs' => ?_) _
  split
  · exact hs'
  · split
    · exact hs'.announceVideoStream hP _ _ _ _
    · exact hs'

theorem role_of_channelUsers {channel : ChannelId} {user : ChannelUser}
    (hin : user ∈ s.channelUsers channel) : ∃ sid, user.role = (s.sessions sid).role := by
  obtain ⟨session, hsession, hshown⟩ := List.mem_filterMap.mp hin
  obtain ⟨sid, _, rfl⟩ := List.mem_map.mp hsession
  split at hshown
  · cases hshown
    exact ⟨sid, rfl⟩
  · cases hshown

/-- The roles in the list of a channel are those of sessions. -/
theorem sendChannelUsers (h : Quiet P s s') (hP : Answered P s) (sid : SessionId)
    (channel : ChannelId) :
    Quiet P s (s'.sendTo sid (.channelUserList channel (s'.channelUsers channel))) := by
  apply h.sendTo
  apply hP.list
  intro user hin
  obtain ⟨other, hrole⟩ := role_of_channelUsers hin
  exact ⟨other, hrole.trans (h.roles other)⟩

theorem channelJoin (hP : Answered P s) (h : Quiet P s s') (sid : SessionId) (channel : ChannelId)
    (voiceState : Option (Bool × Bool)) : Quiet P s (s'.channelJoin sid channel voiceState) := by
  have henter : ∀ s' : Server, Quiet P s s' →
      Quiet P s (s'.modifySession sid fun session => session.enter channel voiceState) := by
    intro s' hs'
    cases voiceState with
    | none => exact hs'.modifySession sid (fun _ => rfl) fun _ hauth => ⟨hauth, rfl⟩
    | some flags => exact hs'.modifySession sid (fun _ => rfl) fun _ hauth => ⟨hauth, rfl⟩
  unfold Server.channelJoin
  split
  · exact h
  · split
    · exact h.sendTo _ (hP.error _ _)
    · dsimp only
      have hleft : Quiet P s (if (s'.sessions sid).channelId ≠ 0 ∧
          (s'.sessions sid).channelId ≠ channel then s'.leaveChannel sid else s') := by
        split
        · exact h.leaveChannel hP.toAnnounced sid
        · exact h
      have hentered := henter _ hleft
      have hreplayed := (hentered.sendChannelUsers hP sid channel).replayStreams
        hP.toAnnounced sid channel
      exact hreplayed.sendToAll _ (hP.joined _ _ ⟨sid, hreplayed.roles sid⟩)

theorem channelLeave (hP : Announced P) (h : Quiet P s s') (sid : SessionId) :
    Quiet P s (s'.channelLeave sid) := by
  unfold Server.channelLeave
  split
  · exact h
  · exact h.leaveChannel hP sid

/-! ### Administration -/

theorem adminCreateChannel (hP : Answered P s) (h : Quiet P s s') (sid : SessionId) (name : String)
    (maxUsers : Int) (dbOk : Bool) :
    Quiet P s (s'.adminCreateChannel sid name maxUsers dbOk) := by
  unfold Server.adminCreateChannel
  split
  · exact h
  · split
    · exact h.sendTo _ (hP.error _ _)
    · split
      · exact h
      · split
        · exact h.sendTo _ (hP.error _ _)
        next db hcreate =>
          refine sendTo ?_ sid (hP.result _)
          refine h.elsewhere ?_ rfl rfl rfl
          split at hcreate
          · unfold Database.createChannel at hcreate
            split at hcreate
            · cases hcreate
            · cases hcreate
              rfl
          · cases hcreate

theorem evictStreams (hP : Announced P) (h : Quiet P s s') (channel : ChannelId) :
    Quiet P s (s'.evictStreams channel) := by
  refine h.foldl (fun s' sid hs' => ?_) _
  split
  · exact ((hs'.endShares sid).stopAllVideoStreams hP _ _).clearViewerSubscriptions hP _ _
  · exact hs'

theorem evictUsers (hP : Announced P) (h : Quiet P s s') (channel : ChannelId) :
    Quiet P s (s'.evictUsers channel) := by
  refine h.foldl (fun s' sid hs' => ?_) _
  split
  · refine sendTo (hs'.modifySession sid ?_ ?_) sid (hP.left _ _)
    · exact fun _ => rfl
    · exact fun _ hauth => ⟨hauth, rfl⟩
  · exact hs'

theorem adminDeleteChannel (hP : Answered P s) (h : Quiet P s s') (sid : SessionId)
    (channel : ChannelId) (dbOk : Bool) : Quiet P s (s'.adminDeleteChannel sid channel dbOk) := by
  have hevicted := (h.evictStreams hP.toAnnounced channel).evictUsers hP.toAnnounced channel
  unfold Server.adminDeleteChannel
  split
  · exact h
  · split
    · exact h.sendTo _ (hP.error _ _)
    · dsimp only
      split
      · exact hevicted.sendTo _ (hP.error _ _)
      · refine sendTo ?_ sid (hP.result _)
        exact hevicted.elsewhere rfl rfl rfl rfl

theorem kickAll (hP : Answered P s) (h : Quiet P s s') (sid : SessionId) (target : UserId)
    (others : List SessionId) : Quiet P s (s'.kickAll sid target others) := by
  induction others generalizing s' with
  | nil => exact h
  | cons other rest ih =>
      unfold Server.kickAll
      dsimp only
      split
      · split
        · exact h.sendTo _ (hP.error _ _)
        · exact ih (disconnect (h.sendTo other (hP.error _ _)) other)
      · exact ih h

theorem adminKickUser (hP : Answered P s) (h : Quiet P s s') (sid : SessionId) (target : UserId) :
    Quiet P s (s'.adminKickUser sid target) := by
  unfold Server.adminKickUser
  split
  · exact h
  · split
    · exact h.sendTo _ (hP.error _ _)
    · exact (h.kickAll hP sid target _).sendTo _ (hP.result _)

/-! ### Shares -/

theorem setSourceInfo (h : Quiet P s s') (sid : SessionId) (source : VideoSource)
    (codec : BitVec 8) (width height : BitVec 16) :
    Quiet P s (s'.setSourceInfo sid source codec width height) :=
  h.modifySession sid (fun _ => rfl) fun _ hauth => ⟨hauth, rfl⟩

theorem screenShareStart (hP : Announced P) (h : Quiet P s s') (sid : SessionId)
    (codec : BitVec 8) (width height : BitVec 16) (sourceRaw : BitVec 8) :
    Quiet P s (s'.screenShareStart sid codec width height sourceRaw) := by
  unfold Server.screenShareStart
  split
  · exact h
  next source _ =>
    split
    · exact h
    · have hpublished : Quiet P s (s'.publish sid source) := by
        unfold Server.publish
        refine modifySession ?_ sid (fun _ => rfl) fun _ hauth => ⟨hauth, rfl⟩
        exact h.elsewhere rfl rfl rfl rfl
      have hlogged : Quiet P s (((s'.publish sid source).setSourceInfo sid source codec width
          height).logStart sid source) :=
        (hpublished.setSourceInfo sid source codec width height).elsewhere rfl rfl rfl rfl
      refine hlogged.foldl (fun s' viewer hs' => ?_) _
      split
      · exact hs'.announceVideoStream hP _ _ _ _
      · exact hs'

theorem screenShareUpdate (h : Quiet P s s') (sid : SessionId) (codec : BitVec 8)
    (width height : BitVec 16) (sourceRaw : BitVec 8) :
    Quiet P s (s'.screenShareUpdate sid codec width height sourceRaw) := by
  unfold Server.screenShareUpdate
  dsimp only
  split
  · exact h
  · split
    · exact h
    · split
      · exact h
      · exact h.setSourceInfo _ _ _ _ _

theorem screenShareStop (hP : Announced P) (h : Quiet P s s') (sid : SessionId)
    (sourceRaw : BitVec 8) : Quiet P s (s'.screenShareStop sid sourceRaw) := by
  unfold Server.screenShareStop
  dsimp only
  split
  · exact h
  · split
    · exact h
    · refine stopVideoStream hP ?_ _ _ _
      exact h.elsewhere rfl rfl rfl rfl

theorem screenShareView (hP : Announced P) (h : Quiet P s s') (sid : SessionId) (target : StreamId)
    (action : Option (BitVec 8)) : Quiet P s (s'.screenShareView sid target action) := by
  have hlogin : ∀ (f : Session → Session), (∀ session, (f session).member = session.member) →
      ∀ s' : Server, Quiet P s s' → Quiet P s (s'.modifySession sid f) := by
    intro f hf s' hs'
    refine hs'.modifySession sid (fun session => congrArg Member.role (hf session)) ?_
    intro session hauth
    exact ⟨(congrArg Member.authenticated (hf session)).symm.trans hauth,
      congrArg Member.userId (hf session)⟩
  have hdrop : ∀ (dropped : List StreamId) (session : Session),
      (dropped.foldl Session.unsubscribe session).member = session.member := by
    intro dropped
    induction dropped with
    | nil => exact fun _ => rfl
    | cons old rest ih => exact fun session => ih (session.unsubscribe old)
  unfold Server.screenShareView
  dsimp only
  split
  · exact h
  · split
    · unfold stopViewing
      split
      · exact h.clearViewerSubscriptions hP _ _
      · dsimp only
        have hleft := hlogin (fun session => session.unsubscribe target) (fun _ => rfl) s' h
        split
        · exact hleft.notifyViewerChange hP _ _ _
        · exact hleft
    · split
      · exact h
      · split
        · exact h
        · unfold startViewing
          dsimp only
          have hdropped := hlogin _ (hdrop (if action.isSome then [] else
            (s'.sessions sid).subscribedSharers.filter (· ≠ target))) s' h
          split
          · refine notifyViewerChange hP ?_ _ _ _
            apply requestKeyframeFromSharer
            refine foldl ?_ (fun s' old hs' => hs'.notifyViewerChange hP _ _ _) _
            refine hlogin _ ?_ _ hdropped
            exact fun _ => rfl
          · exact hdropped.foldl (fun s' old hs' => hs'.notifyViewerChange hP _ _ _) _

end Quiet

/-! ### The video path -/

theorem sent_forwardVideoFrame (sid : SessionId) (source : VideoSource) (frame : ShareFrame) :
    (s.forwardVideoFrame sid source frame).sent = s.sent := by
  unfold forwardVideoFrame
  split
  · rfl
  · split
    · rfl
    · dsimp only
      split
      · rfl
      · split
        · rfl
        · split <;> rfl

theorem sent_onIngressEvents (stream : StreamId) (sid : SessionId) (source : VideoSource)
    (events : List (ReorderEvent ShareFrame)) :
    (onIngressEvents stream sid source s events).sent = s.sent := by
  induction events generalizing s with
  | nil => rfl
  | cons event events ih =>
      cases event with
      | deliver seq frame => exact ih.trans (sent_forwardVideoFrame sid source frame)
      | lost seq => exact ih

theorem sent_putIngress (stream : StreamId) (ingress : VideoIngress)
    (outcome : VideoFrameReorderBuffer ShareFrame × List (ReorderEvent ShareFrame)) :
    (s.putIngress stream ingress outcome).sent = s.sent :=
  sent_onIngressEvents ..

theorem sent_processVideoFrame : s.processVideoFrame.sent = s.sent := by
  unfold processVideoFrame
  split
  · rfl
  · dsimp only
    split
    · rfl
    · unfold processIngressEvent
      split
      · exact sent_putIngress ..
      · exact sent_putIngress ..
      · dsimp only
        split
        · exact sent_putIngress ..
        · exact sent_putIngress ..
      · split
        · exact sent_putIngress ..
        · exact sent_putIngress ..

theorem sent_pollIngress (stream : StreamId) : (s.pollIngress stream).sent = s.sent := by
  unfold pollIngress
  split
  · split
    · rfl
    · dsimp only
      split
      · exact sent_putIngress ..
      · exact sent_putIngress ..
  · rfl

theorem sent_sendDeferredKeyframeRequest (stream : StreamId) :
    (s.sendDeferredKeyframeRequest stream).sent = s.sent := by
  unfold sendDeferredKeyframeRequest
  split <;> rfl

theorem sent_enqueueVideoFrame (sid : SessionId) (source : VideoSource) (frame : ShareFrame) :
    (s.enqueueVideoFrame sid source frame).sent = s.sent := by
  unfold enqueueVideoFrame
  split
  · rfl
  · split
    · rfl
    · dsimp only
      split
      · rfl
      · split <;> rfl

theorem sent_enqueueVideoEvent (sid : SessionId) (source : VideoSource) (event : IngressEvent) :
    (s.enqueueVideoEvent sid source event).sent = s.sent := by
  unfold enqueueVideoEvent
  split
  · rfl
  · split <;> rfl

theorem sent_handleVideoControl (sid : SessionId) (target : StreamId) (bucketAllows : Bool) :
    (s.handleVideoControl sid target bucketAllows).sent = s.sent := by
  unfold handleVideoControl
  repeat' split
  all_goals rfl

/-! ### Steps -/

/-- The messages that neither log in nor set a role. -/
def ControlMessage.KeepsRoles : ControlMessage → Prop
  | .authIdentity .. | .adminSetRole .. => False
  | _ => True

theorem quiet_handleMessage (hP : Answered P s) (sid : SessionId) {message : ControlMessage}
    (hkeeps : ControlMessage.KeepsRoles message) : Quiet P s (s.handleMessage sid message) := by
  have h := Quiet.refl P s
  unfold handleMessage
  split
  · exact h
  · cases message with
    | authIdentity | adminSetRole => exact hkeeps.elim
    | channelJoin channel voiceState => exact h.channelJoin hP _ _ _
    | channelLeave => exact h.channelLeave hP.toAnnounced _
    | adminCreateChannel name maxUsers dbOk => exact h.adminCreateChannel hP _ _ _ _
    | adminDeleteChannel channel dbOk => exact h.adminDeleteChannel hP _ _ _
    | adminKickUser target => exact h.adminKickUser hP _ _
    | screenShareStart codec width height source =>
        exact h.screenShareStart hP.toAnnounced _ _ _ _ _
    | screenShareUpdate codec width height source => exact h.screenShareUpdate _ _ _ _ _
    | screenShareStop source => exact h.screenShareStop hP.toAnnounced _ _
    | screenShareView target action => exact h.screenShareView hP.toAnnounced _ _ _

end Server

end Parties

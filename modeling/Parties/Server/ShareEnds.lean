import Parties.Server.RunningShares

/-!
# The ends of shares

Whatever a handler does, it ends shares in the record exactly where it takes the flag of
their source or the session they run on. So no handler but those that start shares and
take frames in moves the record of a share on.
-/

namespace Parties

open Parties.Video

namespace Server

variable {s s' : Server} {sid : SessionId}

namespace SharesTracked

/-! ### Connections and logins -/

theorem connect (h : s.SharesTracked) : s.EndsShares s.onNewConnection := by
  have hregistry : s.onNewConnection.registry = s.registry.connect := registry_onNewConnection
  have hinOrder : s.onNewConnection.registry.InOrder := by
    rw [hregistry]
    exact h.inOrder.connect.inOrder
  apply h.same hinOrder rfl
  intro stream sid generation
  rw [hregistry, Registry.runs_connect h.inOrder.consistent]

theorem onShutdownComplete (h : s.SharesTracked) (sid : SessionId) :
    s.EndsShares (s.onShutdownComplete sid) := by
  by_cases hin : sid ∈ s.sessionTable
  · have hregistry := registry_onShutdownComplete hin
    apply h.ended (hregistry ▸ (h.inOrder.depart hin).inOrder) (shareRecord_onShutdownComplete hin)
    intro stream other generation
    rw [hregistry, Registry.runs_depart]
  · have hsame : s.onShutdownComplete sid = s := by
      simp [Server.onShutdownComplete, getSession, hin]
    rw [hsame]
    exact .refl h

theorem disconnect (h : s.SharesTracked) (hin : sid ∈ s.sessionTable) :
    s.EndsShares (s.disconnect sid) := by
  have hregistry := registry_disconnect hin
  apply h.ended (hregistry ▸ (h.inOrder.retire sid).inOrder) (shareRecord_disconnect hin)
  intro stream other generation
  rw [hregistry, Registry.runs_retire]

end SharesTracked

/-- Once the shares of a session have ended, nothing is left to end. -/
theorem shareLog_endShares_of_ended
    (h : ∀ stream, ((s.shareLog stream).runsOn.any fun on => on.1 = sid) = false) :
    (s.endShares sid).shareLog = s.shareLog := by
  funext stream
  have hnot : ∀ stream user source, ¬ (stream = videoStreamId user source ∧
      ((s.shareLog stream).runsOn.any fun on => on.1 = sid) = true) := by
    rintro stream user source ⟨_, hany⟩
    rw [h stream] at hany
    cases hany
  unfold endShares
  rw [shareLog_endShare, shareLog_endShare, if_neg (hnot _ _ _), if_neg (hnot _ _ _)]

theorem shareRecord_kickDuplicate (h : s.SharesTracked) (hin : sid ∈ s.sessionTable) :
    (s.kickDuplicate sid).shareRecord = (s.endShares sid).shareRecord := by
  unfold kickDuplicate
  dsimp only
  generalize hs' : (((s.sendError sid "Signed in from another location" .replaced).endShares
    sid).processDisconnect sid (s.sessions sid).userId (s.sessions sid).channelId).modifySession sid
      (fun session => { session with channelId := 0, authenticated := false }) = s'
  have hended : s'.shareRecord = (s.endShares sid).shareRecord := by
    rw [← hs', shareRecord_modifySession, shareRecord_processDisconnect]
    rfl
  have htable : s'.sessionTable = s.sessionTable := by
    have hregistry := registry_processDisconnect (s := (s.sendError sid
      "Signed in from another location" .replaced).endShares sid) sid (s.sessions sid).userId
        (s.sessions sid).channelId
    have hframe := congrArg Registry.table hregistry
    rw [(Registry.processDisconnect_frame ..).1] at hframe
    rw [← hs']
    exact hframe
  have hin' : sid ∈ s'.sessionTable := htable ▸ hin
  rw [shareRecord_disconnect hin']
  obtain ⟨hlog, hqueue⟩ := Prod.mk.inj hended
  have hnone : ∀ stream, ((s'.shareLog stream).runsOn.any fun on => on.1 = sid) = false := by
    intro stream
    rw [hlog, shareLog_endShares h]
    split
    · rfl
    next hnot =>
      simpa using hnot
  rw [← hended]
  exact Prod.ext (shareLog_endShares_of_ended hnone) rfl

namespace SharesTracked

theorem kickDuplicates (h : s.SharesTracked) (sid : SessionId) (key : PublicKey) :
    s.EndsShares (s.kickDuplicates sid key) := by
  unfold Server.kickDuplicates
  apply (EndsShares.refl h).foldl ?_ (List.Subset.refl _)
  intro s' other hs' hin
  split
  next hkick =>
    have hregistry := registry_kickDuplicate hin
    have hmark := hs'.inOrder.marked other hin hkick.2.1
    constructor
    · apply hs'.ended (hregistry ▸ (hs'.inOrder.replace hin hkick.2.1).inOrder)
        (shareRecord_kickDuplicate hs' hin)
      intro stream current generation
      rw [hregistry, Registry.runs_replace hs'.inOrder.consistent hin hmark]
    · exact (congrArg Registry.table hregistry).trans (Registry.processDisconnect_frame ..).1
  · exact ⟨.refl hs', rfl⟩

/-- A session signs in, in place of the older ones of its user. -/
theorem signIn (h : s.SharesTracked) (hin : sid ∈ s.sessionTable)
    (hout : (s.sessions sid).authenticated = false) {auth : AuthIdentity} {user : UserRow}
    {db : Database} (hdb : { s with db := db }.registry.InOrder)
    (hfinal : (({ s with db := db }.kickDuplicates sid auth.publicKey).signIn sid auth
      user).registry.InOrder) :
    s.EndsShares (({ s with db := db }.kickDuplicates sid auth.publicKey).signIn sid auth user) := by
  have hstored : s.EndsShares { s with db := db } := h.same hdb rfl fun _ _ _ => Iff.rfl
  have hkicked := hstored.tracked.kickDuplicates sid auth.publicKey
  obtain ⟨_, htable, _, hself, _, _⟩ :=
    kickDuplicates_loop (o := {}) (s := { s with db := db }) sid auth.publicKey s.sessionTable
      fun _ => id
  apply (hstored.trans hkicked).trans
  apply hkicked.tracked.same hfinal rfl
  intro stream other generation
  rw [registry_signIn]
  have hin' : sid ∈ (Server.kickDuplicates { s with db := db } sid auth.publicKey).registry.table :=
    htable ▸ hin
  apply Registry.runs_signIn hkicked.tracked.inOrder.consistent hin'
  by_contra hmark
  have hauth := (hkicked.tracked.inOrder.consistent.authed sid hin' (by simpa using hmark)).1
  have hself' : ((Server.kickDuplicates { s with db := db } sid auth.publicKey).registry.members
      sid).authenticated = (s.sessions sid).authenticated := congrArg Member.authenticated hself
  rw [hself', hout] at hauth
  cases hauth

theorem acceptIdentity (h : s.SharesTracked) (hin : sid ∈ s.sessionTable)
    (hout : (s.sessions sid).authenticated = false) (auth : AuthIdentity) (dbOk : Bool)
    (hfinal : (s.acceptIdentity sid auth dbOk).registry.InOrder) :
    s.EndsShares (s.acceptIdentity sid auth dbOk) := by
  have haccepted : s.EndsShares { s with
      recentAuth := Function.update s.recentAuth (s.config.publicKeyFingerprint auth.publicKey)
        (some auth.timestamp)
      acceptedAuths := s.acceptedAuths ++ [(auth.publicKey, auth.timestamp)] } :=
    h.same (h.inOrder.keeps_guard _ _).inOrder rfl fun _ _ _ => Iff.rfl
  unfold Server.acceptIdentity at hfinal ⊢
  dsimp only at hfinal ⊢
  split
  · exact haccepted.trans (haccepted.tracked.elsewhere rfl rfl)
  next user db hlogin =>
    rw [hlogin] at hfinal
    have hstored := (moves_loginUser (o := { root := true, dbOk := dbOk }) hlogin fun _ => rfl).1
    have hknown := hstored.inOrder haccepted.tracked.inOrder
    exact haccepted.trans (haccepted.tracked.signIn hin hout hknown hfinal)

theorem authIdentity (h : s.SharesTracked) (hin : sid ∈ s.sessionTable) (auth : AuthIdentity)
    (nowS : BitVec 64) (dbOk : Bool)
    (hfinal : (s.authIdentity sid auth nowS dbOk).registry.InOrder) :
    s.EndsShares (s.authIdentity sid auth nowS dbOk) := by
  unfold Server.authIdentity at hfinal ⊢
  split
  · exact .refl h
  next hout =>
    rw [if_neg hout] at hfinal
    split
    · exact h.elsewhere rfl rfl
    next hok =>
      rw [hok] at hfinal
      dsimp only at hfinal ⊢
      have hpruned : s.EndsShares (s.pruneRecentAuth nowS) :=
        h.same (h.inOrder.keeps_guard _ _).inOrder rfl fun _ _ _ => Iff.rfl
      split
      · exact hpruned.trans (hpruned.tracked.elsewhere rfl rfl)
      next hidentity =>
        rw [hidentity] at hfinal
        exact hpruned.trans
          (hpruned.tracked.acceptIdentity hin (Bool.eq_false_iff.mpr hout) auth dbOk hfinal)

/-! ### Channels and administration -/

theorem leaveChannel (h : s.SharesTracked) (hin : sid ∈ s.sessionTable)
    (hauth : (s.sessions sid).authenticated = true) : s.EndsShares (s.leaveChannel sid) := by
  have hregistry := registry_leaveChannel (s := s) sid
  have hinOrder : (s.leaveChannel sid).registry.InOrder := by
    rw [hregistry]
    exact (h.inOrder.leave hin hauth).inOrder
  apply h.ended hinOrder (shareRecord_leaveChannel sid)
  intro stream other generation
  rw [hregistry, Registry.runs_leave h.inOrder.consistent hin (h.inOrder.marked sid hin hauth)]

theorem channelJoin (h : s.SharesTracked) (hin : sid ∈ s.sessionTable) (channel : ChannelId)
    (voiceState : Option (Bool × Bool))
    (hfinal : (s.channelJoin sid channel voiceState).registry.InOrder) :
    s.EndsShares (s.channelJoin sid channel voiceState) := by
  unfold Server.channelJoin at hfinal ⊢
  split
  · exact .refl h
  next hauth =>
    rw [if_neg hauth] at hfinal
    split
    · exact h.elsewhere rfl rfl
    next hjoin =>
      rw [hjoin] at hfinal
      dsimp only at hfinal ⊢
      have hleft : s.EndsShares (if (s.sessions sid).channelId ≠ 0 ∧
          (s.sessions sid).channelId ≠ channel then s.leaveChannel sid else s) := by
        split
        · exact h.leaveChannel hin (by simpa using hauth)
        · exact .refl h
      apply hleft.trans
      apply hleft.tracked.same hfinal
      · rw [shareRecord_sendToAll, shareRecord_replayStreams]
        rfl
      · intro stream other generation
        have hmove : ∀ s : Server, (s.modifySession sid fun session =>
            session.enter channel voiceState).registry = s.registry.setChannel sid channel :=
          fun s => registry_modifyMember (by cases voiceState <;> rfl)
            (by cases voiceState <;> rfl) (by cases voiceState <;> rfl)
        rw [registry_sendToAll, registry_replayStreams, registry_sendTo, hmove]
        exact Registry.runs_modify ⟨rfl, rfl⟩

theorem channelLeave (h : s.SharesTracked) (hin : sid ∈ s.sessionTable) :
    s.EndsShares (s.channelLeave sid) := by
  unfold Server.channelLeave
  split
  · exact .refl h
  next hauth =>
    simp only [Bool.or_eq_true, not_or] at hauth
    exact h.leaveChannel hin (by simpa using hauth.1)

theorem adminCreateChannel (h : s.SharesTracked) (sid : SessionId) (name : String) (maxUsers : Int)
    (dbOk : Bool) (hfinal : (s.adminCreateChannel sid name maxUsers dbOk).registry.InOrder) :
    s.EndsShares (s.adminCreateChannel sid name maxUsers dbOk) := by
  apply h.same hfinal
  · unfold Server.adminCreateChannel
    split
    · rfl
    · split
      · rfl
      · split
        · rfl
        · split <;> rfl
  · intro stream other generation
    unfold Server.adminCreateChannel
    split
    · exact Iff.rfl
    · split
      · exact Iff.rfl
      · split
        · exact Iff.rfl
        · split <;> exact Iff.rfl

/-- The streams of a session in the channel end. -/
theorem evictStreams (h : s.SharesTracked) (channel : ChannelId) :
    s.EndsShares (s.evictStreams channel) := by
  unfold Server.evictStreams
  apply (EndsShares.refl h).foldl ?_ (List.Subset.refl _)
  intro s' sid hs' hin
  split
  next hthere =>
    obtain ⟨hauth, rfl⟩ := hthere
    have hregistry : (((s'.endShares sid).stopAllVideoStreams (s'.sessions sid).channelId
        (s'.sessions sid).userId).clearViewerSubscriptions sid false).registry =
        (s'.registry.stopAll (s'.registry.members sid).channelId
          (s'.registry.members sid).userId).setWatched sid [] := by
      rw [registry_clearViewerSubscriptions, registry_stopAllVideoStreams]
      rfl
    have hstopped := (hs'.inOrder.stop hin hauth .screen).inOrder
    have hboth := (hstopped.stop hin hauth .camera).inOrder
    have hinOrder : (((s'.endShares sid).stopAllVideoStreams (s'.sessions sid).channelId
        (s'.sessions sid).userId).clearViewerSubscriptions sid false).registry.InOrder := by
      rw [hregistry]
      exact (hboth.setWatched sid []).inOrder
    have hmark := hs'.inOrder.marked sid hin hauth
    have hrecord : (((s'.endShares sid).stopAllVideoStreams (s'.sessions sid).channelId
        (s'.sessions sid).userId).clearViewerSubscriptions sid false).shareRecord =
        (s'.endShares sid).shareRecord := by
      rw [shareRecord_clearViewerSubscriptions, shareRecord_stopAllVideoStreams]
    constructor
    · apply hs'.ended hinOrder hrecord
      intro stream other generation
      rw [hregistry, Registry.runs_setWatched,
        Registry.runs_stopAll_self hs'.inOrder.consistent hin hmark]
    · exact congrArg Registry.table hregistry
  · exact ⟨.refl hs', rfl⟩

theorem runs_evictUsers (s : Server) (channel : ChannelId) (stream : StreamId) (sid : SessionId)
    (generation : Nat) : (s.evictUsers channel).registry.Runs stream sid generation ↔
      s.registry.Runs stream sid generation := by
  unfold evictUsers
  refine @Machine.run_preserves _ _ _ (fun s' : Server =>
    s'.registry.Runs stream sid generation ↔ s.registry.Runs stream sid generation)
    (fun s' other hs' => ?_) _ Iff.rfl _
  split
  · rw [← hs', registry_sendTo]
    have hmoved : (s'.modifySession other fun session =>
        { session with channelId := 0 }).registry = s'.registry.setChannel other 0 :=
      registry_modifyMember rfl rfl rfl
    rw [hmoved]
    exact Registry.runs_modify ⟨rfl, rfl⟩
  · exact hs'

theorem adminDeleteChannel (h : s.SharesTracked) (sid : SessionId) (channel : ChannelId) (dbOk : Bool)
    (hfinal : (s.adminDeleteChannel sid channel dbOk).registry.InOrder) :
    s.EndsShares (s.adminDeleteChannel sid channel dbOk) := by
  have hstreams := h.evictStreams channel
  have hrecord : ∀ s : Server, (s.evictUsers channel).shareRecord = s.shareRecord := by
    intro s
    refine shareRecord_foldl (fun s sid => ?_) s _
    split <;> rfl
  have hruns : ∀ (s : Server) stream other generation,
      (s.evictUsers channel).registry.Runs stream other generation ↔
        s.registry.Runs stream other generation := fun s => runs_evictUsers s channel
  unfold Server.adminDeleteChannel at hfinal ⊢
  split
  · exact .refl h
  next hauth =>
    rw [if_neg hauth] at hfinal
    split
    · exact h.elsewhere rfl rfl
    next hmay =>
      rw [if_neg hmay] at hfinal
      dsimp only at hfinal ⊢
      apply hstreams.trans
      apply hstreams.tracked.same hfinal
      · split <;> exact hrecord _
      · intro stream other generation
        split <;> exact hruns _ _ _ _

theorem adminSetRole (h : s.SharesTracked) (hin : sid ∈ s.sessionTable) (target : UserId)
    (newRole : Role) (dbOk : Bool)
    (hfinal : (s.adminSetRole sid target newRole dbOk).registry.InOrder) :
    s.EndsShares (s.adminSetRole sid target newRole dbOk) := by
  apply h.same hfinal
  · unfold Server.adminSetRole
    dsimp only
    split
    · rfl
    · split
      · rfl
      · split
        · rfl
        · split <;> rfl
  · intro stream other generation
    rw [registry_adminSetRole hin]
    split
    · refine Registry.runs_congr rfl (fun sid _ => ?_) rfl rfl
      simp only [Registry.setRole]
      split <;> exact ⟨rfl, rfl⟩
    · exact Iff.rfl

theorem kickAll (h : s.SharesTracked) (sid : SessionId) (target : UserId) {others : List SessionId}
    (hothers : others ⊆ s.sessionTable) : s.EndsShares (s.kickAll sid target others) := by
  induction others generalizing s with
  | nil => exact .refl h
  | cons other others ih =>
      have hrest := fun other' hin => hothers (List.mem_cons_of_mem other hin : other' ∈ _)
      have hin := hothers (List.mem_cons_self : other ∈ other :: others)
      unfold Server.kickAll
      dsimp only
      split
      · split
        · exact h.elsewhere rfl rfl
        · have htold : s.EndsShares (s.sendError other "You have been kicked from the server"
              .kicked) := h.elsewhere rfl rfl
          have hkicked := htold.trans (htold.tracked.disconnect hin)
          apply hkicked.trans
          apply ih hkicked.tracked
          have htable := congrArg Registry.table (registry_disconnect
            (s := s.sendError other "You have been kicked from the server" .kicked) hin)
          exact fun other' hin' => (congrArg (other' ∈ ·) htable).mpr (hrest other' hin')
      · exact ih h hrest

theorem adminKickUser (h : s.SharesTracked) (sid : SessionId) (target : UserId) :
    s.EndsShares (s.adminKickUser sid target) := by
  unfold Server.adminKickUser
  split
  · exact .refl h
  · split
    · exact h.elsewhere rfl rfl
    · have hkicked := h.kickAll sid target (List.Subset.refl _)
      exact hkicked.trans (hkicked.tracked.elsewhere rfl rfl)

/-! ### Streams and views -/

theorem screenShareUpdate (h : s.SharesTracked) (sid : SessionId) (codec : BitVec 8)
    (width height : BitVec 16) (sourceRaw : BitVec 8) :
    s.EndsShares (s.screenShareUpdate sid codec width height sourceRaw) := by
  apply h.elsewhere (registry_screenShareUpdate sid codec width height sourceRaw)
  unfold Server.screenShareUpdate
  dsimp only
  split
  · rfl
  · split
    · rfl
    · split <;> rfl

theorem screenShareStop (h : s.SharesTracked) (hin : sid ∈ s.sessionTable) (sourceRaw : BitVec 8) :
    s.EndsShares (s.screenShareStop sid sourceRaw) := by
  unfold Server.screenShareStop
  dsimp only
  split
  · exact .refl h
  next hout =>
    simp only [Bool.or_eq_true, not_or] at hout
    have hauth : (s.sessions sid).authenticated = true := by simpa using hout.1
    split
    · exact .refl h
    next source _ =>
      have hc := h.inOrder.consistent
      have hmark := h.inOrder.marked sid hin hauth
      have hpack : (s.sessions sid).userId.Packable := hc.packable hin hmark
      have hregistry : ((s.endShare sid source).stopVideoStream (s.sessions sid).channelId
          (s.sessions sid).userId source).registry =
          s.registry.stop (s.sessions sid).channelId (s.sessions sid).userId source := by
        rw [registry_stopVideoStream]
        rfl
      have hinOrder : ((s.endShare sid source).stopVideoStream (s.sessions sid).channelId
          (s.sessions sid).userId source).registry.InOrder := by
        rw [hregistry]
        exact (h.inOrder.stop hin hauth source).inOrder
      apply h.endedOne hin hauth hinOrder (shareRecord_stopVideoStream ..)
      intro stream other generation
      rw [hregistry, Registry.runs_stop hc hpack]
      apply and_congr_right
      intro hruns
      rw [not_iff_not, and_iff_left_iff_imp]
      rintro rfl
      -- what runs is listed where its session is
      obtain ⟨_, hsession, hlisted⟩ := hruns.published hc
      rw [(hruns.user_source hc hpack).1] at hsession
      obtain rfl := Option.some.inj ((hc.sessionForUser hin hmark).symm.trans hsession)
      exact hlisted

/-- Views change what a session watches. -/
theorem screenShareView (h : s.SharesTracked) (sid : SessionId) (target : StreamId)
    (action : Option (BitVec 8)) (hfinal : (s.screenShareView sid target action).registry.InOrder) :
    s.EndsShares (s.screenShareView sid target action) := by
  apply h.same hfinal (shareRecord_screenShareView sid target action)
  have hwatched : ∀ (s' : Server) (f : Session → Session), (f (s'.sessions sid)).member =
      (s'.sessions sid).member → (f (s'.sessions sid)).videoSources =
        (s'.sessions sid).videoSources → ∀ stream other generation,
          (s'.modifySession sid f).registry.Runs stream other generation ↔
            s'.registry.Runs stream other generation := by
    intro s' f hmember hsources stream other generation
    rw [registry_watched hmember hsources]
    exact Iff.rfl
  intro stream other generation
  have hdropped : ∀ dropped : List StreamId, (s.modifySession sid fun session =>
      dropped.foldl Session.unsubscribe session).registry.Runs stream other generation ↔
        s.registry.Runs stream other generation := by
    intro dropped
    obtain ⟨hmember, hsources, _⟩ := foldl_unsubscribe (s.sessions sid) dropped
    exact hwatched s _ hmember hsources stream other generation
  have hnotified : ∀ (dropped : List StreamId) (s' : Server) (user : UserId),
      (dropped.foldl (fun s old => s.notifyViewerChange old user false) s').registry =
        s'.registry :=
    fun dropped s' user => registry_foldl (fun s stream => registry_notifyViewerChange _ _ _) s' _
  unfold Server.screenShareView stopViewing startViewing
  dsimp only
  split
  · exact Iff.rfl
  · split
    · split
      · rw [registry_clearViewerSubscriptions]
        exact Iff.rfl
      · split
        · rw [registry_notifyViewerChange]
          exact hdropped [target]
        · exact hdropped [target]
    · split
      · exact Iff.rfl
      · split
        · exact Iff.rfl
        · split
          · rw [registry_notifyViewerChange, registry_requestKeyframeFromSharer, hnotified]
            exact (hwatched _ _ rfl rfl stream other generation).trans (hdropped _)
          · rw [hnotified]
            exact hdropped _

/-! ### Other steps -/

theorem handleVideoControl (h : s.SharesTracked) (sid : SessionId) (target : StreamId)
    (bucketAllows : Bool) : s.EndsShares (s.handleVideoControl sid target bucketAllows) := by
  apply h.elsewhere (registry_handleVideoControl sid target bucketAllows)
  unfold Server.handleVideoControl
  split
  · rfl
  · split
    · rfl
    · split
      · rfl
      · split
        · rfl
        · split
          · rfl
          · dsimp only
            split <;> rfl

theorem sendDeferredKeyframeRequest (h : s.SharesTracked) (stream : StreamId) :
    s.EndsShares (s.sendDeferredKeyframeRequest stream) := by
  apply h.elsewhere (registry_sendDeferredKeyframeRequest stream)
  unfold Server.sendDeferredKeyframeRequest
  split <;> rfl

/-- A departure ends no share, if its user runs none outside the channel they left that
the channel still lists. -/
theorem processDisconnects (h : s.SharesTracked)
    (hkeep : ∀ d ∈ s.disconnects.head?, ∀ current ∈ s.sessionForUser d.userId, ∀ source,
      videoStreamId d.userId source ∈ s.channelVideoStreams d.channelId →
        (s.sessions current).videoIngressAllowed source = true →
          (s.sessions current).channelId = d.channelId) : s.EndsShares s.processDisconnects := by
  cases hd : s.disconnects with
  | nil =>
      have hsame : s.processDisconnects = s := by simp [Server.processDisconnects, hd]
      rw [hsame]
      exact .refl h
  | cons d rest =>
      have hregistry := registry_processDisconnects hd
      have hc := h.inOrder.consistent
      obtain ⟨hout, _, hpack⟩ := hc.events d (by simp [registry, hd])
      have hpopped : { s.registry with disconnects := rest }.Consistent :=
        { hc with events := fun d' hd' => hc.events d' (by simp [registry, hd, hd']) }
      have hinOrder : s.processDisconnects.registry.InOrder := by
        rw [hregistry]
        exact h.inOrder.workOff hd
      apply h.same hinOrder
      · simp only [Server.processDisconnects, hd]
        exact shareRecord_processDisconnect ..
      · intro stream sid generation
        rw [hregistry]
        have hended : (s.registry.workOff d rest).Runs stream sid generation ↔
            { s.registry with disconnects := rest }.Runs stream sid generation ∧
              sid ≠ d.sessionId := by
          apply Registry.runs_processDisconnect hpopped (fun _ => hpack) fun hin => absurd hin hout
          intro current source _ hcurrent hlisted hallowed
          exact hkeep d (by simp [hd]) current hcurrent source hlisted hallowed
        rw [hended]
        constructor
        · exact fun hboth => hboth.1
        · intro hruns
          refine ⟨hruns, ?_⟩
          rintro rfl
          exact hout hruns.inTable

end SharesTracked

end Server

end Parties

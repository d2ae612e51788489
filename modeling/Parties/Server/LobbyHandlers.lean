import Parties.Server.LobbyNews

/-!
# The handlers of the lobby

Each handler that moves sessions informs, as far as the connection of the session that joins a
channel does not end behind the look-up.
-/

namespace Parties

open Parties.Video LobbyServer

namespace Server

variable {t s s' : Server} {relists : Bool} {sid : SessionId} {user : UserId} {channel : ChannelId}

/-! ### Departures -/

/-- A departed session counts as back if its user is in the channel through another one. -/
theorem rejoined_iff (h : s.registry.InOrder) (hzero : channel ≠ 0) :
    (s.forgetSession sid user).rejoined sid user channel = true ↔
      ∃ x ≠ sid, ∃ w, s.lobby.At x channel user w := by
  have hregistry : (s.forgetSession sid user).rejoined sid user channel =
      (s.registry.forget sid user).rejoined sid user channel := by
    rw [← registry_forgetSession]
    rfl
  rw [hregistry]
  simp only [Registry.rejoined, Option.any_eq_true, Bool.and_eq_true, decide_eq_true_eq]
  constructor
  · rintro ⟨x, hsession, hne, hthere⟩
    obtain ⟨hbefore, _⟩ := Registry.sessionForUser_forget hsession
    obtain ⟨hindex, hin⟩ := Registry.sessionForUser_eq_some.mp hbefore
    obtain ⟨hauthed, huser⟩ := h.consistent.user user x hindex hin
    exact ⟨x, hne, _, hzero, hin, (h.consistent.authed x hin hauthed).1, huser, hthere, rfl⟩
  · rintro ⟨x, hne, w, hat⟩
    have hindex := (h.consistent.authed x hat.inTable (h.marked x hat.inTable hat.authenticated)).2.1
    have huser : (s.registry.members x).userId = user := hat.user
    rw [huser] at hindex
    refine ⟨x, Registry.sessionForUser_eq_some.mpr ⟨?_, hat.inTable⟩, hne, hat.channel⟩
    simp only [Registry.forget, hindex, Option.some.injEq, if_neg hne]

/-- Nobody hears of a departure from nowhere, or of a user who is still there. -/
theorem still_processDisconnect
    (h : channel = 0 ∨ (s.forgetSession sid user).rejoined sid user channel = true) :
    Still s (s.processDisconnect sid user channel) := by
  have hforgot := still_forgetSession s sid user
  unfold processDisconnect
  dsimp only
  split
  · exact hforgot
  next hzero =>
    rw [if_pos (h.resolve_left hzero)]
    split
    · exact hforgot.trans (still_clearViewerSubscriptions _ _ _)
    · exact hforgot

/-- What comes before the others hear of a departure. -/
theorem still_endSession (s : Server) (sid : SessionId) (user : UserId) (channel : ChannelId)
    (known : Bool) :
    let s₁ := (s.forgetSession sid user).stopAllVideoStreams channel user
    Still s (if known then s₁.clearViewerSubscriptions sid true else s₁) := by
  have hstopped := (still_forgetSession s sid user).trans (still_stopAllVideoStreams _ channel user)
  dsimp only
  split
  · exact hstopped.trans (still_clearViewerSubscriptions _ _ _)
  · exact hstopped

theorem lobby_processDisconnect (s : Server) (sid : SessionId) (user : UserId)
    (channel : ChannelId) : (s.processDisconnect sid user channel).lobby = s.lobby := by
  by_cases h : channel = 0 ∨ (s.forgetSession sid user).rejoined sid user channel = true
  · exact (still_processDisconnect h).lobby
  · obtain ⟨hzero, hgone⟩ := not_or.mp h
    unfold processDisconnect
    rw [if_neg hzero, if_neg hgone]
    exact (still_endSession s sid user channel _).lobby

/-- The others hear of a departure. -/
theorem speaks_processDisconnect (hnodup : s.sessionTable.Nodup) (hzero : channel ≠ 0)
    (hgone : (s.forgetSession sid user).rejoined sid user channel ≠ true) :
    Speaks t relists s (s.processDisconnect sid user channel) fun v r =>
      if s.lobby.Hears sid v then r.hear (.left channel user) else r := by
  unfold processDisconnect
  rw [if_neg hzero, if_neg hgone]
  extract_lets s₁ s₂
  have hended : Still s s₂ := still_endSession s sid user channel _
  have htable : s₂.sessionTable = s.sessionTable := congrArg Lobby.table hended.lobby
  have htold : Speaks t relists s₂ (s₂.sendToAll _ (.userLeftChannel user channel)) _ :=
    speaks_others s₂ (htable ▸ hnodup) sid (fun _ => [.server (.userLeftChannel user channel)])
      fun _ => rfl
  rw [hended.lobby] at htold
  exact hended.speaks.trans htold

theorem informs_quit (h : s.registry.InOrder) (hin : sid ∈ s.sessionTable)
    (hauth : (s.sessions sid).authenticated = true) {f : Seat → Seat}
    (hlobby : s'.lobby = s.lobby.modify sid f) (hchannel : (f (s.lobby.seats sid)).channelId = 0)
    (hstays : (f (s.lobby.seats sid)).authenticated = true →
      (f (s.lobby.seats sid)).userId = (s.lobby.seats sid).userId ∧
        ((f (s.lobby.seats sid)).alive = true → (s.lobby.seats sid).alive = true))
    (hgoes : (f (s.lobby.seats sid)).authenticated = false → (f (s.lobby.seats sid)).alive = false)
    (hspeaks : s.sessionTable.Nodup →
      (Speaks t relists s s' fun v r => if s.lobby.Hears sid v then
          r.hear (.left (s.sessions sid).channelId (s.sessions sid).userId) else r) ∨
        (s.sessions sid).channelId = 0 ∧ Speaks t relists s s' fun _ r => r) :
    Informs t relists s s' := by
  have hl := sound_lobby h
  intro R hR
  rcases hspeaks hR.nodup with hheard | ⟨hzero, hheard⟩
  · refine ⟨_, hheard, ?_⟩
    rw [hlobby]
    exact hR.quit hl hin hauth hchannel hstays hgoes
      (fun v hv hne hauth' => .inl (if_pos ⟨hv, hne, hauth'⟩))
      fun v hv => if_neg fun hhears => hhears.not_fresh hl hv
  · refine ⟨_, hheard, ?_⟩
    rw [hlobby]
    exact hR.quit hl hin hauth hchannel hstays hgoes (fun _ _ _ _ => .inr ⟨hzero, rfl⟩)
      fun _ _ => rfl

theorem lobby_leaveChannel (s : Server) (sid : SessionId) :
    (s.leaveChannel sid).lobby = s.lobby.modify sid fun seat => { seat with channelId := 0 } := by
  unfold leaveChannel
  extract_lets user channel s₁ s₂ s₃
  have hended : Still s s₂ := ((still_endShares s sid).trans
    (still_stopAllVideoStreams _ channel user)).trans (still_clearViewerSubscriptions _ sid true)
  have hmoved : s₃.lobby = s₂.lobby.modify sid fun seat => { seat with channelId := 0 } :=
    lobby_modifySession rfl
  rw [← hended.lobby, ← hmoved]
  rfl

theorem informs_leaveChannel (h : s.registry.InOrder) (hin : sid ∈ s.sessionTable)
    (hauth : (s.sessions sid).authenticated = true) : Informs t relists s (s.leaveChannel sid) := by
  refine informs_quit h hin hauth (lobby_leaveChannel s sid) rfl (fun _ => ⟨rfl, id⟩)
    (fun hnot => absurd hauth (Bool.eq_false_iff.mp hnot)) fun hnodup => .inl ?_
  unfold leaveChannel
  extract_lets user channel s₁ s₂ s₃
  have hended : Still s s₂ := ((still_endShares s sid).trans
    (still_stopAllVideoStreams _ channel user)).trans (still_clearViewerSubscriptions _ sid true)
  have hmoved : s₃.lobby = s.lobby.modify sid fun seat => { seat with channelId := 0 } := by
    rw [← hended.lobby]
    exact lobby_modifySession rfl
  have htable : s₃.sessionTable = s.sessionTable := congrArg Lobby.table hmoved
  have htold : Speaks t relists s₃ (s₃.sendToAll _ (.userLeftChannel user channel)) _ :=
    speaks_others s₃ (htable ▸ hnodup) sid (fun _ => [.server (.userLeftChannel user channel)])
      fun _ => rfl
  have hsilent : Speaks t relists s₂ s₃ fun _ r => r := .of_sent rfl
  refine ((hended.speaks.trans hsilent).trans htold).congr fun v r => ?_
  rw [hmoved]
  exact if_congr Lobby.hears_modify rfl rfl

theorem lobby_disconnect (hin : sid ∈ s.sessionTable) :
    (s.disconnect sid).lobby = s.lobby.modify sid fun seat => { seat with alive := false } := by
  unfold disconnect getSession
  rw [if_pos hin]
  exact lobby_modifySession (s := s.endShares sid) rfl

theorem sent_disconnect (s : Server) (sid : SessionId) : (s.disconnect sid).sent = s.sent := by
  unfold disconnect
  split <;> rfl

theorem informs_disconnect (s : Server) (sid : SessionId) : Informs t relists s (s.disconnect sid) := by
  by_cases hin : sid ∈ s.sessionTable
  · intro R hR
    refine ⟨_, .of_sent (sent_disconnect s sid), ?_⟩
    rw [lobby_disconnect hin]
    exact hR.retire sid
  · have hsame : s.disconnect sid = s := by
      unfold disconnect getSession
      rw [if_neg hin]
    rw [hsame]
    exact (Still.refl s).informs

/-- A session that is replaced leaves its channel, signs out and shuts down. -/
theorem informs_kickDuplicate (h : s.registry.InOrder) (hin : sid ∈ s.sessionTable)
    (hauth : (s.sessions sid).authenticated = true) : Informs t relists s (s.kickDuplicate sid) := by
  unfold kickDuplicate
  extract_lets session s₁ s₂ s₃
  have hquiet : (ServerMessage.serverError .replaced "Signed in from another location").Quiet :=
    trivial
  have hstill : Still s (s₁.endShares sid) := (Still.sendTo s sid hquiet).trans (still_endShares s₁ sid)
  have htable : (s₁.endShares sid).sessionTable = s.sessionTable := congrArg Lobby.table hstill.lobby
  have hinOrder : (s₁.endShares sid).registry.InOrder := h
  -- nobody else has the user
  have hgone : session.channelId ≠ 0 →
      ((s₁.endShares sid).forgetSession sid session.userId).rejoined sid session.userId
        session.channelId ≠ true := by
    intro hzero hback
    obtain ⟨x, hne, w, hat⟩ := (rejoined_iff hinOrder hzero).mp hback
    rw [hstill.lobby] at hat
    exact hat.user_ne (sound_lobby h) hin hauth hne rfl
  have hended : s₂.lobby = s.lobby := (lobby_processDisconnect ..).trans hstill.lobby
  have hout : s₃.lobby = s.lobby.modify sid fun seat =>
      { seat with channelId := 0, authenticated := false } := by
    rw [← hended]
    exact lobby_modifySession rfl
  have hin' : sid ∈ s₃.sessionTable := by
    have hsame : s₃.sessionTable = s.sessionTable := congrArg Lobby.table hout
    rw [hsame]
    exact hin
  have hlobby : (s₃.disconnect sid).lobby = s.lobby.modify sid fun seat =>
      { seat with channelId := 0, authenticated := false, alive := false } := by
    rw [lobby_disconnect hin', hout, Lobby.modify_modify]
    rfl
  have hsilent : Speaks t relists s₂ (s₃.disconnect sid) fun _ r => r :=
    .of_sent (sent_disconnect s₃ sid)
  refine informs_quit h hin hauth hlobby rfl Bool.noConfusion (fun _ => rfl) fun hnodup => ?_
  by_cases hzero : session.channelId = 0
  · have hnothing : Still s s₂ := hstill.trans (still_processDisconnect (.inl hzero))
    exact .inr ⟨hzero, hnothing.speaks.trans hsilent⟩
  · have htold : Speaks t relists (s₁.endShares sid) s₂ _ :=
      speaks_processDisconnect (htable ▸ hnodup) hzero (hgone hzero)
    rw [hstill.lobby] at htold
    exact .inl ((hstill.speaks.trans htold).trans hsilent)

/-- The others hear of a departure that was pending, unless its user is back. -/
theorem informs_processDisconnects (h : s.registry.InOrder) : Informs t relists s s.processDisconnects := by
  have hl := sound_lobby h
  unfold processDisconnects
  split
  · exact (Still.refl s).informs
  next d rest hd =>
    generalize hs₀ : ({ s with disconnects := rest } : Server) = s₀
    have hlobby : s₀.lobby = s.lobby.workOff rest := by rw [← hs₀, lobby, Lobby.workOff, lobby]
    have hevents : ∀ e ∈ d :: rest, e.sessionId ∉ s.sessionTable ∧
        e.sessionId < s.nextSessionId ∧ e.userId.Packable := hd ▸ h.consistent.events
    have hordered : s₀.registry.InOrder := by
      rw [← hs₀]
      exact ⟨{ h.consistent with events := fun e he => hevents e (List.mem_cons_of_mem d he) },
        h.marked⟩
    have hhere : ∀ w, (∃ x, s₀.lobby.At x d.channelId d.userId w) ↔
        s.lobby.attendance.here d.channelId d.userId w := by
      intro w
      rw [hlobby]
      exact exists_congr fun x =>
        ⟨fun hat => hat.congr hat.inTable rfl, fun hat => hat.congr hat.inTable rfl⟩
    have hout : d.sessionId ∉ s.sessionTable := (hevents d List.mem_cons_self).1
    have hsilent : Speaks t relists s s₀ fun _ r => r := .of_sent (by rw [← hs₀])
    intro R hR
    by_cases hback : d.channelId = 0 ∨
        (s₀.forgetSession d.sessionId d.userId).rejoined d.sessionId d.userId d.channelId = true
    · refine ⟨_, hsilent.trans (still_processDisconnect hback).speaks, ?_⟩
      rw [lobby_processDisconnect, hlobby]
      refine hR.workOff hd (fun v _ _ => .inl ⟨rfl, ?_⟩) fun _ _ => rfl
      by_cases hzero : d.channelId = 0
      · exact .inl hzero
      · obtain ⟨x, _, w, hat⟩ := (rejoined_iff hordered hzero).mp (hback.resolve_left hzero)
        exact .inr ⟨w, (hhere w).mp ⟨x, hat⟩⟩
    · obtain ⟨hzero, hgone⟩ := not_or.mp hback
      have hnodup : s₀.sessionTable.Nodup := by
        rw [← hs₀]
        exact hR.nodup
      refine ⟨_, hsilent.trans (speaks_processDisconnect hnodup hzero hgone), ?_⟩
      rw [lobby_processDisconnect, hlobby]
      have hnobody : ∀ w, ¬ s.lobby.attendance.here d.channelId d.userId w := by
        intro w hw
        obtain ⟨x, hat⟩ := (hhere w).mpr hw
        refine hgone ((rejoined_iff hordered hzero).mpr ⟨x, ?_, w, hat⟩)
        rintro rfl
        rw [hlobby] at hat
        exact hout hat.inTable
      refine hR.workOff hd (fun v hv hauth => .inr ⟨?_, hnobody⟩) fun v hv => ?_
      · have hne : v ≠ d.sessionId := by
          rintro rfl
          exact hout hv
        exact if_pos ⟨hv, hne, hauth⟩
      · exact if_neg fun hhears => Lobby.Hears.not_fresh (l := s.lobby) hhears hl (.inr hv)

/-! ### Logins -/

theorem informs_kickDuplicates (h : s.registry.InOrder) (sid : SessionId) (key : PublicKey) :
    Informs t relists s (s.kickDuplicates sid key) := by
  have hloop : ∀ (others : List SessionId) (s : Server), s.registry.InOrder →
      (∀ other ∈ others, other ∈ s.sessionTable) → Informs t relists s (others.foldl (fun s other =>
        if other ≠ sid ∧ (s.sessions other).authenticated ∧ (s.sessions other).publicKey = key then
          s.kickDuplicate other
        else s) s) := by
    intro others
    induction others with
    | nil => exact fun s _ _ => (Still.refl s).informs
    | cons other rest ih =>
        intro s h hl
        have hin : other ∈ s.registry.table := hl other List.mem_cons_self
        obtain ⟨hmoves, htable, _⟩ := kickDuplicates_body (o := {}) sid key hin
        rw [List.foldl_cons]
        refine Informs.trans ?_ (ih _ (hmoves.inOrder h) fun x hx => ?_)
        · split
          next hkick =>
            exact informs_kickDuplicate h hin hkick.2.1
          · exact (Still.refl s).informs
        · have hold : x ∈ s.registry.table := hl x (List.mem_cons_of_mem _ hx)
          rw [← htable] at hold
          exact hold
  exact hloop _ s h fun _ => id

theorem channels_loginUser {auth : AuthIdentity} {dbOk : Bool} {row : UserRow} {db : Database}
    (hlogin : s.loginUser auth dbOk = some (row, db)) : db.channels = s.db.channels := by
  unfold loginUser at hlogin
  dsimp only at hlogin
  split at hlogin
  · split at hlogin
    · cases hlogin
    · obtain ⟨created, hcreate, hlogin⟩ := Option.bind_eq_some_iff.mp hlogin
      obtain ⟨user, _, hlogin⟩ := Option.bind_eq_some_iff.mp hlogin
      obtain ⟨rfl, rfl⟩ := Prod.mk.inj (Option.some.inj hlogin)
      unfold Database.createUser at hcreate
      split at hcreate
      · cases hcreate
      · obtain rfl := Option.some.inj hcreate
        rfl
  · obtain ⟨_, rfl⟩ := Prod.mk.inj (Option.some.inj hlogin)
    split <;> rfl

/-- What goes along with a login lists the channels, and the users of each. -/
theorem foldl_welcome (s : Server) (r : LobbyRoster) :
    s.welcome.foldl hearMessage r =
      r.welcome (s.db.getAllChannels.map ChannelRow.id) s.lobby.people := by
  rw [welcome, List.foldl_cons, Roster.welcome, List.filter_map, List.map_map, List.foldl_map,
    List.foldl_map]
  simp only [Function.comp_def, ← entries_channelUsers, List.isEmpty_map]
  rw [← map_id_listedChannels]
  rfl

theorem lobby_signIn (s : Server) (sid : SessionId) (auth : AuthIdentity) (row : UserRow) :
    (s.signIn sid auth row).lobby = s.lobby.modify sid fun seat =>
      { seat with authenticated := true, userId := row.id } := by
  unfold signIn
  extract_lets s₁ s₂
  have hsigned : s₁.lobby = s.lobby.modify sid fun seat =>
      { seat with authenticated := true, userId := row.id } := lobby_modifySession rfl
  exact hsigned

theorem speaks_signIn (s : Server) (sid : SessionId) (auth : AuthIdentity) (row : UserRow) :
    Speaks t relists s (s.signIn sid auth row) fun v r =>
      if v = sid then r.welcome (t.db.getAllChannels.map ChannelRow.id) t.lobby.people else r := by
  unfold signIn
  extract_lets s₁ s₂
  have hsilent : Speaks t relists s s₂ fun _ r => r := .of_sent rfl
  have halong : t.alongside relists (sid, .authResponse row.id row.role) =
      (.server (.authResponse row.id row.role) :: t.welcome).map fun m => (sid, m) := rfl
  refine (hsilent.trans (speaks_sendTo s₂ sid _ halong)).congr fun v r => if_congr Iff.rfl ?_ rfl
  exact foldl_welcome t r

theorem informs_signIn (h : s.registry.InOrder) (hin : sid ∈ s.sessionTable)
    (hout : (s.sessions sid).authenticated = false) {auth : AuthIdentity} {row : UserRow}
    (hafter : (s.signIn sid auth row).registry.InOrder) :
    Informs (s.signIn sid auth row) relists s (s.signIn sid auth row) := by
  have hlobby := lobby_signIn s sid auth row
  have hl' := sound_lobby hafter
  intro R hR
  refine ⟨_, speaks_signIn s sid auth row, ?_⟩
  rw [hlobby] at hl' ⊢
  exact hR.signIn (sound_lobby h) hin hout (fun c => mem_rooms s.db) hl' (if_pos rfl)
    fun v hv => if_neg hv

/-- A session signs in in place of the older ones of its identity. -/
theorem informs_login (h : s.registry.InOrder) (hin : sid ∈ s.sessionTable)
    (hout : (s.sessions sid).authenticated = false) {auth : AuthIdentity} {row : UserRow}
    (hafter : ((s.kickDuplicates sid auth.publicKey).signIn sid auth row).registry.InOrder) :
    Informs ((s.kickDuplicates sid auth.publicKey).signIn sid auth row) relists s
      ((s.kickDuplicates sid auth.publicKey).signIn sid auth row) := by
  obtain ⟨hkicked, htable, _, hself, _⟩ :=
    kickDuplicates_loop (o := {}) sid auth.publicKey s.sessionTable fun _ => id
  change Registry.Moves _ _ (s.kickDuplicates sid auth.publicKey).registry at hkicked
  change (s.kickDuplicates sid auth.publicKey).sessionTable = s.sessionTable at htable
  change ((s.kickDuplicates sid auth.publicKey).sessions sid).member = (s.sessions sid).member at hself
  refine (informs_kickDuplicates h sid auth.publicKey).trans
    (informs_signIn (hkicked.inOrder h) (htable.symm ▸ hin) ?_ hafter)
  exact (congrArg Member.authenticated hself).trans hout

theorem informs_authIdentity (h : s.registry.InOrder) (hin : sid ∈ s.sessionTable)
    (auth : AuthIdentity) (nowS : BitVec 64) (dbOk : Bool) :
    Informs (s.authIdentity sid auth nowS dbOk) relists s (s.authIdentity sid auth nowS dbOk) := by
  have hafter : (s.authIdentity sid auth nowS dbOk).registry.InOrder := by
    have hstep := inOrder_step h (.message sid (.authIdentity auth nowS dbOk))
    rwa [step, handleMessage, getSession, if_pos hin] at hstep
  generalize hfinal : s.authIdentity sid auth nowS dbOk = final at hafter ⊢
  have herror : ∀ (s' : Server) text code, s'.lobby = s.lobby → s'.sent = s.sent →
      Still s (s'.sendError sid text code) := by
    intro s' text code hlobby hsent
    have hquiet : (ServerMessage.serverError code text).Quiet := trivial
    exact (Still.of_eq hlobby hsent).trans (.sendTo s' sid hquiet)
  unfold authIdentity at hfinal
  split at hfinal
  · rw [← hfinal]
    exact (Still.refl s).informs
  next hout =>
    split at hfinal
    · rw [← hfinal]
      exact (herror s _ _ rfl rfl).informs
    · dsimp only at hfinal
      split at hfinal
      · rw [← hfinal]
        exact (herror (s.pruneRecentAuth nowS) _ _ rfl rfl).informs
      · unfold acceptIdentity at hfinal
        extract_lets fp s₁ at hfinal
        split at hfinal
        · rw [← hfinal]
          exact (herror s₁ _ _ rfl rfl).informs
        next row db hlogin =>
          have hnoted : s₁.registry.InOrder :=
            (h.keeps_guard s₁.recentAuth s₁.acceptedAuths).inOrder
          have hstored : ({ s₁ with db := db } : Server).registry.InOrder :=
            (moves_loginUser (o := { root := true, dbOk := dbOk }) hlogin fun _ => rfl).1.inOrder hnoted
          have hsame : Still s { s₁ with db := db } := by
            refine .of_eq ?_ rfl
            rw [lobby, channels_loginUser hlogin]
            rfl
          rw [← hfinal] at hafter ⊢
          exact hsame.informs.trans
            (informs_login hstored hin (Bool.eq_false_iff.mpr hout) hafter)

/-! ### Channels -/

/-- `CHANNEL_JOIN` behind the checks and the departure from another channel. -/
def arrive (s : Server) (sid : SessionId) (channel : ChannelId) (voiceState : Option (Bool × Bool)) :
    Server :=
  let s := s.modifySession sid fun session => session.enter channel voiceState
  let s := s.sendTo sid (.channelUserList channel (s.channelUsers channel))
  let s := s.replayStreams sid channel
  let session := s.sessions sid
  s.sendToAll (fun other session => other ≠ sid && session.authenticated)
    (.userJoinedChannel {
      userId := session.userId
      username := session.username
      role := session.role
      muted := session.muted
      deafened := session.deafened } channel)

variable {voiceState : Option (Bool × Bool)}

/-- The voice state a session arrives with. -/
def arrivalVoice (s : Server) (sid : SessionId) (voiceState : Option (Bool × Bool)) : VoiceState :=
  voiceState.getD (s.lobby.seats sid).voice

theorem lobby_enter (s : Server) (sid : SessionId) (channel : ChannelId)
    (voiceState : Option (Bool × Bool)) :
    (s.modifySession sid fun session => session.enter channel voiceState).lobby =
      s.lobby.modify sid (·.moveTo channel (s.arrivalVoice sid voiceState)) := by
  refine lobby_modifySession ?_
  cases voiceState <;> rfl

theorem lobby_arrive (s : Server) (sid : SessionId) (channel : ChannelId)
    (voiceState : Option (Bool × Bool)) :
    (s.arrive sid channel voiceState).lobby =
      s.lobby.modify sid (·.moveTo channel (s.arrivalVoice sid voiceState)) := by
  unfold arrive
  extract_lets s₁ s₂ s₃ session
  rw [← lobby_enter]
  exact (still_replayStreams s₂ sid channel).lobby

theorem registry_arrive (s : Server) (sid : SessionId) (channel : ChannelId)
    (voiceState : Option (Bool × Bool)) :
    (s.arrive sid channel voiceState).registry = s.registry.setChannel sid channel := by
  unfold arrive
  dsimp only
  rw [registry_sendToAll, registry_replayStreams, registry_sendTo]
  exact registry_modifyMember (by cases voiceState <;> rfl) (by cases voiceState <;> rfl)
    (by cases voiceState <;> rfl)

/-- The session hears who is there. The others hear that it comes, and may hear its voice
state once more. -/
theorem speaks_arrive (t : Server) (relists : Bool) (hnodup : s.sessionTable.Nodup) (sid : SessionId)
    (channel : ChannelId) (voiceState : Option (Bool × Bool)) :
    ∃ g, Speaks t relists s (s.arrive sid channel voiceState) g ∧
      (∀ v r, s.lobby.Hears sid v →
        g v r = r.hear (.joined channel (s.lobby.seats sid).userId (s.arrivalVoice sid voiceState)) ∨
          g v r = (r.hear (.joined channel (s.lobby.seats sid).userId
            (s.arrivalVoice sid voiceState))).hear
              (.changed (s.lobby.seats sid).userId (s.arrivalVoice sid voiceState))) ∧
      (∀ r, g sid r = r.hear (.present channel ((s.lobby.modify sid
        (·.moveTo channel (s.arrivalVoice sid voiceState))).people channel))) ∧
      ∀ v r, v ≠ sid → ¬ s.lobby.Hears sid v → g v r = r := by
  unfold arrive
  extract_lets s₁ s₂ s₃ session
  have hmoved : s₁.lobby = s.lobby.modify sid
      (·.moveTo channel (s.arrivalVoice sid voiceState)) := lobby_enter s sid channel voiceState
  have hreplayed : Still s₂ s₃ := still_replayStreams s₂ sid channel
  have hlobby : s₃.lobby = s₁.lobby := hreplayed.lobby
  have htable : s₃.sessionTable = s.sessionTable := congrArg Lobby.table (hlobby.trans hmoved)
  have hseat : session.seat = (s.lobby.seats sid).moveTo channel (s.arrivalVoice sid voiceState) := by
    have hthere := congrArg (Lobby.seats · sid) (hlobby.trans hmoved)
    exact hthere.trans Lobby.seats_modify_self
  generalize harrived : ({
    userId := session.userId
    username := session.username
    role := session.role
    muted := session.muted
    deafened := session.deafened } : ChannelUser) = user
  have huser : user.userId = (s.lobby.seats sid).userId :=
    (congrArg ChannelUser.userId harrived.symm).trans (congrArg Seat.userId hseat)
  have hvoice : user.voice = s.arrivalVoice sid voiceState :=
    (congrArg ChannelUser.voice harrived.symm).trans (congrArg Seat.voice hseat)
  have hhears : ∀ v, s₃.lobby.Hears sid v ↔ s.lobby.Hears sid v := by
    intro v
    rw [hlobby, hmoved]
    exact Lobby.hears_modify
  have hpresent : (s₁.channelUsers channel).map ChannelUser.entry = (s.lobby.modify sid
      (·.moveTo channel (s.arrivalVoice sid voiceState))).people channel := by
    rw [entries_channelUsers, hmoved]
  have hsilent : Speaks t relists s s₁ fun _ r => r := .of_sent rfl
  have hlist : Speaks t relists s₁ s₂ fun v r => if v = sid then
      [LobbyMessage.server (.channelUserList channel (s₁.channelUsers channel))].foldl hearMessage r
      else r := speaks_sendTo s₁ sid _ rfl
  have hjoined : Speaks t relists s₃ (s₃.sendToAll _ (.userJoinedChannel user channel)) _ :=
    speaks_others s₃ (htable ▸ hnodup) sid (fun x => .server (.userJoinedChannel user channel) ::
      if (user.muted || user.deafened) &&
          !protocolSupportsJoinVoiceState (t.sessions x).protocolVersion then
        [.userVoiceState user.userId user.muted user.deafened]
      else []) fun x => by
        rw [alongside]
        split <;> rfl
  refine ⟨_, ((hsilent.trans hlist).trans hreplayed.speaks).trans hjoined, fun v r hv => ?_,
    fun r => ?_, fun v r hne hnot => ?_⟩
  · rw [if_pos ((hhears v).mpr hv), if_neg hv.2.1, ← huser, ← hvoice]
    split
    · exact .inr rfl
    · exact .inl rfl
  · rw [if_neg fun hhears' => hhears'.2.1 rfl, if_pos rfl, ← hpresent]
    rfl
  · rw [if_neg fun hhears' => hnot ((hhears v).mp hhears'), if_neg hne]

theorem mem_channels_of_checkJoin (h : s.checkJoin sid channel = .ok ()) :
    channel ∈ s.lobby.channels := by
  obtain ⟨row, hrow, _⟩ := room_of_checkJoin h
  obtain ⟨hin, rfl⟩ := Database.getChannel_mem hrow
  exact List.mem_map_of_mem hin

theorem informs_arrive (hl : s.lobby.Sound) (hin : sid ∈ s.sessionTable)
    (hauth : (s.sessions sid).authenticated = true)
    (hold : (s.sessions sid).channelId = 0 ∨ (s.sessions sid).channelId = channel)
    (hroom : channel ∈ s.lobby.channels) : Informs t relists s (s.arrive sid channel voiceState) := by
  intro R hR
  obtain ⟨g, hspeaks, hothers, hself, hrest⟩ := speaks_arrive t relists hR.nodup
    sid channel voiceState
  have hl' : (s.lobby.modify sid (·.moveTo channel (s.arrivalVoice sid voiceState))).Sound :=
    hl.modify rfl rfl fun hout => absurd hauth (Bool.eq_false_iff.mp hout)
  refine ⟨g, hspeaks, ?_⟩
  rw [lobby_arrive]
  refine hR.enter hl hin hauth hold hroom hl' (hself _)
    (fun v hv hne hauth' => hothers v _ ⟨hv, hne, hauth'⟩) fun v hv => hrest v _ ?_ ?_
  · rintro rfl
    rcases hv with hle | hout
    · exact absurd hle (not_le_of_gt (hl.lt_next v hin))
    · exact absurd hauth (Bool.eq_false_iff.mp hout)
  · exact fun hhears => hhears.not_fresh hl (.inr hv)

theorem informs_channelJoin (h : s.registry.InOrder) (hin : sid ∈ s.sessionTable) :
    Informs t relists s (s.channelJoin sid channel voiceState) := by
  unfold channelJoin
  split
  · exact (Still.refl s).informs
  next hout =>
    have hauth : (s.sessions sid).authenticated = true := by simpa using hout
    split
    · exact (Still.sendTo s sid (show ServerMessage.Quiet (.serverError ..) from trivial)).informs
    next hjoin =>
      have hroom := mem_channels_of_checkJoin hjoin
      extract_lets old s₀
      change Informs t relists s (s₀.arrive sid channel voiceState)
      by_cases hmove : old ≠ 0 ∧ old ≠ channel
      · -- it leaves another channel
        have hleft : s₀ = s.leaveChannel sid := if_pos hmove
        have hlobby := lobby_leaveChannel s sid
        have hordered : (s.leaveChannel sid).registry.InOrder := by
          rw [registry_leaveChannel]
          exact (Registry.Move.moves (o := {}) (.leave sid hin hauth)).inOrder h
        have hseat : ((s.leaveChannel sid).sessions sid).seat = { s.lobby.seats sid with channelId := 0 } :=
          (congrArg (Lobby.seats · sid) hlobby).trans Lobby.seats_modify_self
        have htable : (s.leaveChannel sid).sessionTable = s.sessionTable :=
          congrArg Lobby.table hlobby
        rw [hleft]
        refine (informs_leaveChannel h hin hauth).trans (informs_arrive (sound_lobby hordered) ?_ ?_ ?_ ?_)
        · exact htable.symm ▸ hin
        · exact (congrArg Seat.authenticated hseat).trans hauth
        · exact .inl (congrArg Seat.channelId hseat)
        · rw [hlobby]
          exact hroom
      · have hstays : s₀ = s := if_neg hmove
        rw [hstays]
        refine informs_arrive (sound_lobby h) hin hauth ?_ hroom
        by_contra hneither
        exact hmove (not_or.mp hneither)

theorem informs_channelLeave (h : s.registry.InOrder) (hin : sid ∈ s.sessionTable) :
    Informs t relists s (s.channelLeave sid) := by
  unfold channelLeave
  split
  · exact (Still.refl s).informs
  next hout =>
    simp only [Bool.or_eq_true, not_or] at hout
    exact informs_leaveChannel h hin (by simpa using hout.1)

/-! ### Connections -/

theorem informs_onNewConnection (hl : s.lobby.Sound) : Informs t relists s s.onNewConnection := by
  intro R hR
  have hlobby : s.onNewConnection.lobby = s.lobby.connect := by
    simp only [lobby, onNewConnection, Lobby.connect]
    congr 1
    funext x
    by_cases hx : x = s.nextSessionId
    · subst hx
      rw [Function.update_self, Function.update_self]
    · rw [Function.update_of_ne hx, Function.update_of_ne hx]
  refine ⟨_, .of_sent rfl, ?_⟩
  rw [hlobby]
  exact hR.connect hl

theorem lobby_onShutdownComplete (hin : sid ∈ s.sessionTable) : (s.onShutdownComplete sid).lobby =
    (s.lobby.modify sid fun seat => { seat with alive := false }).drop sid := by
  have hdead : ((s.endShares sid).modifySession sid fun session =>
      { session with alive := false }).lobby =
        s.lobby.modify sid fun seat => { seat with alive := false } := lobby_modifySession rfl
  unfold onShutdownComplete getSession
  rw [if_pos hin]
  rw [← hdead]
  simp only [lobby, Lobby.drop, modifySession, Function.update_self]
  rfl

theorem sent_onShutdownComplete (s : Server) (sid : SessionId) :
    (s.onShutdownComplete sid).sent = s.sent := by
  unfold onShutdownComplete
  split <;> rfl

theorem informs_onShutdownComplete (s : Server) (sid : SessionId) :
    Informs t relists s (s.onShutdownComplete sid) := by
  by_cases hin : sid ∈ s.sessionTable
  · intro R hR
    refine ⟨_, .of_sent (sent_onShutdownComplete s sid), ?_⟩
    rw [lobby_onShutdownComplete hin]
    exact (hR.retire sid).drop sid
  · have hsame : s.onShutdownComplete sid = s := by
      unfold onShutdownComplete getSession
      rw [if_neg hin]
    rw [hsame]
    exact (Still.refl s).informs

theorem seat_onShutdownComplete (hin : sid ∈ s.sessionTable) :
    ((s.onShutdownComplete sid).sessions sid).seat = { s.lobby.seats sid with alive := false } := by
  have hseats : (s.onShutdownComplete sid).lobby.seats =
      (s.lobby.modify sid fun seat => { seat with alive := false }).seats :=
    (congrArg Lobby.seats (lobby_onShutdownComplete hin)).trans rfl
  exact (congrFun hseats sid).trans Lobby.seats_modify_self

/-- A join that is overtaken and does not move its session fails, or comes to the channel the
session was in. -/
theorem overtakenJoin_cases (hin : sid ∈ s.sessionTable) (voiceState : Option (Bool × Bool))
    (hstays : (s.sessions sid).authenticated = true →
      (s.onShutdownComplete sid).checkJoin sid channel = .ok () →
        (s.sessions sid).channelId = channel) :
    let s₁ := s.onShutdownComplete sid
    (Still s₁ (s₁.channelJoin sid channel voiceState) ∧
      (s₁.channelJoin sid channel voiceState).registry = s₁.registry) ∨
    s₁.channelJoin sid channel voiceState = s₁.arrive sid channel voiceState ∧
      (s₁.sessions sid).authenticated = true ∧ (s₁.sessions sid).channelId = channel ∧
      channel ∈ s₁.lobby.channels := by
  have hseat := seat_onShutdownComplete hin
  generalize s.onShutdownComplete sid = s₁ at hseat hstays
  dsimp only
  unfold channelJoin
  split
  · exact .inl ⟨.refl s₁, rfl⟩
  next hout =>
    have hauth : (s₁.sessions sid).authenticated = true := by simpa using hout
    split
    · exact .inl ⟨still_sendError s₁ sid _ _, rfl⟩
    next hjoin =>
      have hchannel : (s₁.sessions sid).channelId = channel :=
        (congrArg Seat.channelId hseat).trans
          (hstays ((congrArg Seat.authenticated hseat).symm.trans hauth) hjoin)
      refine .inr ⟨?_, hauth, hchannel, mem_channels_of_checkJoin hjoin⟩
      extract_lets old s₀
      have hsame : s₀ = s₁ := if_neg fun hmove => hmove.2 hchannel
      show s₀.arrive sid channel voiceState = _
      rw [hsame]

/-- The other sessions stay as they are, and the departure of this one is to be worked off. -/
theorem departed_onShutdownComplete (hin : sid ∈ s.sessionTable) :
    (∀ x ∈ (s.onShutdownComplete sid).sessionTable, x ≠ sid ∧ x ∈ s.sessionTable ∧
      (s.onShutdownComplete sid).lobby.seats x = s.lobby.seats x) ∧
    (s.onShutdownComplete sid).lobby.next = s.lobby.next ∧
    (s.onShutdownComplete sid).lobby.channels = s.lobby.channels ∧
    ((s.sessions sid).authenticated = true →
      (⟨sid, (s.sessions sid).userId, (s.sessions sid).channelId⟩ : SessionDisconnect) ∈
        (s.onShutdownComplete sid).lobby.disconnects) := by
  have hlobby := lobby_onShutdownComplete hin
  refine ⟨fun x hx => ?_, (congrArg Lobby.next hlobby).trans rfl,
    (congrArg Lobby.channels hlobby).trans rfl, fun hauth => ?_⟩
  · have hkept : x ∈ (s.onShutdownComplete sid).lobby.table := hx
    rw [hlobby] at hkept
    obtain ⟨hold, hne⟩ := List.mem_filter.mp hkept
    have hsame : (s.lobby.modify sid fun seat => { seat with alive := false }).seats x =
        s.lobby.seats x := Lobby.seats_modify_of_ne (of_decide_eq_true hne)
    refine ⟨of_decide_eq_true hne, hold, ?_⟩
    rw [hlobby]
    exact hsame
  · rw [hlobby]
    refine Lobby.mem_disconnects_drop.mpr (.inr ?_)
    rw [Lobby.seats_modify_self]
    exact ⟨hauth, rfl⟩

/-- Such a join is harmless: the departure of the session from its channel is still to come. -/
theorem informs_overtakenJoin (h : s.registry.InOrder) (hin : sid ∈ s.sessionTable)
    (hstays : (s.sessions sid).authenticated = true →
      (s.onShutdownComplete sid).checkJoin sid channel = .ok () →
        (s.sessions sid).channelId = channel) :
    Informs t relists s ((s.onShutdownComplete sid).channelJoin sid channel voiceState) := by
  have hl := sound_lobby h
  refine (informs_onShutdownComplete s sid).trans ?_
  rcases overtakenJoin_cases hin voiceState hstays with
    ⟨hstill, _⟩ | ⟨harrives, hauth, hchannel, hroom⟩
  · exact hstill.informs
  rw [harrives]
  have hseat := seat_onShutdownComplete hin
  obtain ⟨hgone, hnext, hchannels, hpending⟩ := departed_onShutdownComplete hin
  generalize s.onShutdownComplete sid = s₁ at hseat hgone hnext hchannels hpending hauth hchannel hroom
  have hauth' : (s.sessions sid).authenticated = true :=
    (congrArg Seat.authenticated hseat).symm.trans hauth
  have hchannel' : (s.sessions sid).channelId = channel :=
    (congrArg Seat.channelId hseat).symm.trans hchannel
  have hleaving : s₁.lobby.attendance.leaving channel (s.sessions sid).userId := by
    refine ⟨?_, _, hpending hauth', rfl, hchannel'⟩
    rintro rfl
    exact hl.zero (hchannels ▸ hroom)
  have hmoved : ∀ x ∈ s₁.sessionTable, (s₁.lobby.modify sid
      (·.moveTo channel (s₁.arrivalVoice sid voiceState))).seats x = s.lobby.seats x := by
    intro x hx
    obtain ⟨hne, _, hsame⟩ := hgone x hx
    exact (Lobby.seats_modify_of_ne hne).trans hsame
  have huser : (s₁.lobby.seats sid).userId = (s.sessions sid).userId := by
    have hsame := congrArg Seat.userId hseat
    exact hsame
  intro R hR
  obtain ⟨g, hspeaks, hheard, _, hrest⟩ := speaks_arrive t relists hR.nodup sid channel voiceState
  have hquiet : (s₁.lobby.modify sid (·.moveTo channel (s₁.arrivalVoice sid voiceState))).Told R :=
    hR.modify_of_not_mem (fun hin' => (hgone sid hin').1 rfl) rfl rfl rfl
  refine ⟨g, hspeaks, ?_⟩
  rw [lobby_arrive]
  have hhears : ∀ v ∈ s₁.sessionTable, ((s₁.lobby.modify sid
      (·.moveTo channel (s₁.arrivalVoice sid voiceState))).seats v).authenticated = true →
        s₁.lobby.Hears sid v := by
    intro v hv hvauth
    obtain ⟨hne, _, hsame⟩ := hgone v hv
    rw [hmoved v hv, ← hsame] at hvauth
    exact ⟨hv, hne, hvauth⟩
  refine hquiet.hearDeparted hroom (huser.symm ▸ hleaving) (fun x hx hxauth hboth => ?_)
    (fun v hv hvauth => hheard v (R v) (hhears v hv hvauth)) fun v hv => ?_
  · obtain ⟨hne, hold, _⟩ := hgone x hx
    rw [hmoved x hx] at hxauth hboth
    exact hne (hl.single x hold sid hin hxauth hauth' (hboth.trans huser))
  · have hlt : ∀ x ∈ s.sessionTable, ¬ s₁.lobby.next ≤ x := by
      intro x hx
      rw [hnext]
      exact not_le_of_gt (hl.lt_next x hx)
    refine hrest v (R v) ?_ fun hhears => ?_
    · rintro rfl
      rcases hv with hle | hnot
      · exact hlt v hin hle
      · rw [Lobby.seats_modify_self] at hnot
        exact absurd hauth (Bool.eq_false_iff.mp hnot)
    · rcases hv with hle | hnot
      · exact hlt v (hgone v hhears.1).2.1 hle
      · rw [Lobby.seats_modify_of_ne hhears.2.1] at hnot
        exact absurd hhears.2.2 (Bool.eq_false_iff.mp hnot)

end Server

end Parties

import Parties.Server.LobbyHandlers

/-!
# Administration in the lobby

A change of the channels is followed by their list. Those who are in a channel that is deleted
hear their own departure before it, the others see the channel go.
-/

namespace Parties

open Parties.Video LobbyServer

namespace Server

variable {t s s' : Server} {relists : Bool} {sid : SessionId} {g : SessionId → LobbyRoster → LobbyRoster}
  {channel : ChannelId}

/-- An answer without a list says nothing about the lobby. -/
theorem speaks_adminResult (s : Server) (sid : SessionId) (text : String) :
    Speaks t false s (s.sendTo sid (.adminResult text)) fun _ r => r := by
  refine (speaks_sendTo s sid [.server (.adminResult text)] rfl).congr fun v r => ?_
  split <;> rfl

/-- With an answer to a change of the channels these are listed for everyone. -/
theorem speaks_relist (s : Server) (hnodup : s.sessionTable.Nodup) (sid : SessionId) (text : String) :
    Speaks (s.sendTo sid (.adminResult text)) true s (s.sendTo sid (.adminResult text)) fun v r =>
      if v ∈ s.sessionTable ∧ (s.sessions v).authenticated = true then
        r.hear (.rooms (s.db.getAllChannels.map ChannelRow.id))
      else r := by
  refine ⟨[(sid, .adminResult text)], rfl, fun v r => ?_⟩
  have hanswer : ∀ r, (toldTo v [(sid, LobbyMessage.server (.adminResult text))]).foldl
      hearMessage r = r := by
    intro r
    by_cases hv : sid = v
    · simp [toldTo, hv, hearMessage_of_none (show LobbyMessage.news (.server (.adminResult text)) = none
        from rfl)]
    · simp [toldTo, hv]
  have halong : (s.sendTo sid (.adminResult text)).alongside true (sid, .adminResult text) =
      ((s.sessionTable.filter fun x => (s.sessions x).authenticated).map fun x =>
        (x, LobbyMessage.channelList s.listedChannels)) ++
          [(sid, .server (.adminResult text))] := rfl
  rw [List.flatMap_singleton, halong, toldTo_append, List.foldl_append, hanswer,
    toldTo_map (hnodup.filter _)]
  dsimp only
  by_cases hv : v ∈ s.sessionTable ∧ (s.sessions v).authenticated = true
  · rw [if_pos hv, if_pos (List.mem_filter.mpr hv), ← map_id_listedChannels]
    rfl
  · rw [if_neg hv, if_neg fun hin => hv (List.mem_filter.mp hin)]
    rfl

/-- The channels in the database change, and are listed again. -/
theorem informs_relist {s₁ : Server} {db : Database} {text : String}
    (htable : s₁.sessionTable = s.sessionTable) (hnext : s₁.nextSessionId = s.nextSessionId)
    (hdisconnects : s₁.disconnects = s.disconnects)
    (hseats : ∀ x, s₁.lobby.seats x = s.lobby.seats x ∨
      (s.lobby.seats x).channelId ∉ db.channels.map ChannelRow.id ∧
        s₁.lobby.seats x = { s.lobby.seats x with channelId := 0 })
    (hkept : ∀ x ∈ s.sessionTable, (s₁.lobby.seats x).channelId ∈ s.lobby.channels →
      (s₁.lobby.seats x).channelId ∈ db.channels.map ChannelRow.id)
    (hspeaks : s.sessionTable.Nodup →
      Speaks (({ s₁ with db := db } : Server).sendTo sid (.adminResult text)) true s s₁ g)
    (hown : ∀ v r, g v r = r ∨ (s.sessions v).authenticated = true ∧ v ∈ s.sessionTable ∧
      ∃ c, g v r = r.hear (.left c (s.lobby.seats v).userId)) (hl : s.lobby.Sound) :
    Informs (({ s₁ with db := db } : Server).sendTo sid (.adminResult text)) true s
      (({ s₁ with db := db } : Server).sendTo sid (.adminResult text)) := by
  intro R hR
  have hlisted := speaks_relist { s₁ with db := db } (htable.symm ▸ hR.nodup) sid text
  have hauth : ∀ v, (s₁.sessions v).authenticated = (s.sessions v).authenticated := by
    intro v
    have hseat : (s₁.lobby.seats v).authenticated = (s.lobby.seats v).authenticated := by
      rcases hseats v with hsame | ⟨_, hmoved⟩
      · rw [hsame]
      · rw [hmoved]
    exact hseat
  have hsilent : Speaks (({ s₁ with db := db } : Server).sendTo sid (.adminResult text)) true s₁
      { s₁ with db := db } fun _ r => r := .of_sent rfl
  refine ⟨_, ((hspeaks hR.nodup).trans hsilent).trans hlisted, ?_⟩
  refine hR.relist ({ s₁ with db := db } : Server).lobby htable hnext hdisconnects hseats
    hkept (fun c => mem_rooms db) (fun v hv hauth' => ?_) fun v hv => ?_
  · have hthere : v ∈ s₁.sessionTable ∧ (s₁.sessions v).authenticated = true :=
      ⟨htable.symm ▸ hv, (hauth v).trans hauth'⟩
    dsimp only
    rw [if_pos hthere]
    rcases hown v (R v) with hsame | ⟨_, _, c, hleft⟩
    · rw [hsame]
      exact .inl rfl
    · rw [hleft]
      exact .inr ⟨c, rfl⟩
  · have hnot : ¬ (v ∈ s.sessionTable ∧ (s.sessions v).authenticated = true) := by
      rintro ⟨hin, hauth'⟩
      rcases hv with hle | hout
      · exact absurd hle (not_le_of_gt (hl.lt_next v hin))
      · exact absurd hauth' (Bool.eq_false_iff.mp hout)
    dsimp only
    rw [if_neg fun hthere => hnot ⟨htable ▸ hthere.1, (hauth v).symm.trans hthere.2⟩]
    rcases hown v (R v) with hsame | ⟨hauth', hin, _⟩
    · exact hsame
    · exact absurd ⟨hin, hauth'⟩ hnot

theorem channels_createChannel {db db' : Database} {name : String} {maxUsers : Int}
    (h : db.createChannel name maxUsers = some db') :
    ∀ c ∈ db.channels.map ChannelRow.id, c ∈ db'.channels.map ChannelRow.id := by
  intro c hc
  unfold Database.createChannel at h
  split at h
  · cases h
  · obtain rfl := Option.some.inj h
    rw [List.map_append]
    exact List.mem_append_left _ hc

theorem channels_renameChannel {db db' : Database} {channel : ChannelId} {name : String}
    (h : db.renameChannel channel name = some db') :
    db'.channels.map ChannelRow.id = db.channels.map ChannelRow.id := by
  unfold Database.renameChannel at h
  split at h
  · cases h
  · obtain rfl := Option.some.inj h
    rw [List.map_map]
    apply List.map_congr_left
    intro row _
    dsimp only [Function.comp_apply]
    split <;> rfl

theorem mem_channels_deleteChannel {db : Database} {c : ChannelId} :
    c ∈ (db.deleteChannel channel).channels.map ChannelRow.id ↔
      c ∈ db.channels.map ChannelRow.id ∧ c ≠ channel := by
  rw [Database.deleteChannel, List.mem_map, List.mem_map]
  constructor
  · rintro ⟨row, hrow, rfl⟩
    obtain ⟨hin, hne⟩ := List.mem_filter.mp hrow
    exact ⟨⟨row, hin, rfl⟩, of_decide_eq_true hne⟩
  · rintro ⟨⟨row, hin, rfl⟩, hne⟩
    exact ⟨row, List.mem_filter.mpr ⟨hin, decide_eq_true hne⟩, rfl⟩

/-- No channel goes. -/
theorem informs_moreChannels (hl : s.lobby.Sound) {db : Database} {text : String}
    (hmore : ∀ c ∈ s.lobby.channels, c ∈ db.channels.map ChannelRow.id) :
    Informs (({ s with db := db } : Server).sendTo sid (.adminResult text)) true s
      (({ s with db := db } : Server).sendTo sid (.adminResult text)) :=
  informs_relist rfl rfl rfl (fun _ => .inl rfl) (fun _ _ => hmore _) (fun _ => .of_sent rfl)
    (fun _ _ => .inl rfl) hl

theorem informs_adminCreateChannel (hl : s.lobby.Sound) (name : String) (maxUsers : Int) (dbOk : Bool) :
    Informs (s.adminCreateChannel sid name maxUsers dbOk) true s
      (s.adminCreateChannel sid name maxUsers dbOk) := by
  generalize hfinal : s.adminCreateChannel sid name maxUsers dbOk = final
  unfold adminCreateChannel at hfinal
  split at hfinal
  · exact hfinal ▸ (Still.refl s).informs
  · split at hfinal
    · exact hfinal ▸ (still_sendError s sid _ _).informs
    · split at hfinal
      · exact hfinal ▸ (Still.refl s).informs
      · split at hfinal
        · exact hfinal ▸ (still_sendError s sid _ _).informs
        next db hcreate =>
          rw [← hfinal]
          refine informs_moreChannels hl ?_
          split at hcreate
          · exact channels_createChannel hcreate
          · cases hcreate

theorem informs_adminRenameChannel (hl : s.lobby.Sound) (name : String) (dbOk : Bool) :
    Informs (s.adminRenameChannel sid channel name dbOk) true s
      (s.adminRenameChannel sid channel name dbOk) := by
  generalize hfinal : s.adminRenameChannel sid channel name dbOk = final
  unfold adminRenameChannel at hfinal
  split at hfinal
  · exact hfinal ▸ (Still.refl s).informs
  · split at hfinal
    · exact hfinal ▸ (still_sendError s sid _ _).informs
    · split at hfinal
      · exact hfinal ▸ (Still.refl s).informs
      · split at hfinal
        · exact hfinal ▸ (still_sendError s sid _ _).informs
        next db hrename =>
          rw [← hfinal]
          refine informs_moreChannels hl ?_
          split at hrename
          · intro c hc
            rw [channels_renameChannel hrename]
            exact hc
          · cases hrename

theorem still_evictStreams (s : Server) (channel : ChannelId) : Still s (s.evictStreams channel) := by
  refine .foldl (fun s x => ?_) s _
  split
  · exact ((still_endShares s x).trans (still_stopAllVideoStreams _ _ _)).trans
      (still_clearViewerSubscriptions _ _ _)
  · exact .refl s

/-- The body of the second loop of `ADMIN_DELETE_CHANNEL`. -/
theorem evictUsers_body (t : Server) (relists : Bool) (s : Server) (channel : ChannelId)
    (x : SessionId) :
    let s' := if (s.sessions x).authenticated ∧ (s.sessions x).channelId = channel then
        (s.modifySession x fun session => { session with channelId := 0 }).sendTo x
          (.userLeftChannel (s.sessions x).userId channel)
      else s
    s'.lobby = s.lobby.evict channel [x] ∧ Speaks t relists s s' fun v r =>
      if v = x ∧ (s.lobby.seats v).authenticated = true ∧ (s.lobby.seats v).channelId = channel then
        r.hear (.left channel (s.lobby.seats v).userId)
      else r := by
  dsimp only
  split
  next hthere =>
    have hmoved : (s.modifySession x fun session => { session with channelId := 0 }).lobby =
        s.lobby.modify x fun seat => { seat with channelId := 0 } := lobby_modifySession rfl
    refine ⟨hmoved.trans ?_, ?_⟩
    · simp only [Lobby.modify, Lobby.evict, List.mem_singleton]
      congr 1
      funext y
      by_cases hy : y = x
      · subst hy
        rw [Function.update_self, if_pos ⟨rfl, hthere⟩]
      · rw [Function.update_of_ne hy, if_neg fun hboth => hy hboth.1]
    · have hsilent : Speaks t relists s (s.modifySession x fun session =>
          { session with channelId := 0 }) fun _ r => r := .of_sent rfl
      have halong : t.alongside relists (x, .userLeftChannel (s.sessions x).userId channel) =
          [LobbyMessage.server (.userLeftChannel (s.sessions x).userId channel)].map fun m =>
            (x, m) := rfl
      refine (hsilent.trans (speaks_sendTo _ x _ halong)).congr fun v r => ?_
      by_cases hv : v = x
      · subst hv
        rw [if_pos rfl, if_pos ⟨rfl, hthere⟩]
        rfl
      · rw [if_neg hv, if_neg fun hboth => hv hboth.1]
  next hnot =>
    refine ⟨?_, (Speaks.of_sent rfl).congr fun v r => ?_⟩
    · simp only [Lobby.evict, List.mem_singleton]
      rw [lobby]
      congr 1
      funext y
      rw [if_neg]
      rintro ⟨rfl, hthere⟩
      exact hnot hthere
    · rw [if_neg]
      rintro ⟨rfl, hthere⟩
      exact hnot hthere

theorem evictUsers_foldl (t : Server) (relists : Bool) (channel : ChannelId)
    {others : List SessionId} (hnodup : others.Nodup) :
    let s' := others.foldl (fun s sid =>
      if (s.sessions sid).authenticated ∧ (s.sessions sid).channelId = channel then
        (s.modifySession sid fun session => { session with channelId := 0 }).sendTo sid
          (.userLeftChannel (s.sessions sid).userId channel)
      else s) s
    s'.lobby = s.lobby.evict channel others ∧ Speaks t relists s s' fun v r =>
      if v ∈ others ∧ (s.lobby.seats v).authenticated = true ∧
          (s.lobby.seats v).channelId = channel then
        r.hear (.left channel (s.lobby.seats v).userId)
      else r := by
  induction others generalizing s with
  | nil =>
      refine ⟨?_, (Speaks.of_sent rfl).congr fun v r => ?_⟩
      · simp [Lobby.evict]
      · simp
  | cons x rest ih =>
      obtain ⟨hout, hrest⟩ := List.nodup_cons.mp hnodup
      rw [List.foldl_cons]
      obtain ⟨hfirst, hheard⟩ := evictUsers_body t relists s channel x
      generalize (if (s.sessions x).authenticated = true ∧ (s.sessions x).channelId = channel then
        (s.modifySession x fun session => { session with channelId := 0 }).sendTo x
          (.userLeftChannel (s.sessions x).userId channel) else s) = s₁ at hfirst hheard
      obtain ⟨hothers, hheard'⟩ := ih (s := s₁) hrest
      have hseat : ∀ y ≠ x, s₁.lobby.seats y = s.lobby.seats y := by
        intro y hy
        rw [hfirst]
        exact if_neg fun hboth => hy (List.mem_singleton.mp hboth.1)
      refine ⟨hothers.trans ?_, (hheard.trans hheard').congr fun v r => ?_⟩
      · rw [hfirst]
        simp only [Lobby.evict]
        congr 1
        funext y
        by_cases hy : y = x
        · subst hy
          simp [hout]
        · simp [hy]
      · by_cases hv : v = x
        · subst hv
          simp [hout]
        · rw [hseat v hv]
          simp [hv]

/-- Those who are taken out hear it of their own user. -/
theorem evictUsers_heard (t : Server) (relists : Bool) (hnodup : s.sessionTable.Nodup)
    (channel : ChannelId) :
    (s.evictUsers channel).lobby = s.lobby.evict channel s.sessionTable ∧
      Speaks t relists s (s.evictUsers channel) fun v r =>
        if v ∈ s.sessionTable ∧ (s.lobby.seats v).authenticated = true ∧
            (s.lobby.seats v).channelId = channel then
          r.hear (.left channel (s.lobby.seats v).userId)
        else r := evictUsers_foldl t relists channel hnodup

theorem informs_adminDeleteChannel (hl : s.lobby.Sound) (sid : SessionId) (channel : ChannelId) :
    Informs (s.adminDeleteChannel sid channel true) true s (s.adminDeleteChannel sid channel true) := by
  generalize hfinal : s.adminDeleteChannel sid channel true = final
  unfold adminDeleteChannel at hfinal
  split at hfinal
  · exact hfinal ▸ (Still.refl s).informs
  · split at hfinal
    · exact hfinal ▸ (still_sendError s sid _ _).informs
    · extract_lets s₁ at hfinal
      rw [if_neg (show ¬ (!true) = true from Bool.noConfusion)] at hfinal
      rw [← hfinal]
      intro R hR
      have hstreams := still_evictStreams s channel
      have htable : (s.evictStreams channel).sessionTable = s.sessionTable :=
        congrArg Lobby.table hstreams.lobby
      have hnodup : (s.evictStreams channel).sessionTable.Nodup := by
        rw [htable]
        exact hR.nodup
      have hlobby : s₁.lobby = s.lobby.evict channel s.sessionTable := by
        rw [← hstreams.lobby, ← htable]
        exact (evictUsers_heard s true hnodup channel).1
      have hseat : ∀ x, s₁.lobby.seats x = if x ∈ s.sessionTable ∧
          (s.lobby.seats x).authenticated = true ∧ (s.lobby.seats x).channelId = channel then
            { s.lobby.seats x with channelId := 0 }
          else s.lobby.seats x := by
        intro x
        rw [hlobby]
        rfl
      have hchannels : ∀ c, c ∈ (s₁.db.deleteChannel channel).channels.map ChannelRow.id ↔
          c ∈ s.lobby.channels ∧ c ≠ channel := by
        intro c
        have hsame : s₁.db.channels.map ChannelRow.id = s.lobby.channels :=
          congrArg Lobby.channels hlobby
        rw [mem_channels_deleteChannel, hsame]
      refine informs_relist (congrArg Lobby.table hlobby) (congrArg Lobby.next hlobby)
        (congrArg Lobby.disconnects hlobby) (fun x => ?_) (fun x hx hin => ?_)
        (fun _ => hstreams.speaks.trans (evictUsers_heard _ _ hnodup channel).2) (fun v r => ?_) hl R hR
      · rw [hseat]
        split
        next hthere =>
          exact .inr ⟨fun hin => ((hchannels _).mp hin).2 hthere.2.2, rfl⟩
        · exact .inl rfl
      · refine (hchannels _).mpr ⟨hin, fun hthere => ?_⟩
        rw [hseat] at hin hthere
        split at hin
        · exact hl.zero hin
        next hnot =>
          rw [if_neg hnot] at hthere
          cases hauth : (s.lobby.seats x).authenticated with
          | true => exact hnot ⟨hx, hauth, hthere⟩
          | false => exact hl.zero (hl.home x hx hauth ▸ hin)
      · rw [hstreams.lobby, htable]
        split
        next hthere =>
          exact .inr ⟨hthere.2.1, hthere.1, channel, rfl⟩
        · exact .inl rfl

theorem informs_adminSetRole (s : Server) (sid : SessionId) (target : UserId) (newRole : Role)
    (dbOk : Bool) : Informs t false s (s.adminSetRole sid target newRole dbOk) := by
  unfold adminSetRole
  extract_lets role s₁ s₂ s₃
  split
  · exact (Still.refl s).informs
  · split
    · exact (still_sendError s sid _ _).informs
    · split
      · exact (still_sendError s sid _ _).informs
      · have hstored : Still s s₁ := by
          show Still s (if _ then _ else _)
          split <;> exact .of_eq rfl rfl
        have hlive : Still s₁ s₂ := by
          refine .modifySessions s₁ fun session => ?_
          split <;> rfl
        have htold : Still s₂ s₃ :=
          .sendToAll s₂ _ (show ServerMessage.Quiet (.userRoleChanged target newRole) from trivial)
        have hdone : Still s s₃ := hstored.trans (hlive.trans htold)
        intro R hR
        refine ⟨_, hdone.speaks.trans (speaks_adminResult s₃ sid _), ?_⟩
        have hlobby : (s₃.sendTo sid (.adminResult "Role updated")).lobby = s.lobby := hdone.lobby
        rw [hlobby]
        exact hR

theorem informs_kickAll (s : Server) (sid : SessionId) (target : UserId) (others : List SessionId) :
    Informs t relists s (s.kickAll sid target others) := by
  induction others generalizing s with
  | nil => exact (Still.refl s).informs
  | cons other rest ih =>
      unfold kickAll
      dsimp only
      split
      · split
        · exact (still_sendError s sid _ _).informs
        · exact ((still_sendError s other _ _).informs.trans (informs_disconnect _ other)).trans (ih _)
      · exact ih s

theorem informs_adminKickUser (s : Server) (sid : SessionId) (target : UserId) :
    Informs t false s (s.adminKickUser sid target) := by
  unfold adminKickUser
  split
  · exact (Still.refl s).informs
  · split
    · exact (still_sendError s sid _ _).informs
    · refine (informs_kickAll s sid target s.sessionTable).trans fun R hR => ?_
      exact ⟨_, speaks_adminResult _ sid _, hR⟩

end Server

end Parties

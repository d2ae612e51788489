import Parties.Server.LobbyAdmin

/-!
# Runs of the lobby

In every run in which the database accepts its writes and no join that moves a session is
overtaken by the end of its connection, the clients agree with the server.
-/

namespace Parties

namespace LobbyServer

open Server

/-- What holds between two steps: the registry is in order, and the rosters of the sessions
follow the lobby. -/
structure Accounted (l : LobbyServer) : Prop where
  inOrder : l.server.registry.InOrder
  wellFormed : ∀ m ∈ l.told, m.2.WellFormed
  told : l.server.lobby.Told fun sid => (toldTo sid l.told).foldl hearMessage {}

variable {l : LobbyServer} {s : Server} {op : LobbyOp} {relists : Bool}

theorem wellFormed_channelList (h : s.db.Sound) :
    LobbyMessage.WellFormed (.channelList s.listedChannels) := by
  show (s.listedChannels.map ListedChannel.id).Nodup
  rw [map_id_listedChannels]
  refine ((List.perm_insertionSort _ s.db.channels).map ChannelRow.id).nodup_iff.mpr ?_
  exact List.pairwise_map.mpr h.distinctChannels

theorem wellFormed_alongside (h : s.db.Sound) {sent : SessionId × ServerMessage} :
    ∀ m ∈ s.alongside relists sent, m.2.WellFormed := by
  have hlist := wellFormed_channelList h
  obtain ⟨sid, message⟩ := sent
  intro m hm
  cases message with
  | authResponse user role =>
      rcases List.mem_cons.mp hm with rfl | hm
      · trivial
      · obtain ⟨message, hwelcome, rfl⟩ := List.mem_map.mp hm
        rcases List.mem_cons.mp hwelcome with rfl | hwelcome
        · exact hlist
        · obtain ⟨row, _, rfl⟩ := List.mem_map.mp hwelcome
          trivial
  | adminResult text =>
      rcases List.mem_append.mp hm with hm | hm
      · split at hm
        · obtain ⟨x, _, rfl⟩ := List.mem_map.mp hm
          exact hlist
        · cases hm
      · obtain rfl := List.mem_singleton.mp hm
        trivial
  | userJoinedChannel user channel =>
      rcases List.mem_cons.mp hm with rfl | hm
      · trivial
      · split at hm
        · obtain rfl := List.mem_singleton.mp hm
          trivial
        · cases hm
  | serverError | channelUserList | userLeftChannel | screenShareStarted | screenShareStopped
  | screenShareViewer | userRoleChanged =>
      obtain rfl := List.mem_singleton.mp hm
      trivial

theorem informs_step {s : Server} (h : s.registry.InOrder) {op : ServerOp}
    (hwrites : (LobbyOp.server op).writesSucceed = true) : Informs (s.step op) op.relists s (s.step op) := by
  have hl := sound_lobby h
  cases op with
  | connect => exact informs_onNewConnection hl
  | shutdownComplete sid => exact informs_onShutdownComplete s sid
  | videoFrame sid source frame => exact (still_enqueueVideoFrame s sid source frame).informs
  | videoFrameStarted sid source hdr => exact (still_enqueueVideoEvent s sid source _).informs
  | videoFrameAborted sid source frameSeq => exact (still_enqueueVideoEvent s sid source _).informs
  | videoOutShutdown sid handle =>
      have hstill : Still s (s.videoOutShutdown sid handle) := .modifySession s sid fun _ => rfl
      exact hstill.informs
  | videoControl sid target bucketAllows =>
      exact (still_handleVideoControl s sid target bucketAllows).informs
  | processVideoFrame => exact (still_processVideoFrame s).informs
  | beginPass => exact (Still.of_eq rfl rfl).informs
  | pollIngress stream => exact (still_pollIngress s stream).informs
  | sendDeferred stream => exact (still_sendDeferredKeyframeRequest s stream).informs
  | processDisconnect => exact informs_processDisconnects h
  | message sid message =>
      rw [Server.step]
      unfold handleMessage getSession
      by_cases hin : sid ∈ s.sessionTable
      · rw [if_pos hin]
        cases message with
        | authIdentity auth nowS dbOk =>
            exact informs_authIdentity h hin auth nowS dbOk
        | channelJoin channel voiceState =>
            exact informs_channelJoin h hin
        | channelLeave =>
            exact informs_channelLeave h hin
        | adminCreateChannel name maxUsers dbOk =>
            exact informs_adminCreateChannel hl name maxUsers dbOk
        | adminDeleteChannel channel dbOk =>
            obtain rfl : dbOk = true := hwrites
            exact informs_adminDeleteChannel hl sid channel
        | adminSetRole target newRole dbOk =>
            exact informs_adminSetRole s sid target newRole dbOk
        | adminKickUser target =>
            exact informs_adminKickUser s sid target
        | screenShareStart codec width height source =>
            exact (still_screenShareStart s sid codec width height source).informs
        | screenShareUpdate codec width height source =>
            exact (still_screenShareUpdate s sid codec width height source).informs
        | screenShareStop source =>
            exact (still_screenShareStop s sid source).informs
        | screenShareView target action =>
            exact (still_screenShareView s sid target action).informs
      · rw [if_neg hin]
        exact (Still.refl s).informs

theorem getSession_eq_some {s : Server} {sid : SessionId} {session : Session}
    (h : s.getSession sid = some session) : sid ∈ s.sessionTable ∧ s.sessions sid = session := by
  unfold getSession at h
  split at h
  next hin =>
    exact ⟨hin, Option.some.inj h⟩
  · cases h

theorem sound_renameChannel {db db' : Database} (h : db.Sound) {channel : ChannelId} {name : String}
    (hrename : db.renameChannel channel name = some db') : db'.Sound ∧ db'.users = db.users := by
  have hids := channels_renameChannel hrename
  unfold Database.renameChannel at hrename
  split at hrename
  · cases hrename
  · obtain rfl := Option.some.inj hrename
    refine ⟨{ h with channels := ?_, distinctChannels := ?_ }, rfl⟩
    · intro row hrow
      obtain ⟨old, hold, hid⟩ := List.mem_map.mp (hids ▸ List.mem_map_of_mem hrow)
      rw [← hid]
      exact h.channels old hold
    · have hnodup : (db.channels.map ChannelRow.id).Nodup := List.pairwise_map.mpr h.distinctChannels
      rw [← hids] at hnodup
      exact List.pairwise_map.mp hnodup

theorem inOrder_adminRenameChannel {s : Server} (h : s.registry.InOrder) (sid : SessionId)
    (channel : ChannelId) (newName : String) (dbOk : Bool) :
    (s.adminRenameChannel sid channel newName dbOk).registry.InOrder := by
  unfold adminRenameChannel
  split
  · exact h
  · split
    · exact h
    · split
      · exact h
      · split
        · exact h
        next db hrename =>
          split at hrename
          · obtain ⟨hdb, husers⟩ := sound_renameChannel h.consistent.db hrename
            exact (h.setChannels hdb husers).inOrder
          · cases hrename

/-- Nobody moves, in the registry either. -/
theorem inOrder_overtakenJoin {s : Server} {sid : SessionId} {channel : ChannelId}
    {voiceState : Option (Bool × Bool)} (h : s.registry.InOrder) (hin : sid ∈ s.sessionTable)
    (hstays : (s.sessions sid).authenticated = true →
      (s.onShutdownComplete sid).checkJoin sid channel = .ok () →
        (s.sessions sid).channelId = channel) :
    ((s.onShutdownComplete sid).channelJoin sid channel voiceState).registry.InOrder := by
  have hgone : (s.onShutdownComplete sid).registry.InOrder :=
    inOrder_step h (.shutdownComplete sid)
  rcases overtakenJoin_cases hin voiceState hstays with
    ⟨_, hsame⟩ | ⟨harrives, _, hchannel, _⟩
  · rw [hsame]
    exact hgone
  · have hthere : ((s.onShutdownComplete sid).registry.members sid).channelId = channel := hchannel
    rw [harrives, registry_arrive, ← hthere]
    simpa [Registry.setChannel, Registry.modify] using hgone

namespace Accounted

theorem advance (h : l.Accounted) (hordered : s.registry.InOrder)
    (hinforms : Informs s relists l.server s) : (l.advance s relists).Accounted := by
  obtain ⟨g, ⟨added, hsent, hheard⟩, htold⟩ := hinforms _ h.told
  have hnew : (l.advance s relists).told = l.told ++ added.flatMap (s.alongside relists) := by
    rw [LobbyServer.advance, hsent, List.drop_left]
  refine ⟨hordered, fun m hm => ?_, ?_⟩
  · rw [hnew] at hm
    rcases List.mem_append.mp hm with hold | hadded
    · exact h.wellFormed m hold
    · obtain ⟨sent, _, hin⟩ := List.mem_flatMap.mp hadded
      exact wellFormed_alongside hordered.consistent.db m hin
  · have hroster : ∀ sid, (toldTo sid (l.advance s relists).told).foldl hearMessage {} =
        g sid ((toldTo sid l.told).foldl hearMessage {}) := by
      intro sid
      rw [hnew, toldTo_append, List.foldl_append, hheard]
    simp only [hroster]
    exact htold

theorem serverStep (h : l.Accounted) {op : ServerOp}
    (hwrites : (LobbyOp.server op).writesSucceed = true) : (l.step (.server op)).Accounted :=
  h.advance (inOrder_step h.inOrder op) (informs_step h.inOrder hwrites)

theorem voiceStateUpdate (h : l.Accounted) (sid : SessionId) (muted deafened : BitVec 8) :
    (l.voiceStateUpdate sid muted deafened).Accounted := by
  unfold LobbyServer.voiceStateUpdate
  split
  · exact h
  next session hsession =>
    obtain ⟨hin, rfl⟩ := getSession_eq_some hsession
    split
    · exact h
    next hthere =>
      simp only [Bool.or_eq_true, Bool.not_eq_true', not_or] at hthere
      have hauth : (l.server.sessions sid).authenticated = true := by simpa using hthere.1
      extract_lets s
      have hlobby : s.lobby = l.server.lobby.modify sid fun seat =>
          seat.moveTo seat.channelId (decide (muted ≠ 0), decide (deafened ≠ 0)) :=
        lobby_modifySession rfl
      have hordered : s.registry.InOrder := by
        rw [show s.registry = l.server.registry from registry_modifySession ⟨rfl, rfl, fun _ => rfl, rfl⟩]
        exact h.inOrder
      refine ⟨hordered, fun m hm => ?_, ?_⟩
      · rcases List.mem_append.mp hm with hold | hnew
        · exact h.wellFormed m hold
        · obtain ⟨other, _, rfl⟩ := List.mem_map.mp hnew
          trivial
      · have hl := sound_lobby h.inOrder
        have hroster : ∀ v, (toldTo v (l.told ++ (s.sessionTable.filter fun other =>
            other ≠ sid && (s.sessions other).authenticated).map fun other =>
              (other, LobbyMessage.userVoiceState (l.server.sessions sid).userId (muted ≠ 0)
                (deafened ≠ 0)))).foldl hearMessage {} =
            if l.server.lobby.Hears sid v then
              Roster.hear ((toldTo v l.told).foldl hearMessage {}) (.changed
                (l.server.lobby.seats sid).userId (decide (muted ≠ 0), decide (deafened ≠ 0)))
            else (toldTo v l.told).foldl hearMessage {} := by
          intro v
          have hnodup : s.sessionTable.Nodup := h.told.nodup
          have hpicked : v ∈ (s.sessionTable.filter fun other =>
              other ≠ sid && (s.sessions other).authenticated) ↔ l.server.lobby.Hears sid v := by
            rw [List.mem_filter, Bool.and_eq_true, decide_eq_true_eq]
            exact (show _ ↔ s.lobby.Hears sid v from Iff.rfl).trans (hlobby ▸ Lobby.hears_modify)
          rw [toldTo_append, List.foldl_append, toldTo_map (hnodup.filter _), if_congr hpicked rfl rfl]
          split <;> rfl
        simp only [hroster]
        rw [hlobby]
        exact h.told.changeVoice hl hin hauth (fun v hv hne hv' => if_pos ⟨hv, hne, hv'⟩)
          fun v hv => if_neg fun hhears => hhears.not_fresh hl hv

theorem renameChannel (h : l.Accounted) (sid : SessionId) (channel : ChannelId) (newName : String)
    (dbOk : Bool) : (l.step (.adminRenameChannel sid channel newName dbOk)).Accounted := by
  unfold LobbyServer.step
  dsimp only
  split
  · exact h
  · exact h.advance (inOrder_adminRenameChannel h.inOrder sid channel newName dbOk)
      (informs_adminRenameChannel (sound_lobby h.inOrder) newName dbOk)

theorem overtakenJoin (h : l.Accounted) {sid : SessionId} {channel : ChannelId}
    {voiceState : Option (Bool × Bool)}
    (hstays : ¬ l.MovesDeparted (.overtakenJoin sid channel voiceState)) :
    (l.step (.overtakenJoin sid channel voiceState)).Accounted := by
  unfold LobbyServer.step
  dsimp only
  split
  · exact h
  next session hsession =>
    obtain ⟨hin, rfl⟩ := getSession_eq_some hsession
    have hsame : (l.server.sessions sid).authenticated = true →
        (l.server.onShutdownComplete sid).checkJoin sid channel = .ok () →
          (l.server.sessions sid).channelId = channel := by
      intro hauth hjoin
      by_contra hne
      exact hstays ⟨hin, hauth, hjoin, hne⟩
    exact h.advance (inOrder_overtakenJoin h.inOrder hin hsame)
      (informs_overtakenJoin h.inOrder hin hsame)

theorem step (h : l.Accounted) {op : LobbyOp} (hwrites : op.writesSucceed = true)
    (hstays : ¬ l.MovesDeparted op) : (l.step op).Accounted := by
  cases op with
  | server op => exact h.serverStep hwrites
  | voiceStateUpdate sid muted deafened => exact h.voiceStateUpdate sid muted deafened
  | adminRenameChannel sid channel newName dbOk => exact h.renameChannel sid channel newName dbOk
  | overtakenJoin sid channel voiceState => exact h.overtakenJoin hstays

theorem new (config : Config) (env : Environment) : (LobbyServer.new config env).Accounted where
  inOrder := inOrder_new config env
  wellFormed _ hm := by cases hm
  told := by
    refine ⟨List.nodup_nil, fun _ hin => ?_, fun _ _ => rfl, fun _ hin => ?_⟩
    · cases hin
    · cases hin

theorem run (config : Config) (env : Environment) {ops : List LobbyOp}
    (hwrites : ∀ op ∈ ops, op.writesSucceed = true)
    (hstays : Machine.AllSteps LobbyServer.step (fun l op => ¬ l.MovesDeparted op)
      (LobbyServer.new config env) ops) : (LobbyServer.run config env ops).Accounted :=
  Machine.run_invariant (P := fun l op => op.writesSucceed = true ∧ ¬ l.MovesDeparted op)
    (fun _ _ h hop => h.step hop.1 hop.2) (new config env)
    (Machine.allSteps_and.mpr ⟨Machine.allSteps_of_forall fun _ => hwrites, hstays⟩)

end Accounted

/-! ### Agreement -/

theorem voiceGated (s : Server) : s.VoiceGated := by
  intro pkt hvoice out hout
  unfold processDataPacket at hout
  rw [if_pos (by simp [hvoice])] at hout
  unfold forwardVoice at hout
  split at hout
  · cases hout
  next session hsession =>
    obtain ⟨_, rfl⟩ := getSession_eq_some hsession
    split at hout
    · cases hout
    · split at hout
      · cases hout
      next hspeaks =>
        obtain ⟨x, hx, rfl⟩ := List.mem_map.mp hout
        obtain ⟨_, hpicked⟩ := List.mem_filter.mp hx
        simp only [hvoice, decide_true, Bool.true_and, Bool.or_eq_true, not_or] at hspeaks
        simp only [Bool.and_eq_true, decide_eq_true_eq, Bool.not_eq_true'] at hpicked
        exact ⟨by simpa using hspeaks.1, by simpa using hspeaks.2, hpicked.2, hpicked.1.2⟩

theorem liveSession_eq_some {s : Server} {user : UserId} {x : SessionId}
    (h : s.liveSession user = some x) :
    x ∈ s.sessionTable ∧ (s.sessions x).authenticated = true ∧ (s.sessions x).userId = user := by
  have hpicked := List.find?_some h
  rw [Bool.and_eq_true, decide_eq_true_eq] at hpicked
  exact ⟨List.mem_of_find?_eq_some h, hpicked⟩

/-- The server knows where a user is if one of the sessions is there. -/
theorem whereabouts_cases {s : Server} (hl : s.lobby.Sound) (user : UserId) :
    (∃ x channel voice, s.lobby.At x channel user voice ∧
        s.whereabouts user = some (channel, voice)) ∨
      s.whereabouts user = none ∧ ∀ x channel voice, ¬ s.lobby.At x channel user voice := by
  unfold whereabouts
  cases hlive : s.liveSession user with
  | none =>
      refine .inr ⟨rfl, fun x channel voice hat => ?_⟩
      have hnot := List.find?_eq_none.mp hlive x hat.inTable
      rw [Bool.and_eq_true, decide_eq_true_eq] at hnot
      exact hnot ⟨hat.authenticated, hat.user⟩
  | some x =>
      obtain ⟨hin, hauth, huser⟩ := liveSession_eq_some hlive
      rw [Option.bind_some]
      split
      next hzero =>
        refine .inr ⟨rfl, fun y channel voice hat => ?_⟩
        obtain rfl := hl.single y hat.inTable x hin hat.authenticated hauth
          (hat.user.trans huser.symm)
        exact hat.nonzero (hat.channel.symm.trans hzero)
      next hzero =>
        exact .inl ⟨x, _, _, ⟨hzero, hin, hauth, huser, rfl, rfl⟩, rfl⟩

theorem Accounted.agrees (h : l.Accounted) (hsettled : l.server.disconnects = []) : l.Agrees := by
  intro sid hin hauth halive k events howner hempty hreceived user huser
  have hl := sound_lobby h.inOrder
  have hmessages : ∀ message ∈ events.filterMap LobbyEvent.received, message.WellFormed := by
    intro message hm
    rw [hreceived, toldTo] at hm
    obtain ⟨told, htold, hthis⟩ := List.mem_filterMap.mp hm
    split at hthis
    · obtain rfl := Option.some.inj hthis
      exact h.wellFormed told htold
    · cases hthis
  have hshows := (AppCore.Shows.of_empty rfl hempty).run hmessages
  rw [hreceived] at hshows
  have hfollows := h.told.follows sid hin hauth halive
  have hnobody : ∀ c p, ¬ l.server.lobby.attendance.leaving c p := by
    rintro c p ⟨_, d, hd, _⟩
    have hnone : d ∈ l.server.disconnects := hd
    rw [hsettled] at hnone
    cases hnone
  have hshown : user ≠ (l.server.sessions sid).userId := howner ▸ huser
  rcases whereabouts_cases hl user with ⟨x, channel, voice, hat, hthere⟩ | ⟨hthere, hnowhere⟩
  · have hroom : channel ∈ l.server.lobby.channels :=
      hat.channel ▸ h.told.housed x hat.inTable (hat.channel.symm ▸ hat.nonzero)
    rw [hthere]
    refine hshows.entriesOf_of_one huser ((hfollows.rooms channel).mpr hroom)
      (hfollows.here channel user voice hshown ⟨x, hat⟩) fun c hc => ?_
    rcases hfollows.entries_of_settled hnobody hshown with ⟨w, ⟨y, hy⟩, _⟩ | ⟨_, hnone⟩
    · obtain rfl := hl.single y hy.inTable x hat.inTable hy.authenticated hat.authenticated
        (hy.user.trans hat.user.symm)
      exact absurd (hy.channel.symm.trans hat.channel) hc
    · exact hnone
  · rw [hthere]
    refine hshows.entriesOf_of_none huser fun c => ?_
    rcases hfollows.entries_of_settled hnobody hshown with ⟨w, ⟨y, hy⟩, _⟩ | ⟨_, hnone⟩
    · exact absurd hy (hnowhere y c w)
    · exact hnone

/-- The clients agree with the server in all runs in which no join moves a session whose
connection has completed its shutdown behind the look-up. -/
theorem inAgreement_run (config : Config) (env : Environment) (ops : List LobbyOp)
    (hwrites : ∀ op ∈ ops, op.writesSucceed = true)
    (hstays : Machine.AllSteps step (fun l op => ¬ l.MovesDeparted op) (new config env) ops) :
    (run config env ops).InAgreement :=
  ⟨(Accounted.run config env hwrites hstays).agrees, voiceGated _⟩

/-- User 2 changes its voice state in channel 1 and joins the channel again while its
connection ends. -/
def rejoinInPlace : List LobbyOp :=
  [.server .connect, .server (login 1 0 1), .server (.message 1 (.adminCreateChannel "lobby" 0 true)),
    .server .connect, .server (login 2 1 2), .server (.message 2 (.channelJoin 1 none)),
    .voiceStateUpdate 2 1 0, .overtakenJoin 2 1 (some (true, false)), .server .processDisconnect]

theorem inAgreement_rejoinInPlace :
    (run Config.small (Environment.ticking 1) rejoinInPlace).InAgreement :=
  inAgreement_run Config.small (Environment.ticking 1) rejoinInPlace (by decide) (by decide +kernel)

/-- User 2 joins channel 1 for the first time while its connection ends. -/
def ghostJoin : List LobbyOp :=
  [.server .connect, .server (login 1 0 1), .server (.message 1 (.adminCreateChannel "lobby" 0 true)),
    .server .connect, .server (login 2 1 2), .overtakenJoin 2 1 none, .server .processDisconnect]

/-- Its departure is announced from no channel, so it stays in channel 1 for user 1. -/
theorem not_inAgreement_ghostJoin : (∀ op ∈ ghostJoin, op.writesSucceed = true) ∧
    ¬ (run Config.small (Environment.ticking 1) ghostJoin).InAgreement := by
  refine ⟨by decide, fun h => ?_⟩
  have hreceived : ((toldTo 1 (run Config.small (Environment.ticking 1) ghostJoin).told).map
      LobbyEvent.receive).filterMap LobbyEvent.received =
        toldTo 1 (run Config.small (Environment.ticking 1) ghostJoin).told := by
    rw [List.filterMap_map]
    exact List.filterMap_some ..
  have hview := h.1 (by decide +kernel) 1 (by decide +kernel) (by decide +kernel) (by decide +kernel)
    { userId := 1 } _ (by decide +kernel) rfl hreceived 2 (by decide)
  exact absurd hview (by decide +kernel)

end LobbyServer

end Parties

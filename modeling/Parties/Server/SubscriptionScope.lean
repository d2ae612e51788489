import Parties.Server.Datagrams
import Parties.Server.FrameOffers

/-!
# The scope of subscriptions

A session watches what its own channel lists. Whoever leaves a channel drops what they
watch, and a stream that ends is dropped by everyone. So frames and stream audio stay in
the channel of their publisher, with the sessions that asked for them.
-/

namespace Parties

namespace Registry

/-- What the sessions watch is listed in their own channels. -/
structure Scoped (r : Registry) : Prop where
  nowhere : r.listed 0 = []
  watched : ∀ sid ∈ r.table, r.watched sid ⊆ r.listed (r.members sid).channelId
  fresh : ∀ sid, r.next ≤ sid → r.watched sid = []

variable {o : Occasion} {r r' : Registry} {sid : SessionId} {channel : ChannelId} {user : UserId}

namespace Scoped

/-- A session in no channel watches nothing. -/
theorem watched_eq_nil (h : r.Scoped) (hin : sid ∈ r.table)
    (hchannel : (r.members sid).channelId = 0) : r.watched sid = [] := by
  have hsub := h.watched sid hin
  rw [hchannel, h.nowhere] at hsub
  exact List.subset_nil.mp hsub

theorem stop (h : r.Scoped) (source : VideoSource) : (r.stop channel user source).Scoped := by
  constructor
  · apply List.eq_nil_iff_forall_not_mem.mpr
    intro stream hin
    have hlisted := (mem_listed_stop.mp hin).1
    rw [h.nowhere] at hlisted
    cases hlisted
  · intro sid hin stream hwatched
    have hdropped : stream ∈ r.watched sid ∧ ¬ (videoStreamId user source ∈ r.listed channel ∧
        stream = videoStreamId user source) := by
      simp only [Registry.stop] at hwatched
      split at hwatched
      · obtain ⟨hold, hne⟩ := List.mem_filter.mp hwatched
        refine ⟨hold, fun hboth => of_decide_eq_true hne hboth.2⟩
      next hout =>
        exact ⟨hwatched, fun hboth => hout ⟨hin, hboth.1⟩⟩
    obtain ⟨hold, hother⟩ := hdropped
    have hlisted := h.watched sid hin hold
    refine mem_listed_stop.mpr ⟨hlisted, ?_⟩
    rintro ⟨hchannel, rfl⟩
    change (r.members sid).channelId = channel at hchannel
    exact hother ⟨hchannel ▸ hlisted, rfl⟩
  · intro sid hnext
    simp [Registry.stop, h.fresh sid hnext]

theorem stopAll (h : r.Scoped) : (r.stopAll channel user).Scoped :=
  (h.stop .screen).stop .camera

theorem endSession (h : r.Scoped) (sid : SessionId) : (r.endSession sid user channel).Scoped := by
  have hforget : (r.forget sid user).Scoped := { h with }
  unfold Registry.endSession
  dsimp only
  split
  · exact hforget
  · exact hforget.stopAll

/-- A session watches other streams of its channel. -/
theorem setWatched (h : r.Scoped) {left : List StreamId}
    (hleft : sid ∈ r.table → left ⊆ r.listed (r.members sid).channelId)
    (hfresh : r.next ≤ sid → left = []) : (r.setWatched sid left).Scoped := by
  refine ⟨h.nowhere, ?_, ?_⟩
  · intro other hin
    by_cases hsid : other = sid
    · subst hsid
      simp only [Registry.setWatched, Function.update_self]
      exact hleft hin
    · simp only [Registry.setWatched, Function.update_of_ne hsid]
      exact h.watched other hin
  · intro other hnext
    by_cases hsid : other = sid
    · subst hsid
      simp only [Registry.setWatched, Function.update_self]
      exact hfresh hnext
    · simp only [Registry.setWatched, Function.update_of_ne hsid]
      exact h.fresh other hnext

/-- A session watches less. -/
theorem unwatch (h : r.Scoped) {left : List StreamId} (hleft : left ⊆ r.watched sid) :
    (r.setWatched sid left).Scoped := by
  refine h.setWatched (fun hin _ hold => h.watched sid hin (hleft hold)) fun hnext => ?_
  rw [h.fresh sid hnext] at hleft
  exact List.subset_nil.mp hleft

theorem processDisconnect (h : r.Scoped) (sid : SessionId) :
    (r.processDisconnect sid user channel).Scoped := by
  have hended : (r.endSession sid user channel).Scoped := h.endSession sid
  unfold Registry.processDisconnect
  split
  · exact hended.unwatch (List.nil_subset _)
  · exact hended

/-- A session changes; if it moves, it watches nothing. -/
theorem modify (h : r.Scoped) {f : Member → Member}
    (hf : (f (r.members sid)).channelId ≠ (r.members sid).channelId → sid ∈ r.table →
      r.watched sid = []) : (r.modify sid f).Scoped := by
  refine ⟨h.nowhere, ?_, h.fresh⟩
  intro other hin
  by_cases hsid : other = sid
  · subst hsid
    rw [members_modify_self]
    by_cases hmoved : (f (r.members other)).channelId = (r.members other).channelId
    · rw [hmoved]
      exact h.watched other hin
    · rw [show (r.modify other f).watched other = [] from hf hmoved hin]
      exact List.nil_subset _
  · rw [members_modify_of_ne hsid]
    exact h.watched other hin

theorem setChannel (h : r.Scoped) (channel : ChannelId) (hidle : sid ∈ r.table → r.watched sid = []) :
    (r.setChannel sid channel).Scoped :=
  h.modify fun _ => hidle

/-- Only the sessions that stay count. -/
theorem sublist (h : r.Scoped) {table : List SessionId} (htable : table ⊆ r.table)
    (disconnects : List SessionDisconnect) :
    { r with table := table, disconnects := disconnects }.Scoped :=
  ⟨h.nowhere, fun sid hin => h.watched sid (htable hin), h.fresh⟩

theorem depart (h : r.Scoped) (sid : SessionId) : (r.depart sid).Scoped := by
  have hretired : (r.retire sid).Scoped := h.modify fun hmoved => absurd rfl hmoved
  exact hretired.sublist (List.filter_subset_self _) _

theorem connect (h : r.Scoped) : r.connect.Scoped := by
  refine ⟨h.nowhere, ?_, ?_⟩
  · intro sid hin
    by_cases hsid : sid = r.next
    · subst hsid
      simp [Registry.connect]
    · have hold : sid ∈ r.table := by simpa [Registry.connect, hsid] using hin
      simp only [Registry.connect, Function.update_of_ne hsid]
      exact h.watched sid hold
  · intro sid hnext
    have hsid : sid ≠ r.next := (Nat.lt_of_succ_le hnext).ne'
    simp only [Registry.connect, Function.update_of_ne hsid]
    exact h.fresh sid (Nat.le_of_succ_le hnext)

theorem replace (h : r.Scoped) (hauthed : r.authed sid = true) : (r.replace sid).Scoped := by
  refine (h.processDisconnect sid).modify fun _ hin => ?_
  by_cases hzero : (r.members sid).channelId = 0
  · have hsame : (r.processDisconnect sid (r.members sid).userId (r.members sid).channelId).members
        sid = r.members sid := by rw [(processDisconnect_frame r sid _ _).2.1]
    exact (h.processDisconnect sid).watched_eq_nil hin (by rw [hsame, hzero])
  · unfold Registry.processDisconnect
    rw [if_pos ⟨hzero, hauthed⟩]
    exact Function.update_self ..

theorem leave (h : r.Scoped) (sid : SessionId) : (r.leave sid).Scoped := by
  have hstopped : (r.stopAll (r.members sid).channelId (r.members sid).userId).Scoped := h.stopAll
  have hdropped : ((r.stopAll (r.members sid).channelId (r.members sid).userId).setWatched sid
      []).Scoped := hstopped.unwatch (List.nil_subset _)
  exact hdropped.setChannel 0 fun _ => Function.update_self ..

theorem publish (h : r.Scoped) (hchannel : (r.members sid).channelId ≠ 0) (source : VideoSource) :
    (r.publish sid source).Scoped := by
  constructor
  · apply List.eq_nil_iff_forall_not_mem.mpr
    intro stream hin
    rcases mem_listed_publish.mp hin with hold | ⟨hzero, _⟩
    · rw [h.nowhere] at hold
      cases hold
    · exact hchannel hzero.symm
  · intro other hin stream hwatched
    exact mem_listed_publish.mpr (.inl (h.watched other hin hwatched))
  · exact h.fresh

/-- The roles of the sessions do not matter. -/
theorem setRole (h : r.Scoped) (target : UserId) (role : Role) (dbOk : Bool) :
    (r.setRole target role dbOk).Scoped := by
  refine ⟨h.nowhere, ?_, h.fresh⟩
  intro other hin
  have hchannel : ((r.setRole target role dbOk).members other).channelId =
      (r.members other).channelId := by
    simp only [Registry.setRole]
    split <;> rfl
  rw [hchannel]
  exact h.watched other hin

end Scoped

/-- A move keeps what the sessions watch in their channels. -/
theorem Move.scoped (hmove : Move o r r') (hr : r.InOrder) (h : r.Scoped) : r'.Scoped := by
  cases hmove with
  | connect => exact h.connect
  | retire sid => exact h.modify fun hmoved => absurd rfl hmoved
  | depart sid hin => exact h.depart sid
  | prune now hnow => exact { h with }
  | accept now key timestamp hnow hfresh hearly hpruned hnewer => exact { h with }
  | register key displayName role db hnew hcreate hrole => exact { h with }
  | restore row user hrow hid hkey hrole => exact { h with }
  | replace sid hin hauth => exact h.replace (hr.marked sid hin hauth)
  | signIn sid user key role hlogin hin hout hknows honly hrole =>
      have hsigned : (r.modify sid fun member => { member with
          authenticated := true, userId := user, publicKey := key, role := role }).Scoped :=
        h.modify fun hmoved => absurd rfl hmoved
      exact { hsigned with }
  | leave sid hin hauth => exact h.leave sid
  | enter sid channel row hin hauth hidle hoff hrow hroom =>
      exact h.setChannel channel fun _ => h.watched_eq_nil hin hoff
  | evict sid hauth hidle => exact h.setChannel 0 fun _ => hidle.watched
  | watch sid stream hview hin hlisted =>
      refine h.setWatched (fun _ => ?_) fun hnext => ?_
      · intro other hother
        rcases List.mem_cons.mp hother with rfl | hold
        · exact hlisted
        · exact h.watched sid hin hold
      · exact absurd (hr.consistent.lt_next sid hin) (not_lt.mpr hnext)
  | unwatch sid left hleft => exact h.unwatch hleft
  | stop sid source hin hauth => exact h.stop source
  | publish sid source hin hauth hchannel => exact h.publish hchannel source
  | createChannel name maxUsers db hcreate => exact { h with }
  | deleteChannel channel => exact { h with }
  | setRole sid target newRole user hin hauth hmay hnot hbelow huser hover howner =>
      exact h.setRole target newRole o.dbOk

/-- A move lets in new sessions only. While no one logs in, everyone stays who they are;
while someone does, no one subscribes, and those who change watch nothing. -/
theorem Move.identity (hmove : Move o r r') (hr : r.InOrder) (h : r.Scoped) :
    r.next ≤ r'.next ∧ (∀ sid ∈ r'.table, sid ∈ r.table ∨ r.next ≤ sid) ∧
      ∀ sid < r.next, ((r'.members sid).userId = (r.members sid).userId ∨
          o.now ≠ none ∧ r.watched sid = []) ∧
        (r'.watched sid ⊆ r.watched sid ∨ o.now = none) := by
  have hsame : ∀ r' : Registry, r'.next = r.next → r'.table = r.table →
      (∀ sid, (r'.members sid).userId = (r.members sid).userId) →
      (∀ sid, r'.watched sid ⊆ r.watched sid) →
      r.next ≤ r'.next ∧ (∀ sid ∈ r'.table, sid ∈ r.table ∨ r.next ≤ sid) ∧
        ∀ sid < r.next, ((r'.members sid).userId = (r.members sid).userId ∨
            o.now ≠ none ∧ r.watched sid = []) ∧
          (r'.watched sid ⊆ r.watched sid ∨ o.now = none) := by
    intro r' hnext htable huser hwatched
    refine ⟨hnext.ge, fun sid hin => .inl (htable ▸ hin), fun sid _ => ⟨.inl (huser sid), ?_⟩⟩
    exact .inl (hwatched sid)
  have hmodify : ∀ (r : Registry) (sid other : SessionId) (f : Member → Member),
      (f (r.members sid)).userId = (r.members sid).userId →
        ((r.modify sid f).members other).userId = (r.members other).userId := by
    intro r sid other f hf
    by_cases hsid : other = sid
    · subst hsid
      rw [members_modify_self]
      exact hf
    · rw [members_modify_of_ne hsid]
  cases hmove with
  | connect =>
      refine ⟨Nat.le_succ _, fun sid hin => ?_, fun sid hlt => ?_⟩
      · rcases List.mem_append.mp hin with hin | hin
        · exact .inl hin
        · exact .inr (List.mem_singleton.mp hin).ge
      · simp [Registry.connect, Function.update_of_ne hlt.ne]
  | retire sid => exact hsame _ rfl rfl (fun _ => hmodify _ _ _ _ rfl) fun _ => List.Subset.refl _
  | depart sid hin =>
      refine ⟨le_rfl, fun other hother => .inl (List.mem_of_mem_filter hother), fun other _ => ?_⟩
      exact ⟨.inl (hmodify r sid other (fun member => { member with alive := false }) rfl),
        .inl (List.Subset.refl _)⟩
  | prune now hnow => exact hsame _ rfl rfl (fun _ => rfl) fun _ => List.Subset.refl _
  | accept now key timestamp hnow hfresh hearly hpruned hnewer =>
      exact hsame _ rfl rfl (fun _ => rfl) fun _ => List.Subset.refl _
  | register key displayName role db hnew hcreate hrole =>
      exact hsame _ rfl rfl (fun _ => rfl) fun _ => List.Subset.refl _
  | restore row user hrow hid hkey hrole =>
      exact hsame _ rfl rfl (fun _ => rfl) fun _ => List.Subset.refl _
  | replace sid hin hauth =>
      obtain ⟨htable, hmembers, _, _⟩ := processDisconnect_frame r sid (r.members sid).userId
        (r.members sid).channelId
      refine hsame _ (next_processDisconnect ..) htable (fun other => ?_) fun other => ?_
      · refine (hmodify _ _ _ _ rfl).trans ?_
        rw [hmembers]
      · exact List.Subset.trans (watched_processDisconnect_subset ..)
          (watched_endSession_subset ..)
  | signIn sid user key role hlogin hin hout hknows honly hrole =>
      refine ⟨le_rfl, fun _ => .inl, fun other _ => ⟨?_, .inl (List.Subset.refl _)⟩⟩
      by_cases hsid : other = sid
      · subst hsid
        exact .inr ⟨hlogin, h.watched_eq_nil hin (hr.consistent.home other hin hout)⟩
      · exact .inl (congrArg Member.userId (Function.update_of_ne hsid ..))
  | leave sid hin hauth =>
      refine hsame _ rfl rfl (fun other => hmodify r sid other (fun member =>
        { member with channelId := 0 }) rfl) fun other => ?_
      by_cases hsid : other = sid
      · subst hsid
        have hnone : (r.leave other).watched other = [] := Function.update_self ..
        rw [hnone]
        exact List.nil_subset _
      · have hkept : (r.leave sid).watched other = (r.stopAll (r.members sid).channelId
          (r.members sid).userId).watched other := Function.update_of_ne hsid ..
        rw [hkept]
        exact watched_stopAll_subset ..
  | enter sid channel row hin hauth hidle hoff hrow hroom =>
      exact hsame _ rfl rfl (fun _ => hmodify _ _ _ _ rfl) fun _ => List.Subset.refl _
  | evict sid hauth hidle =>
      exact hsame _ rfl rfl (fun _ => hmodify _ _ _ _ rfl) fun _ => List.Subset.refl _
  | watch sid stream hview hin hlisted =>
      exact ⟨le_rfl, fun _ => .inl, fun _ _ => ⟨.inl rfl, .inr hview⟩⟩
  | unwatch sid left hleft =>
      refine hsame _ rfl rfl (fun _ => rfl) fun other => ?_
      by_cases hsid : other = sid
      · subst hsid
        simpa [Registry.setWatched] using hleft
      · simp [Registry.setWatched, hsid]
  | stop sid source hin hauth => exact hsame _ rfl rfl (fun _ => rfl) (watched_stop_subset _ _ _ _)
  | publish sid source hin hauth hchannel =>
      exact hsame _ rfl rfl (fun _ => rfl) fun _ => List.Subset.refl _
  | createChannel name maxUsers db hcreate =>
      exact hsame _ rfl rfl (fun _ => rfl) fun _ => List.Subset.refl _
  | deleteChannel channel => exact hsame _ rfl rfl (fun _ => rfl) fun _ => List.Subset.refl _
  | setRole sid target newRole user hin hauth hmay hnot hbelow huser hover howner =>
      refine hsame _ rfl rfl (fun other => ?_) fun _ => List.Subset.refl _
      simp only [Registry.setRole]
      split <;> rfl

theorem Scoped.workOff (h : r.Scoped) (d : SessionDisconnect) (rest : List SessionDisconnect) :
    (r.workOff d rest).Scoped := by
  have hqueue : { r with disconnects := rest }.Scoped := { h with }
  exact hqueue.processDisconnect d.sessionId

end Registry

namespace Server

theorem scoped_run (config : Config) (env : Environment) (ops : List ServerOp) :
    (run config env ops).registry.Scoped := by
  apply registry_run ?_ ?_ ?_ ops
  · exact ⟨rfl, (fun sid hin => by cases hin), fun _ _ => rfl⟩
  · intro o r r' hr h hmove
    exact hmove.scoped hr h
  · intro r d rest _ h _
    exact h.workOff d rest

/-! ### Forwarding -/

variable {s : Server}

/-- The viewer is in the publisher's channel and subscribed to this stream of theirs. -/
structure Receives (s : Server) (viewer : SessionId) (stream : StreamId) (publisher : SessionId) :
    Prop where
  publishes : s.Publishes publisher stream
  inTable : viewer ∈ s.sessionTable
  authenticated : (s.sessions viewer).authenticated = true
  channel : (s.sessions viewer).channelId = (s.sessions publisher).channelId
  subscribed : stream ∈ (s.sessions viewer).subscribedSharers
  distinct : viewer ≠ publisher
  otherUser : (s.sessions viewer).userId ≠ (s.sessions publisher).userId

/-- Two sessions of one user are one. -/
theorem eq_of_userId (h : s.registry.InOrder) {sid sid' : SessionId} (hin : sid ∈ s.sessionTable)
    (hin' : sid' ∈ s.sessionTable) (hauth : (s.sessions sid).authenticated = true)
    (hauth' : (s.sessions sid').authenticated = true)
    (huser : (s.sessions sid).userId = (s.sessions sid').userId) : sid = sid' := by
  have hsession := h.consistent.sessionForUser hin (h.marked sid hin hauth)
  have hsession' := h.consistent.sessionForUser hin' (h.marked sid' hin' hauth')
  rw [show (s.registry.members sid).userId = (s.registry.members sid').userId from huser,
    hsession'] at hsession
  exact (Option.some.inj hsession).symm

theorem Takes.receives {viewer publisher : SessionId} {stream : StreamId}
    (h : s.Takes viewer stream publisher) (hs : s.registry.InOrder) :
    s.Receives viewer stream publisher := by
  obtain ⟨hpublishes, hviewer⟩ := h
  simp only [isViewer, Bool.and_eq_true, decide_eq_true_eq] at hviewer
  obtain ⟨⟨⟨⟨hin, hne⟩, hauth⟩, hchannel⟩, hsubscribed⟩ := hviewer
  refine ⟨hpublishes, hin, hauth, hchannel, hsubscribed, hne, fun huser => hne ?_⟩
  exact eq_of_userId hs hin hpublishes.inTable hauth hpublishes.authenticated huser

/-- The audio of a share goes to those who watch it. -/
theorem receives_of_forwardStreamAudio (hs : s.registry.InOrder) {pkt : DataPacket}
    {target : SessionId} {data : Bytes} (h : (target, data) ∈ s.forwardStreamAudio pkt) :
    s.Receives target (videoStreamId (s.sessions pkt.sessionId).userId .screen) pkt.sessionId := by
  unfold forwardStreamAudio getSession at h
  by_cases hin : pkt.sessionId ∈ s.sessionTable
  · rw [if_pos hin] at h
    dsimp only at h
    split at h
    · cases h
    next hactive =>
      simp only [Bool.or_eq_true, Bool.not_eq_true', decide_eq_true_eq, not_or,
        Bool.not_eq_false] at hactive
      split at h
      · cases h
      next hlisted =>
        obtain ⟨sid, hsid, heq⟩ := List.mem_map.mp h
        obtain ⟨rfl, _⟩ := Prod.mk.inj heq
        obtain ⟨htarget, hpicked⟩ := List.mem_filter.mp hsid
        simp only [Bool.and_eq_true, decide_eq_true_eq] at hpicked
        obtain ⟨⟨⟨hne, hauth⟩, hchannel⟩, hsubscribed⟩ := hpicked
        -- user ids are small, so the stream of the screen has the id of the user
        have hpack := hs.consistent.packable hin (hs.marked _ hin hactive.1)
        have hstream : videoStreamId (s.sessions pkt.sessionId).userId .screen =
            (s.sessions pkt.sessionId).userId := videoStreamId_screen hpack
        rw [hstream]
        refine ⟨⟨hin, hactive.1, hactive.2, ⟨.screen, hstream.symm⟩, not_not.mp hlisted⟩, htarget,
          hauth, hchannel, hsubscribed, hne, fun huser => hne ?_⟩
        exact eq_of_userId hs htarget hin hauth hactive.1 huser
  · rw [if_neg hin] at h
    cases h

/-- The frames a step hands on go to those who watch them. -/
theorem step_receives (hs : s.registry.InOrder) (op : ServerOp) (viewer : SessionId)
    (stream : StreamId) : ∃ kept events,
      ((s.step op).sessions viewer).viewerLog stream = kept ++ events ∧
      (kept = (s.sessions viewer).viewerLog stream ∨ kept = []) ∧
      ∀ hdr handle, .handed hdr handle ∈ events →
        ∃ publisher, s.Receives viewer stream publisher := by
  cases hop : op.isVideo with
  | true =>
      obtain ⟨events, hlog, hhanded⟩ := (Prolongs.step s hop).2 viewer stream
      refine ⟨_, events, hlog, .inl rfl, fun hdr handle hin => ?_⟩
      obtain ⟨publisher, htakes⟩ := hhanded hdr handle hin
      exact ⟨publisher, htakes.receives hs⟩
  | false =>
      cases (sameRecords_step s hop).record viewer stream with
      | same hlog hhanded hsending hkept =>
          refine ⟨_, [], ?_, .inl rfl, fun hdr handle hin => by cases hin⟩
          rw [hlog, List.append_nil]
      | fresh hlog hsending hwaits =>
          exact ⟨[], [], hlog, .inr rfl, fun hdr handle hin => by cases hin⟩

/-- In every reachable state what a session watches is listed in its channel; the frames
of a step and the audio of a share reach only sessions of the publisher's channel that
subscribed to the stream, and not the publisher. -/
theorem subscriptions_in_channel (config : Config) (env : Environment) (ops : List ServerOp) :
    let s := run config env ops
    (∀ sid ∈ s.sessionTable, ∀ stream ∈ (s.sessions sid).subscribedSharers,
      stream ∈ s.channelVideoStreams (s.sessions sid).channelId) ∧
    (∀ op viewer stream, ∃ kept events,
      ((s.step op).sessions viewer).viewerLog stream = kept ++ events ∧
      (kept = (s.sessions viewer).viewerLog stream ∨ kept = []) ∧
      ∀ hdr handle, .handed hdr handle ∈ events →
        ∃ publisher, s.Receives viewer stream publisher) ∧
    ∀ pkt target data, (target, data) ∈ s.forwardStreamAudio pkt →
      s.Receives target (videoStreamId (s.sessions pkt.sessionId).userId .screen) pkt.sessionId := by
  intro s
  have hs : s.registry.InOrder := inOrder_run config env ops
  refine ⟨(scoped_run config env ops).watched, ?_, ?_⟩
  · intro op viewer stream
    exact step_receives hs op viewer stream
  · intro pkt target data h
    exact receives_of_forwardStreamAudio hs h

end Server

end Parties

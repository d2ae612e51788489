import Parties.Server.RegistryRuns

/-!
# Where the owners of listed streams are

A stream may stay listed after its share has ended on its own: when its owner drops and
comes back into the channel before the main loop has seen the drop. But a channel lists
streams only of users who are in it, or of users whose departure from it the main loop
has yet to see.
-/

namespace Parties

namespace Registry

/-- The session of the user is in the channel. -/
def Home (r : Registry) (channel : ChannelId) (user : UserId) : Prop :=
  ∃ sid, r.sessionForUser user = some sid ∧ (r.members sid).channelId = channel

/-- The owners of listed streams are in the channel or have departed from it; `extra` are
the departures a handler is in the middle of. -/
def Housed (r : Registry) (extra : ChannelId → UserId → Prop) : Prop :=
  ∀ channel stream, stream ∈ r.listed channel → channel ≠ 0 ∧
    (∃ source, videoStreamSource stream = some source) ∧
      (r.Home channel (videoStreamOwner stream) ∨ r.Pending channel (videoStreamOwner stream) ∨
        extra channel (videoStreamOwner stream))

variable {o : Occasion} {r r' : Registry} {extra : ChannelId → UserId → Prop}
  {channel : ChannelId} {user : UserId} {source : VideoSource} {sid : SessionId}

namespace Housed

theorem mono (h : r.Housed extra) {extra' : ChannelId → UserId → Prop}
    (hextra : ∀ c u, extra c u → extra' c u) : r.Housed extra' := by
  intro c stream hin
  obtain ⟨hzero, hsource, hwhy⟩ := h c stream hin
  exact ⟨hzero, hsource, hwhy.imp_right (.imp_right (hextra _ _))⟩

/-- A departure is settled by the user being there, or by nothing of theirs being listed. -/
theorem settle (h : r.Housed (orDeparted extra channel user))
    (hsettled : channel ≠ 0 → r.Home channel user ∨
      ∀ source, videoStreamId user source ∉ r.listed channel) : r.Housed extra := by
  intro c stream hin
  obtain ⟨hzero, ⟨source, hsource⟩, hwhy⟩ := h c stream hin
  refine ⟨hzero, ⟨source, hsource⟩, ?_⟩
  rcases hwhy with hhome | hpending | hextra | ⟨rfl, rfl⟩
  · exact .inl hhome
  · exact .inr (.inl hpending)
  · exact .inr (.inr hextra)
  · rcases hsettled hzero with hhome | hnone
    · exact .inl hhome
    · rw [← videoStreamId_owner hsource] at hin
      exact absurd hin (hnone source)

theorem stop (h : r.Housed extra) (channel : ChannelId) (user : UserId) (source : VideoSource) :
    (r.stop channel user source).Housed extra :=
  fun c stream hin => h c stream (mem_listed_stop.mp hin).1

theorem stopAll (h : r.Housed extra) (channel : ChannelId) (user : UserId) :
    (r.stopAll channel user).Housed extra :=
  (h.stop channel user .screen).stop channel user .camera

/-- A session is forgotten: its user has departed. -/
theorem forget (h : r.Housed extra) (hr : r.Consistent)
    (hchannel : sid ∈ r.table → (r.members sid).channelId = channel)
    (huser : sid ∈ r.table → r.authed sid = true → (r.members sid).userId = user) :
    (r.forget sid user).Housed (orDeparted extra channel user) := by
  intro c stream hin
  obtain ⟨hzero, hsource, hwhy⟩ := h c stream hin
  refine ⟨hzero, hsource, ?_⟩
  rcases hwhy with ⟨current, hsession, hc⟩ | hpending | hextra
  · obtain ⟨hindex, htable⟩ := sessionForUser_eq_some.mp hsession
    by_cases hsid : current = sid
    · subst hsid
      obtain ⟨hmark, howner⟩ := hr.user _ current hindex htable
      exact .inr (.inr (.inr ⟨hc.symm.trans (hchannel htable),
        howner.symm.trans (huser htable hmark)⟩))
    · refine .inl ⟨current, sessionForUser_eq_some.mpr ⟨?_, htable⟩, hc⟩
      simp only [Registry.forget]
      split
      next hgone =>
        by_cases heq : videoStreamOwner stream = user
        · rw [heq, hgone] at hindex
          exact absurd (Option.some.inj hindex).symm hsid
        · rw [Function.update_of_ne heq]
          exact hindex
      · exact hindex
  · exact .inr (.inl hpending)
  · exact .inr (.inr (.inl hextra))

/-- A session of `user` in `channel` ends. -/
theorem endSession (h : r.Housed (orDeparted extra channel user)) (hr : r.Consistent)
    (hpack : channel ≠ 0 → user.Packable)
    (hchannel : sid ∈ r.table → (r.members sid).channelId = channel)
    (huser : sid ∈ r.table → r.authed sid = true → (r.members sid).userId = user) :
    (r.endSession sid user channel).Housed extra := by
  have hforget : (r.forget sid user).Housed (orDeparted extra channel user) :=
    (h.forget hr hchannel huser).mono fun c u hextra => hextra.elim id .inr
  unfold Registry.endSession
  dsimp only
  split
  next hsame =>
    refine hforget.settle fun hzero => .inl ?_
    have hrejoined := hsame.resolve_left hzero
    simp only [Registry.rejoined, Option.any_eq_true, Bool.and_eq_true, decide_eq_true_eq]
      at hrejoined
    obtain ⟨current, hsession, _, hthere⟩ := hrejoined
    exact ⟨current, hsession, hthere⟩
  · refine (hforget.stopAll channel user).settle fun hzero => .inr fun source => ?_
    exact not_mem_listed_stopAll (videoStreamSource_id _ _) (videoStreamOwner_id (hpack hzero) _)

/-- A session changes; where it leaves a channel, nothing of it is listed there. -/
theorem modify (h : r.Housed extra) (hr : r.Consistent) {f : Member → Member}
    (hf : sid ∈ r.table → r.authed sid = true →
      (f (r.members sid)).channelId = (r.members sid).channelId ∨
        ∀ source, videoStreamId (r.members sid).userId source ∉
          r.listed (r.members sid).channelId) : (r.modify sid f).Housed extra := by
  intro c stream hin
  obtain ⟨hzero, ⟨source, hsource⟩, hwhy⟩ := h c stream hin
  refine ⟨hzero, ⟨source, hsource⟩, ?_⟩
  rcases hwhy with ⟨other, hsession, hchannel⟩ | hdeparted
  · refine .inl ⟨other, hsession, ?_⟩
    by_cases hsid : other = sid
    · subst hsid
      obtain ⟨hindex, htable⟩ := sessionForUser_eq_some.mp hsession
      obtain ⟨hmark, howner⟩ := hr.user _ other hindex htable
      rw [members_modify_self]
      rcases hf htable hmark with hstays | hnone
      · exact hstays.trans hchannel
      · refine absurd ?_ (hnone source)
        rw [howner, hchannel, videoStreamId_owner hsource]
        exact hin
    · rw [members_modify_of_ne hsid]
      exact hchannel
  · exact .inr hdeparted

theorem connect (h : r.Housed extra) (hr : r.Consistent) : r.connect.Housed extra := by
  intro c stream hin
  obtain ⟨hzero, hsource, hwhy⟩ := h c stream hin
  refine ⟨hzero, hsource, hwhy.imp_left ?_⟩
  rintro ⟨sid, hsession, hchannel⟩
  obtain ⟨hindex, htable⟩ := sessionForUser_eq_some.mp hsession
  have hne : sid ≠ r.next := (hr.lt_next sid htable).ne
  refine ⟨sid, sessionForUser_eq_some.mpr ⟨hindex, List.mem_append_left _ htable⟩, ?_⟩
  rw [show r.connect.members sid = r.members sid from Function.update_of_ne hne ..]
  exact hchannel

theorem depart (h : r.Housed extra) (hr : r.Consistent) (sid : SessionId) :
    (r.depart sid).Housed extra := by
  intro c stream hin
  obtain ⟨hzero, hsource, hwhy⟩ := h c stream hin
  refine ⟨hzero, hsource, ?_⟩
  rcases hwhy with ⟨current, hsession, hchannel⟩ | ⟨d, hd, hwhose⟩ | hextra
  · obtain ⟨hindex, htable⟩ := sessionForUser_eq_some.mp hsession
    obtain ⟨hmark, howner⟩ := hr.user _ current hindex htable
    by_cases hsid : current = sid
    · subst hsid
      refine .inr (.inl ⟨{
        sessionId := current
        userId := (r.members current).userId
        channelId := (r.members current).channelId }, ?_, howner, hchannel⟩)
      simp [Registry.depart, (hr.authed current htable hmark).1]
    · refine .inl ⟨current, sessionForUser_eq_some.mpr ⟨hindex, ?_⟩, ?_⟩
      · simp [Registry.depart, htable, hsid]
      · rw [show (r.depart sid).members current = r.members current from
          Function.update_of_ne hsid ..]
        exact hchannel
  · refine .inr (.inl ⟨d, ?_, hwhose⟩)
    simp only [Registry.depart]
    split
    · exact List.mem_append_left _ hd
    · exact hd
  · exact .inr (.inr hextra)

theorem replace (h : r.Housed extra) (hr : r.Consistent) (hin : sid ∈ r.table)
    (hauthed : r.authed sid = true) : (r.replace sid).Housed extra := by
  have hpack := hr.packable hin hauthed
  have hended : (r.processDisconnect sid (r.members sid).userId
      (r.members sid).channelId).Housed extra :=
    (h.mono fun _ _ => .inl).endSession hr (fun _ => hpack) (fun _ => rfl) fun _ _ => rfl
  have hconsistent : (r.processDisconnect sid (r.members sid).userId
      (r.members sid).channelId).Consistent :=
    hr.processDisconnect (fun _ => hpack) fun _ _ => rfl
  refine hended.modify hconsistent fun _ hmark => ?_
  rw [(processDisconnect_frame ..).2.2.1, Function.update_self] at hmark
  cases hmark

theorem signIn (h : r.Housed extra) (hr : r.Consistent) {key : PublicKey} {role : Role}
    (hin : sid ∈ r.table) (hout : (r.members sid).authenticated = false)
    (hnobody : r.sessionForUser user = none) : (r.signIn sid user key role).Housed extra := by
  intro c stream hlisted
  obtain ⟨hzero, hsource, hwhy⟩ := h c stream hlisted
  refine ⟨hzero, hsource, hwhy.imp_left ?_⟩
  rintro ⟨current, hsession, hchannel⟩
  obtain ⟨hindex, htable⟩ := sessionForUser_eq_some.mp hsession
  have howner : videoStreamOwner stream ≠ user := by
    intro heq
    rw [heq, hnobody] at hsession
    cases hsession
  have hsid : current ≠ sid := by
    rintro rfl
    have hauth := (hr.authed current hin (hr.user _ current hindex htable).1).1
    rw [hout] at hauth
    cases hauth
  refine ⟨current, sessionForUser_eq_some.mpr ⟨?_, htable⟩, ?_⟩
  · rw [show (r.signIn sid user key role).userSessions _ = _ from Function.update_of_ne howner ..]
    exact hindex
  · rw [show (r.signIn sid user key role).members current = r.members current from
      Function.update_of_ne hsid ..]
    exact hchannel

theorem leave (h : r.Housed extra) (hr : r.Consistent) (hin : sid ∈ r.table)
    (hauthed : r.authed sid = true) : (r.leave sid).Housed extra := by
  have hpack := hr.packable hin hauthed
  have hstopped := h.stopAll (r.members sid).channelId (r.members sid).userId
  have hdropped : ((r.stopAll (r.members sid).channelId (r.members sid).userId).setWatched sid
      []).Housed extra := hstopped
  refine hdropped.modify ((hr.stopAll hpack _).setWatched _) fun _ _ => .inr fun source => ?_
  exact not_mem_listed_stopAll (videoStreamSource_id _ _) (videoStreamOwner_id hpack _)

theorem publish (h : r.Housed extra) (hr : r.Consistent) (hin : sid ∈ r.table)
    (hauthed : r.authed sid = true) (hchannel : (r.members sid).channelId ≠ 0)
    (source : VideoSource) : (r.publish sid source).Housed extra := by
  intro c stream hlisted
  rcases mem_listed_publish.mp hlisted with hold | ⟨rfl, rfl⟩
  · exact h c stream hold
  · refine ⟨hchannel, ⟨source, videoStreamSource_id _ _⟩, .inl ⟨sid, ?_, rfl⟩⟩
    rw [videoStreamOwner_id (hr.packable hin hauthed)]
    exact hr.sessionForUser hin hauthed

/-- The sessions stay in their channels. -/
theorem setMembers (h : r.Housed extra) {members : SessionId → Member}
    (hmembers : ∀ sid, (members sid).channelId = (r.members sid).channelId) :
    { r with members := members }.Housed extra := by
  intro c stream hin
  obtain ⟨hzero, hsource, hwhy⟩ := h c stream hin
  refine ⟨hzero, hsource, hwhy.imp_left ?_⟩
  rintro ⟨sid, hsession, hchannel⟩
  exact ⟨sid, hsession, (hmembers sid).trans hchannel⟩

end Housed

/-- A move keeps the owners of listed streams accounted for. -/
theorem Move.housed (hmove : Move o r r') (hr : r.InOrder) (h : r.Housed extra) :
    r'.Housed extra := by
  have hc := hr.consistent
  cases hmove with
  | connect => exact h.connect hc
  | retire sid => exact h.modify hc fun _ _ => .inl rfl
  | depart sid hin => exact h.depart hc sid
  | prune now hnow => exact h
  | accept now key timestamp hnow hfresh hearly hpruned hnewer => exact h
  | register key displayName role db hnew hcreate hrole => exact h
  | restore row user hrow hid hkey hrole => exact h
  | replace sid hin hauth => exact h.replace hc hin (hr.marked sid hin hauth)
  | signIn sid user key role hlogin hin hout hknows honly hrole =>
      exact h.signIn hc hin hout (hr.sessionForUser_eq_none hout hknows honly)
  | leave sid hin hauth => exact h.leave hc hin (hr.marked sid hin hauth)
  | enter sid channel row hin hauth hidle hoff hrow hroom =>
      refine h.modify hc fun _ _ => .inr fun source hlisted => ?_
      exact (h _ _ hlisted).1 hoff
  | evict sid hauth hidle => exact h.modify hc fun _ _ => .inr hidle.listed
  | watch sid stream hview hin hlisted => exact h
  | unwatch sid left hleft => exact h
  | stop sid source hin hauth => exact h.stop _ _ source
  | publish sid source hin hauth hchannel =>
      exact h.publish hc hin (hr.marked sid hin hauth) hchannel source
  | createChannel name maxUsers db hcreate => exact h
  | deleteChannel channel => exact h
  | setRole sid target newRole user hin hauth hmay hnot hbelow huser hover howner =>
      refine Housed.setMembers (r := { r with
        db := if o.dbOk then r.db.setUserRole target newRole else r.db }) h fun other => ?_
      dsimp only
      split <;> rfl

theorem Housed.workOff (h : r.Housed extra) (hr : r.InOrder) {d : SessionDisconnect}
    {rest : List SessionDisconnect} (hd : r.disconnects = d :: rest) :
    (r.workOff d rest).Housed extra := by
  obtain ⟨hout, _, hpack⟩ := hr.consistent.events d (by simp [hd])
  have hpopped : { r with disconnects := rest }.Consistent :=
    { hr.consistent with
      events := fun d' hd' => hr.consistent.events d' (by simp [hd, hd']) }
  -- the event that is taken off accounts for what it did before
  have htaken : { r with disconnects := rest }.Housed (orDeparted extra d.channelId d.userId) := by
    intro c stream hin
    obtain ⟨hzero, hsource, hwhy⟩ := h c stream hin
    refine ⟨hzero, hsource, ?_⟩
    rcases hwhy with hhome | ⟨d', hd', huser, hchannel⟩ | hextra
    · exact .inl hhome
    · rcases List.mem_cons.mp (hd ▸ hd') with rfl | hrest
      · exact .inr (.inr (.inr ⟨hchannel.symm, huser.symm⟩))
      · exact .inr (.inl ⟨d', hrest, huser, hchannel⟩)
    · exact .inr (.inr (.inl hextra))
  exact htaken.endSession hpopped (fun _ => hpack) (fun hin => absurd hin hout)
    fun hin => absurd hin hout

end Registry

end Parties

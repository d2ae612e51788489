import Parties.Server.Registry

/-!
# Where listed streams come from

A channel lists a stream because a live session of its owner runs the share there,
or because one did and its disconnect is still pending. Each operation of the
registry keeps that, and the end of a session does if the session its user has by
then agrees with the list: it runs what is listed in the channel that was left if
and only if it is in that channel itself.
-/

namespace Parties

namespace Registry

/-- The session of its owner runs the stream in the channel. -/
def Live (r : Registry) (channel : ChannelId) (stream : StreamId) (source : VideoSource) : Prop :=
  ∃ sid, r.sessionForUser (videoStreamOwner stream) = some sid ∧
    (r.members sid).channelId = channel ∧ r.allowed sid source = true

def Pending (r : Registry) (channel : ChannelId) (user : UserId) : Prop :=
  ∃ d ∈ r.disconnects, d.userId = user ∧ d.channelId = channel

/-- Every listed stream is live or belongs to a departed session; `extra` are the
departures a handler is in the middle of. -/
def Listed (r : Registry) (extra : ChannelId → UserId → Prop) : Prop :=
  ∀ channel stream, stream ∈ r.listed channel → channel ≠ 0 ∧
    ∃ source, videoStreamSource stream = some source ∧
      (r.Live channel stream source ∨ r.Pending channel (videoStreamOwner stream) ∨
        extra channel (videoStreamOwner stream))

/-- The session `user` has now agrees with what `channel` lists of them. -/
def Agrees (r : Registry) (user : UserId) (channel : ChannelId) : Prop :=
  ∀ current, r.sessionForUser user = some current →
    ∀ source, videoStreamId user source ∈ r.listed channel →
      (r.allowed current source = true ↔ (r.members current).channelId = channel)

/-- `extra`, or the departure of `user` from `channel`. -/
def orDeparted (extra : ChannelId → UserId → Prop) (channel : ChannelId) (user : UserId) :
    ChannelId → UserId → Prop :=
  fun c u => extra c u ∨ c = channel ∧ u = user

variable {r : Registry} {extra : ChannelId → UserId → Prop} {channel : ChannelId} {user : UserId}
  {source : VideoSource} {sid : SessionId}

theorem not_mem_listed_stopAll {stream : StreamId} (hsource : videoStreamSource stream = some source)
    (howner : videoStreamOwner stream = user) :
    stream ∉ (r.stopAll channel user).listed channel := by
  have hstream : stream = videoStreamId user source := by
    rw [← howner, videoStreamId_owner hsource]
  intro hin
  obtain ⟨hscreen, hcamera⟩ := mem_listed_stop.mp hin
  cases source with
  | screen => exact (mem_listed_stop.mp hscreen).2 ⟨rfl, hstream⟩
  | camera => exact hcamera ⟨rfl, hstream⟩

/-- After `stopAll` in its own channel a session may send nothing. -/
theorem Consistent.allowed_stopAll (h : r.Consistent) (hin : sid ∈ r.table)
    (hauthed : r.authed sid = true) (source : VideoSource) :
    (r.stopAll (r.members sid).channelId (r.members sid).userId).allowed sid source = false := by
  have hpack := h.packable hin hauthed
  have hstopped := h.stopAll hpack (r.members sid).channelId
  by_contra hnot
  obtain ⟨_, hlisted⟩ := hstopped.published sid hin source (by simpa using hnot)
  exact not_mem_listed_stopAll (videoStreamSource_id _ _) (videoStreamOwner_id hpack _) hlisted

namespace Listed

theorem mono (h : r.Listed extra) {extra' : ChannelId → UserId → Prop}
    (hextra : ∀ c u, extra c u → extra' c u) : r.Listed extra' := by
  intro c stream hin
  obtain ⟨hzero, source, hsource, hwhy⟩ := h c stream hin
  exact ⟨hzero, source, hsource, hwhy.imp_right (.imp_right (hextra _ _))⟩

/-- The departures that are not listed any more need no answer. -/
theorem settle (h : r.Listed (orDeparted extra channel user))
    (hsettled : channel ≠ 0 → ∀ source, videoStreamId user source ∈ r.listed channel →
      r.Live channel (videoStreamId user source) source) : r.Listed extra := by
  intro c stream hin
  obtain ⟨hzero, source, hsource, hwhy⟩ := h c stream hin
  refine ⟨hzero, source, hsource, ?_⟩
  rcases hwhy with hlive | hpending | hextra | ⟨rfl, rfl⟩
  · exact .inl hlive
  · exact .inr (.inl hpending)
  · exact .inr (.inr hextra)
  · have hstream := videoStreamId_owner hsource
    have hlive := hsettled hzero source (by rwa [hstream])
    rw [hstream] at hlive
    exact .inl hlive

/-- A stream stops. What the user's session still runs, it runs in that channel. -/
theorem stop (h : r.Listed extra) (hr : r.Consistent)
    (hkeep : ∀ current, r.sessionForUser user = some current →
      videoStreamId user source ∈ r.listed channel → r.allowed current source = true →
      (r.members current).channelId = channel) :
    (r.stop channel user source).Listed extra := by
  intro c stream hin
  obtain ⟨hlisted, hkept⟩ := mem_listed_stop.mp hin
  obtain ⟨hzero, source', hsource, hwhy⟩ := h c stream hlisted
  refine ⟨hzero, source', hsource, hwhy.imp_left ?_⟩
  rintro ⟨sid, hsession, hchannel, hallowed⟩
  refine ⟨sid, hsession, hchannel, allowed_stop.mpr ⟨hallowed, ?_⟩⟩
  by_contra hnot
  obtain ⟨hlisted', hsession', rfl⟩ := stops_eq_true.mp (by simpa using hnot)
  -- the session is the user's own, so this very entry was the one to go
  obtain ⟨hindex, htable⟩ := sessionForUser_eq_some.mp hsession
  obtain ⟨hindex', _⟩ := sessionForUser_eq_some.mp hsession'
  have howner : videoStreamOwner stream = user :=
    ((hr.user _ sid hindex htable).2).symm.trans (hr.user _ sid hindex' htable).2
  refine hkept ⟨?_, ?_⟩
  · exact hchannel.symm.trans (hkeep sid hsession' hlisted' hallowed)
  · rw [← howner, videoStreamId_owner hsource]

theorem stopAll (h : r.Listed (orDeparted extra channel user)) (hr : r.Consistent)
    (hpack : user.Packable)
    (hkeep : ∀ current, r.sessionForUser user = some current → ∀ source,
      videoStreamId user source ∈ r.listed channel → r.allowed current source = true →
      (r.members current).channelId = channel) :
    (r.stopAll channel user).Listed extra := by
  have hscreen := h.stop hr fun current hsession => hkeep current hsession .screen
  have hboth : (r.stopAll channel user).Listed (orDeparted extra channel user) := by
    refine hscreen.stop (hr.stop hpack channel .screen) fun current hsession hlisted hallowed => ?_
    exact hkeep current hsession .camera (mem_listed_stop.mp hlisted).1
      (allowed_stop.mp hallowed).1
  refine hboth.settle fun _ source hlisted => ?_
  exact absurd hlisted
    (not_mem_listed_stopAll (videoStreamSource_id _ _) (videoStreamOwner_id hpack _))

/-- A session is forgotten: what it ran has departed. -/
theorem forget (h : r.Listed extra) (hr : r.Consistent)
    (hchannel : sid ∈ r.table → (r.members sid).channelId = channel)
    (huser : sid ∈ r.table → r.authed sid = true → (r.members sid).userId = user) :
    (r.forget sid user).Listed (orDeparted extra channel user) := by
  intro c stream hin
  obtain ⟨hzero, source, hsource, hwhy⟩ := h c stream hin
  refine ⟨hzero, source, hsource, ?_⟩
  rcases hwhy with ⟨current, hsession, hc, hallowed⟩ | hpending | hextra
  · obtain ⟨hindex, htable⟩ := sessionForUser_eq_some.mp hsession
    by_cases hsid : current = sid
    · subst hsid
      obtain ⟨hmark, howner⟩ := hr.user _ current hindex htable
      exact .inr (.inr (.inr ⟨hc.symm.trans (hchannel htable),
        howner.symm.trans (huser htable hmark)⟩))
    · refine .inl ⟨current, sessionForUser_eq_some.mpr ⟨?_, htable⟩, hc, ?_⟩
      · simp only [Registry.forget]
        split
        next hgone =>
          by_cases heq : videoStreamOwner stream = user
          · rw [heq, hgone] at hindex
            exact absurd (Option.some.inj hindex).symm hsid
          · rw [Function.update_of_ne heq]
            exact hindex
        · exact hindex
      · simp [Registry.forget, hallowed, hsid]
  · exact .inr (.inl hpending)
  · exact .inr (.inr (.inl hextra))

end Listed

/-- After `forget` a user has no session or another one. -/
theorem sessionForUser_forget {current : SessionId}
    (h : (r.forget sid user).sessionForUser user = some current) :
    r.sessionForUser user = some current ∧ current ≠ sid := by
  obtain ⟨hindex, htable⟩ := sessionForUser_eq_some.mp h
  simp only [Registry.forget] at hindex
  split at hindex
  · rw [Function.update_self] at hindex
    cases hindex
  next hother =>
    refine ⟨sessionForUser_eq_some.mpr ⟨hindex, htable⟩, ?_⟩
    rintro rfl
    exact hother hindex

theorem allowed_forget {other : SessionId} :
    (r.forget sid user).allowed other source = true →  r.allowed other source = true := by
  intro h
  simp only [Registry.forget, Bool.and_eq_true] at h
  exact h.1

/-- A session of `user` in `channel` ends and everything it ran there goes with it. -/
theorem Listed.endSession (h : r.Listed (orDeparted extra channel user))
    (hr : r.Consistent) (hpack : user.Packable)
    (hchannel : sid ∈ r.table → (r.members sid).channelId = channel)
    (huser : sid ∈ r.table → r.authed sid = true → (r.members sid).userId = user)
    (hagrees : sid ∉ r.table → r.Agrees user channel)
    (honly : sid ∈ r.table → r.sessionForUser user = some sid) :
    (r.endSession sid user channel).Listed extra := by
  have hforget : (r.forget sid user).Listed (orDeparted extra channel user) :=
    (h.forget hr hchannel huser).mono fun c u hextra => hextra.elim id .inr
  -- a session the user has after it is the one the condition is about
  have hcurrent : ∀ current, (r.forget sid user).sessionForUser user = some current →
      ∀ source, videoStreamId user source ∈ r.listed channel →
      (r.allowed current source = true ↔ (r.members current).channelId = channel) := by
    intro current hsession
    obtain ⟨hbefore, hne⟩ := sessionForUser_forget hsession
    have hout : sid ∉ r.table := by
      intro hin
      rw [honly hin] at hbefore
      exact hne (Option.some.inj hbefore).symm
    exact hagrees hout current hbefore
  unfold Registry.endSession
  dsimp only
  split
  next hsame =>
    refine hforget.settle fun hzero source hlisted => ?_
    have hrejoined := hsame.resolve_left hzero
    simp only [Registry.rejoined, Option.any_eq_true, Bool.and_eq_true, decide_eq_true_eq]
      at hrejoined
    obtain ⟨current, hsession, hne, hthere⟩ := hrejoined
    refine ⟨current, by rwa [videoStreamOwner_id hpack], hthere, ?_⟩
    simp [Registry.forget, hne, (hcurrent current hsession source hlisted).mpr hthere]
  · refine hforget.stopAll (hr.forget huser) hpack fun current hsession source hlisted hallowed => ?_
    exact (hcurrent current hsession source hlisted).mp (allowed_forget hallowed)

namespace Listed

/-- What the sessions watch is no part of it. -/
theorem setWatched (h : r.Listed extra) (watched : SessionId → List StreamId) :
    { r with watched := watched }.Listed extra := h

theorem connect (h : r.Listed extra) (hr : r.Consistent) : r.connect.Listed extra := by
  intro c stream hin
  obtain ⟨hzero, source, hsource, hwhy⟩ := h c stream hin
  refine ⟨hzero, source, hsource, hwhy.imp_left ?_⟩
  rintro ⟨sid, hsession, hchannel, hallowed⟩
  obtain ⟨hindex, htable⟩ := sessionForUser_eq_some.mp hsession
  have hne : sid ≠ r.next := (hr.lt_next sid htable).ne
  refine ⟨sid, sessionForUser_eq_some.mpr ⟨hindex, List.mem_append_left _ htable⟩, ?_, ?_⟩
  · rw [show r.connect.members sid = r.members sid from Function.update_of_ne hne ..]
    exact hchannel
  · rw [show r.connect.allowed sid = r.allowed sid from Function.update_of_ne hne ..]
    exact hallowed

/-- A change of a session that stays where it is, or that may send nothing. -/
theorem modify (h : r.Listed extra) {f : Member → Member}
    (hstays : sid ∈ r.table → ∀ source, r.allowed sid source = true →
      (f (r.members sid)).channelId = (r.members sid).channelId) :
    (r.modify sid f).Listed extra := by
  intro c stream hin
  obtain ⟨hzero, source, hsource, hwhy⟩ := h c stream hin
  refine ⟨hzero, source, hsource, hwhy.imp_left ?_⟩
  rintro ⟨other, hsession, hchannel, hallowed⟩
  refine ⟨other, hsession, ?_, hallowed⟩
  by_cases hsid : other = sid
  · subst hsid
    have htable := (sessionForUser_eq_some.mp hsession).2
    rw [show (r.modify other f).members other = f (r.members other) from Function.update_self ..,
      hstays htable source hallowed]
    exact hchannel
  · rw [show (r.modify sid f).members other = r.members other from Function.update_of_ne hsid ..]
    exact hchannel

theorem depart (h : r.Listed extra) (hr : r.Consistent) : (r.depart sid).Listed extra := by
  intro c stream hin
  obtain ⟨hzero, source, hsource, hwhy⟩ := h c stream hin
  refine ⟨hzero, source, hsource, ?_⟩
  rcases hwhy with ⟨current, hsession, hchannel, hallowed⟩ | ⟨d, hd, hwhose⟩ | hextra
  · obtain ⟨hindex, htable⟩ := sessionForUser_eq_some.mp hsession
    obtain ⟨hmark, howner⟩ := hr.user _ current hindex htable
    by_cases hsid : current = sid
    · subst hsid
      refine .inr (.inl ⟨{
        sessionId := current
        userId := (r.members current).userId
        channelId := (r.members current).channelId }, ?_, howner, hchannel⟩)
      simp [Registry.depart, (hr.authed current htable hmark).1]
    · refine .inl ⟨current, sessionForUser_eq_some.mpr ⟨hindex, ?_⟩, ?_, hallowed⟩
      · simp [Registry.depart, htable, hsid]
      · rw [show (r.depart sid).members current = r.members current from
          Function.update_of_ne hsid ..]
        exact hchannel
  · refine .inr (.inl ⟨d, ?_, hwhose⟩)
    simp only [Registry.depart]
    split
    · exact List.mem_append_left _ hd
    · exact hd
  · exact .inr (.inr hextra)

theorem replace (h : r.Listed extra) (hr : r.Consistent) (hin : sid ∈ r.table)
    (hauthed : r.authed sid = true) : (r.replace sid).Listed extra := by
  have hpack := hr.packable hin hauthed
  have hended : (r.processDisconnect sid (r.members sid).userId
      (r.members sid).channelId).Listed extra :=
    (h.mono fun _ _ => .inl).endSession hr hpack (fun _ => rfl) (fun _ _ => rfl)
      (fun hout => absurd hin hout) fun _ => hr.sessionForUser hin hauthed
  have hconsistent : (r.processDisconnect sid (r.members sid).userId
      (r.members sid).channelId).Consistent :=
    hr.processDisconnect (fun _ => hpack) fun _ _ => rfl
  refine hended.modify fun hin' source hallowed => ?_
  have hmark : (r.processDisconnect sid (r.members sid).userId
      (r.members sid).channelId).authed sid = false := by
    rw [(processDisconnect_frame ..).2.2.1, Function.update_self]
  exact absurd ((hconsistent.idle sid hin' hmark source).symm.trans hallowed) (by simp)

theorem signIn (h : r.Listed extra) (hr : r.Consistent) {key : PublicKey} {role : Role} (hin : sid ∈ r.table)
    (hout : (r.members sid).authenticated = false)
    (hnobody : r.sessionForUser user = none) : (r.signIn sid user key role).Listed extra := by
  intro c stream hlisted
  obtain ⟨hzero, source, hsource, hwhy⟩ := h c stream hlisted
  refine ⟨hzero, source, hsource, hwhy.imp_left ?_⟩
  rintro ⟨current, hsession, hchannel, hallowed⟩
  obtain ⟨hindex, htable⟩ := sessionForUser_eq_some.mp hsession
  have howner : videoStreamOwner stream ≠ user := by
    intro heq
    rw [heq, hnobody] at hsession
    cases hsession
  have hsid : current ≠ sid := by
    rintro rfl
    have hauth := (hr.authed current hin (hr.user _ current hindex htable).1).1
    rw [hout] at hauth
    cases hauth
  refine ⟨current, sessionForUser_eq_some.mpr ⟨?_, htable⟩, ?_, hallowed⟩
  · rw [show (r.signIn sid user key role).userSessions _ = _ from Function.update_of_ne howner ..]
    exact hindex
  · rw [show (r.signIn sid user key role).members current = r.members current from
      Function.update_of_ne hsid ..]
    exact hchannel

theorem publish (h : r.Listed extra) (hr : r.Consistent) (hin : sid ∈ r.table)
    (hauthed : r.authed sid = true) (hchannel : (r.members sid).channelId ≠ 0)
    (source : VideoSource) : (r.publish sid source).Listed extra := by
  intro c stream hlisted
  rcases mem_listed_publish.mp hlisted with hold | ⟨rfl, rfl⟩
  · obtain ⟨hzero, source', hsource, hwhy⟩ := h c stream hold
    refine ⟨hzero, source', hsource, hwhy.imp_left ?_⟩
    rintro ⟨current, hsession, hc, hallowed⟩
    exact ⟨current, hsession, hc, allowed_publish.mpr (.inl hallowed)⟩
  · refine ⟨hchannel, source, videoStreamSource_id _ _, .inl ⟨sid, ?_, rfl, ?_⟩⟩
    · rw [videoStreamOwner_id (hr.packable hin hauthed)]
      exact hr.sessionForUser hin hauthed
    · exact allowed_publish.mpr (.inr ⟨rfl, rfl⟩)

end Listed

/-! ### The newer session -/

/-- Stopping keeps the share of a session the condition of `Listed.stop` excepts. -/
theorem stop_keeps {other : SessionId} {source' : VideoSource}
    (hkept : r.stops channel user source' other source = false)
    (hallowed : r.allowed other source = true) :
    (r.stop channel user source').allowed other source = true ∧
      (r.stop channel user source').generation other source = r.generation other source :=
  ⟨allowed_stop.mpr ⟨hallowed, hkept⟩, by simp [Registry.stop, hkept]⟩

/-- The end of a departed session leaves the running shares alone, if its user runs
none outside the channel it was in that the channel still lists. -/
theorem processDisconnect_keeps (hr : r.Consistent) (hpack : channel ≠ 0 → user.Packable)
    (hout : sid ∉ r.table) {other : SessionId} (hin : other ∈ r.table)
    (hkeep : r.sessionForUser user = some other → videoStreamId user source ∈ r.listed channel →
      r.allowed other source = true → (r.members other).channelId = channel)
    (hallowed : r.allowed other source = true) :
    (r.processDisconnect sid user channel).allowed other source = true ∧
      (r.processDisconnect sid user channel).generation other source = r.generation other source ∧
      videoStreamId (r.members other).userId source ∈
        (r.processDisconnect sid user channel).listed (r.members other).channelId := by
  have hne : other ≠ sid := fun heq => hout (heq ▸ hin)
  have hflags : (r.processDisconnect sid user channel).allowed other source = true ∧
      (r.processDisconnect sid user channel).generation other source =
        r.generation other source := by
    have hforget : (r.forget sid user).allowed other source = true := by
      simp [Registry.forget, hallowed, hne]
    unfold Registry.processDisconnect Registry.endSession
    dsimp only
    split
    · exact ⟨hforget, rfl⟩
    next hnot =>
      -- a stop that took the flag would be of a session that is in the channel
      have hstops : ∀ source', videoStreamId user source' ∈ (r.forget sid user).listed channel →
          (r.forget sid user).sessionForUser user = some other → source ≠ source' := by
        rintro source' hlisted hsession rfl
        have hthere := hkeep (sessionForUser_forget hsession).1 hlisted hallowed
        refine hnot (.inr ?_)
        simp only [Registry.rejoined, hsession, Option.any_some, Bool.and_eq_true,
          decide_eq_true_eq]
        exact ⟨hne, hthere⟩
      have hscreen : (r.forget sid user).stops channel user .screen other source = false := by
        by_contra hstop
        obtain ⟨hlisted, hsession, hsource⟩ := stops_eq_true.mp (by simpa using hstop)
        exact hstops _ hlisted hsession hsource
      obtain ⟨hallowed', hgeneration⟩ := stop_keeps hscreen hforget
      have hcamera : ((r.forget sid user).stop channel user .screen).stops channel user .camera
          other source = false := by
        by_contra hstop
        obtain ⟨hlisted, hsession, hsource⟩ := stops_eq_true.mp (by simpa using hstop)
        exact hstops _ (mem_listed_stop.mp hlisted).1 hsession hsource
      obtain ⟨hallowed'', hgeneration'⟩ := stop_keeps hcamera hallowed'
      exact ⟨hallowed'', hgeneration'.trans hgeneration⟩
  have hended := hr.processDisconnect hpack fun hin' => absurd hin' hout
  obtain ⟨htable, hmembers, _, _⟩ := processDisconnect_frame r sid user channel
  have hlisted := (hended.published other (htable ▸ hin) source hflags.1).2
  rw [hmembers] at hlisted
  exact ⟨hflags.1, hflags.2, hlisted⟩

/-! ### Between two handlers -/

/-- The registry between two handlers. -/
structure InOrder (r : Registry) : Prop where
  consistent : r.Consistent
  marked : r.Marked

/-- A change that keeps the registry in order and the listed streams accounted for. -/
structure Keeps (r r' : Registry) : Prop where
  inOrder : r'.InOrder
  listed : ∀ extra, r.Listed extra → r'.Listed extra

variable {r' r'' : Registry}

theorem Keeps.trans (h : r.Keeps r') (h' : r'.Keeps r'') : r.Keeps r'' :=
  ⟨h'.inOrder, fun extra hlisted => h'.listed extra (h.listed extra hlisted)⟩

namespace InOrder

theorem keeps_self (h : r.InOrder) : r.Keeps r := ⟨h, fun _ => id⟩

theorem connect (h : r.InOrder) : r.Keeps r.connect where
  inOrder := ⟨h.consistent.connect, fun sid hin hauth => by
    by_cases hsid : sid = r.next
    · subst hsid
      simp [Registry.connect, Session.member] at hauth
    · have hold : sid ∈ r.table := by simpa [Registry.connect, hsid] using hin
      simp only [Registry.connect, Function.update_of_ne hsid] at hauth
      exact h.marked sid hold hauth⟩
  listed _ hlisted := hlisted.connect h.consistent

theorem retire (h : r.InOrder) (sid : SessionId) : r.Keeps (r.retire sid) where
  inOrder := ⟨h.consistent.retire sid, fun other hin hauth => by
    refine h.marked other hin ?_
    by_cases hsid : other = sid
    · subst hsid
      simpa [Registry.retire, Registry.modify] using hauth
    · simpa [Registry.retire, Registry.modify, hsid] using hauth⟩
  listed _ hlisted := hlisted.modify fun _ _ _ => rfl

theorem depart (h : r.InOrder) (hin : sid ∈ r.table) : r.Keeps (r.depart sid) where
  inOrder := ⟨h.consistent.depart hin h.marked, fun other hin' hauth =>
    (h.retire sid).inOrder.marked other (List.mem_of_mem_filter hin') hauth⟩
  listed _ hlisted := hlisted.depart h.consistent

theorem replace (h : r.InOrder) (hin : sid ∈ r.table)
    (hauth : (r.members sid).authenticated = true) : r.Keeps (r.replace sid) where
  inOrder := by
    have hauthed := h.marked sid hin hauth
    refine ⟨h.consistent.replace hin hauthed, fun other hin' hauth' => ?_⟩
    obtain ⟨htable, hmembers, hmark, _⟩ :=
      processDisconnect_frame r sid (r.members sid).userId (r.members sid).channelId
    by_cases hsid : other = sid
    · subst hsid
      simp [Registry.replace, Registry.modify] at hauth'
    · simp only [Registry.replace, Registry.modify, Function.update_of_ne hsid, hmembers] at hauth'
      simp only [Registry.replace, Registry.modify, htable] at hin'
      simp only [Registry.replace, Registry.modify, hmark, Function.update_of_ne hsid]
      exact h.marked other hin' hauth'
  listed _ hlisted := hlisted.replace h.consistent hin (h.marked sid hin hauth)

/-- Nobody is signed in yet as the user of a key that nobody else signed in with. -/
theorem sessionForUser_eq_none (h : r.InOrder) {key : PublicKey}
    (hout : (r.members sid).authenticated = false) (hknows : r.db.Knows user key)
    (honly : ∀ other ∈ r.table, other ≠ sid → (r.members other).authenticated = true →
      (r.members other).publicKey ≠ key) : r.sessionForUser user = none := by
  by_contra hsome
  obtain ⟨current, hcurrent⟩ := Option.ne_none_iff_exists'.mp hsome
  obtain ⟨hindex, htable⟩ := sessionForUser_eq_some.mp hcurrent
  obtain ⟨hmark, howner⟩ := h.consistent.user user current hindex htable
  obtain ⟨hauth, _, hknows'⟩ := h.consistent.authed current htable hmark
  rw [howner] at hknows'
  refine honly current htable ?_ hauth (h.consistent.db.unique user _ _ hknows' hknows)
  rintro rfl
  rw [hout] at hauth
  cases hauth

theorem signIn (h : r.InOrder) {key : PublicKey} {role : Role} (hin : sid ∈ r.table)
    (hout : (r.members sid).authenticated = false) (hknows : r.db.Knows user key)
    (honly : ∀ other ∈ r.table, other ≠ sid → (r.members other).authenticated = true →
      (r.members other).publicKey ≠ key) : r.Keeps (r.signIn sid user key role) where
  inOrder := by
    refine ⟨h.consistent.signIn hin hout hknows honly, fun other hin' hauth => ?_⟩
    by_cases hsid : other = sid
    · subst hsid
      exact Function.update_self ..
    · simp only [Registry.signIn, Registry.modify, Function.update_of_ne hsid] at hauth ⊢
      exact h.marked other hin' hauth
  listed _ hlisted :=
    hlisted.signIn h.consistent hin hout (h.sessionForUser_eq_none hout hknows honly)

theorem setDb (h : r.InOrder) {db : Database} (hdb : db.Sound)
    (hknows : ∀ user key, r.db.Knows user key → db.Knows user key) :
    r.Keeps { r with db := db } where
  inOrder := ⟨{ h.consistent with
    authed := fun sid hin hmark => by
      obtain ⟨hauth, hindex, hknown⟩ := h.consistent.authed sid hin hmark
      exact ⟨hauth, hindex, hknows _ _ hknown⟩
    db := hdb }, h.marked⟩
  listed _ hlisted := hlisted

/-- A session that may send nothing moves to another channel. -/
theorem setChannel (h : r.InOrder) (channel : ChannelId)
    (hauth : (r.members sid).authenticated = true)
    (hidle : ∀ source, r.allowed sid source = false) : r.Keeps (r.setChannel sid channel) where
  inOrder := by
    refine ⟨h.consistent.setChannel channel hauth hidle, fun other hin hauth' => ?_⟩
    refine h.marked other hin ?_
    by_cases hsid : other = sid
    · subst hsid
      exact hauth
    · simpa [Registry.setChannel, Registry.modify, hsid] using hauth'
  listed _ hlisted := hlisted.modify fun _ source hallowed =>
    absurd ((hidle source).symm.trans hallowed) (by simp)

/-- A user's streams stop in the channel their session is in. -/
theorem stopAll (h : r.InOrder) (hin : sid ∈ r.table)
    (hauth : (r.members sid).authenticated = true) :
    r.Keeps (r.stopAll (r.members sid).channelId (r.members sid).userId) where
  inOrder := ⟨h.consistent.stopAll (h.consistent.packable hin (h.marked sid hin hauth)) _,
    h.marked⟩
  listed _ hlisted := by
    have hauthed := h.marked sid hin hauth
    refine (hlisted.mono fun _ _ => .inl).stopAll h.consistent (h.consistent.packable hin hauthed)
      fun current hsession _ _ _ => ?_
    rw [h.consistent.sessionForUser hin hauthed] at hsession
    rw [Option.some.inj hsession]

theorem stop (h : r.InOrder) (hin : sid ∈ r.table) (hauth : (r.members sid).authenticated = true)
    (source : VideoSource) :
    r.Keeps (r.stop (r.members sid).channelId (r.members sid).userId source) where
  inOrder := ⟨h.consistent.stop (h.consistent.packable hin (h.marked sid hin hauth)) _ _,
    h.marked⟩
  listed _ hlisted := by
    refine hlisted.stop h.consistent fun current hsession _ _ => ?_
    rw [h.consistent.sessionForUser hin (h.marked sid hin hauth)] at hsession
    rw [Option.some.inj hsession]

theorem setWatched (h : r.InOrder) (sid : SessionId) (streams : List StreamId) :
    r.Keeps (r.setWatched sid streams) where
  inOrder := ⟨h.consistent.setWatched _, h.marked⟩
  listed _ hlisted := hlisted.setWatched _

theorem leave (h : r.InOrder) (hin : sid ∈ r.table)
    (hauth : (r.members sid).authenticated = true) : r.Keeps (r.leave sid) := by
  have hstopped := h.stopAll hin hauth
  have hquiet := hstopped.trans (hstopped.inOrder.setWatched sid [])
  exact hquiet.trans (hquiet.inOrder.setChannel 0 hauth
    (h.consistent.allowed_stopAll hin (h.marked sid hin hauth)))

theorem publish (h : r.InOrder) (hin : sid ∈ r.table)
    (hauth : (r.members sid).authenticated = true) (hchannel : (r.members sid).channelId ≠ 0)
    (source : VideoSource) : r.Keeps (r.publish sid source) where
  inOrder := ⟨h.consistent.publish hin (h.marked sid hin hauth) hchannel source, h.marked⟩
  listed _ hlisted := hlisted.publish h.consistent hin (h.marked sid hin hauth) hchannel source

theorem workOff (h : r.InOrder) {d : SessionDisconnect} {rest : List SessionDisconnect}
    (hd : r.disconnects = d :: rest) : (r.workOff d rest).InOrder := by
  obtain ⟨hout, _, hpack⟩ := h.consistent.events d (by simp [hd])
  have hpopped : { r with disconnects := rest }.Consistent :=
    { h.consistent with
      events := fun d' hd' => h.consistent.events d' (by simp [hd, hd']) }
  refine ⟨hpopped.processDisconnect (fun _ => hpack) fun hin => absurd hin hout, ?_⟩
  obtain ⟨htable, hmembers, hmark, _⟩ := processDisconnect_frame { r with disconnects := rest }
    d.sessionId d.userId d.channelId
  intro sid hin hauth
  simp only [Registry.workOff, htable, hmembers, hmark] at hin hauth ⊢
  have hne : sid ≠ d.sessionId := by
    rintro rfl
    exact hout hin
  rw [Function.update_of_ne hne]
  exact h.marked sid hin hauth

theorem listed_workOff (h : r.InOrder) {d : SessionDisconnect} {rest : List SessionDisconnect}
    (hd : r.disconnects = d :: rest) (hagrees : r.Agrees d.userId d.channelId)
    (hlisted : r.Listed extra) : (r.workOff d rest).Listed extra := by
  obtain ⟨hout, _, hpack⟩ := h.consistent.events d (by simp [hd])
  have hpopped : { r with disconnects := rest }.Consistent :=
    { h.consistent with
      events := fun d' hd' => h.consistent.events d' (by simp [hd, hd']) }
  -- the event that is taken off accounts for what it did before
  have htaken : { r with disconnects := rest }.Listed (orDeparted extra d.channelId d.userId) := by
    intro c stream hin
    obtain ⟨hzero, source, hsource, hwhy⟩ := hlisted c stream hin
    refine ⟨hzero, source, hsource, ?_⟩
    rcases hwhy with hlive | ⟨d', hd', huser, hchannel⟩ | hextra
    · exact .inl hlive
    · rcases List.mem_cons.mp (hd ▸ hd') with rfl | hrest
      · exact .inr (.inr (.inr ⟨hchannel.symm, huser.symm⟩))
      · exact .inr (.inl ⟨d', hrest, huser, hchannel⟩)
    · exact .inr (.inr (.inl hextra))
  exact htaken.endSession hpopped hpack (fun hin => absurd hin hout)
    (fun hin => absurd hin hout) (fun _ => hagrees) fun hin => absurd hin hout

end InOrder

end Registry

end Parties

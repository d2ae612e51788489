import Parties.Server.RegistryRuns

/-!
# Running shares

A share of a stream runs while the session it was started on is there, alive, and has the
flag of the source, at the generation of its start. The record of the stream says the
same, as long as no departure takes the flag of a newer session away.
-/

namespace Parties

open Parties.Video

namespace Registry

/-- A share of the stream runs on a session, at a generation. -/
def Runs (r : Registry) (stream : StreamId) (sid : SessionId) (generation : Nat) : Prop :=
  sid ∈ r.table ∧ (r.members sid).alive = true ∧ ∃ source,
    stream = videoStreamId (r.members sid).userId source ∧ r.allowed sid source = true ∧
      generation = r.generation sid source

variable {r r' : Registry} {sid other : SessionId} {channel : ChannelId} {user : UserId}
  {source : VideoSource} {stream : StreamId} {generation : Nat}

namespace Runs

theorem inTable (h : r.Runs stream sid generation) : sid ∈ r.table := h.1

/-- The session that runs a share is the one its user has, in a channel that lists it. -/
theorem published (h : r.Runs stream sid generation) (hr : r.Consistent) :
    r.authed sid = true ∧ r.sessionForUser (r.members sid).userId = some sid ∧
      stream ∈ r.listed (r.members sid).channelId := by
  obtain ⟨hin, _, source, rfl, hallowed, _⟩ := h
  have hauthed := hr.authed_of_allowed hin hallowed
  exact ⟨hauthed, hr.sessionForUser hin hauthed, (hr.published sid hin source hallowed).2⟩

/-- Whose stream it is. -/
theorem user_source (h : r.Runs (videoStreamId user source) sid generation) (hr : r.Consistent)
    (hpack : user.Packable) : (r.members sid).userId = user ∧ r.allowed sid source = true ∧
      generation = r.generation sid source := by
  obtain ⟨hauthed, _, _⟩ := h.published hr
  obtain ⟨hin, _, source', hstream, hallowed, hgeneration⟩ := h
  obtain ⟨rfl, rfl⟩ := (videoStreamId_inj hpack (hr.packable hin hauthed)).mp hstream
  exact ⟨rfl, hallowed, hgeneration⟩

/-- A stream runs on one session. -/
theorem unique (h : r.Runs stream sid generation) {sid' : SessionId} {generation' : Nat}
    (h' : r.Runs stream sid' generation') (hr : r.Consistent) :
    sid = sid' ∧ generation = generation' := by
  obtain ⟨hin, _, source, hstream, hallowed, hgeneration⟩ := h
  obtain ⟨hin', _, source', hstream', hallowed', hgeneration'⟩ := h'
  obtain ⟨rfl, rfl⟩ := hr.eq_of_stream hin hin' hallowed hallowed' (hstream.symm.trans hstream')
  exact ⟨rfl, hgeneration.trans hgeneration'.symm⟩

end Runs

/-! ### What operations end -/

/-- An operation under which the shares run on. -/
theorem runs_congr (htable : r'.table = r.table)
    (hmembers : ∀ sid ∈ r.table, (r'.members sid).alive = (r.members sid).alive ∧
      (r'.members sid).userId = (r.members sid).userId)
    (hallowed : r'.allowed = r.allowed) (hgeneration : r'.generation = r.generation) :
    r'.Runs stream sid generation ↔ r.Runs stream sid generation := by
  unfold Runs
  rw [htable, hallowed, hgeneration]
  apply and_congr_right
  intro hin
  obtain ⟨halive, huser⟩ := hmembers sid hin
  rw [halive, huser]

/-- A change of a session that leaves it alive, as the same user. -/
theorem runs_modify {f : Member → Member}
    (hf : (f (r.members other)).alive = (r.members other).alive ∧
      (f (r.members other)).userId = (r.members other).userId) :
    (r.modify other f).Runs stream sid generation ↔ r.Runs stream sid generation := by
  refine runs_congr rfl (fun sid _ => ?_) rfl rfl
  by_cases hsid : sid = other
  · subst hsid
    rw [members_modify_self]
    exact hf
  · rw [members_modify_of_ne hsid]
    exact ⟨rfl, rfl⟩

theorem runs_retire :
    (r.retire other).Runs stream sid generation ↔ r.Runs stream sid generation ∧ sid ≠ other := by
  by_cases hsid : sid = other
  · subst hsid
    have hdead : ((r.retire sid).members sid).alive = false :=
      congrArg Member.alive members_modify_self
    simp [Runs, hdead]
  · simp [Runs, hsid, retire, modify]

theorem runs_depart :
    (r.depart other).Runs stream sid generation ↔ r.Runs stream sid generation ∧ sid ≠ other := by
  rw [← runs_retire]
  by_cases hsid : sid = other
  · subst hsid
    have hdead : ((r.retire sid).members sid).alive = false :=
      congrArg Member.alive members_modify_self
    simp [Runs, depart, hdead]
  · simp [Runs, depart, retire, modify, hsid]

theorem runs_connect (hr : r.Consistent) :
    r.connect.Runs stream sid generation ↔ r.Runs stream sid generation := by
  by_cases hsid : sid = r.next
  · subst hsid
    have hout : r.next ∉ r.table := fun hin => (hr.lt_next _ hin).false
    simp [Runs, connect, hout]
  · simp [Runs, connect, hsid]

theorem runs_signIn {key : PublicKey} {role : Role} (hr : r.Consistent) (hin : other ∈ r.table)
    (hout : r.authed other = false) :
    (r.signIn other user key role).Runs stream sid generation ↔ r.Runs stream sid generation := by
  by_cases hsid : sid = other
  · subst hsid
    have hidle := hr.idle sid hin hout
    simp [Runs, signIn, modify, hidle]
  · simp [Runs, signIn, modify, hsid]

theorem runs_publish (hin : other ∈ r.table) :
    (r.publish other source).Runs stream sid generation ↔
      r.Runs stream sid generation ∨ (r.members other).alive = true ∧ sid = other ∧
        stream = videoStreamId (r.members other).userId source ∧
          generation = r.generation other source := by
  constructor
  · rintro ⟨hin, halive, source', hstream, hallowed, hgeneration⟩
    rcases allowed_publish.mp hallowed with hold | ⟨rfl, rfl⟩
    · exact .inl ⟨hin, halive, source', hstream, hold, hgeneration⟩
    · exact .inr ⟨halive, rfl, hstream, hgeneration⟩
  · rintro (⟨hin, halive, source', hstream, hallowed, hgeneration⟩ | ⟨halive, rfl, hstream, hgeneration⟩)
    · exact ⟨hin, halive, source', hstream, allowed_publish.mpr (.inl hallowed), hgeneration⟩
    · exact ⟨hin, halive, source, hstream, allowed_publish.mpr (.inr ⟨rfl, rfl⟩), hgeneration⟩

/-- A stop ends the share of the stream, if the channel lists it. -/
theorem runs_stop (hr : r.Consistent) (hpack : user.Packable) :
    (r.stop channel user source).Runs stream sid generation ↔ r.Runs stream sid generation ∧
      ¬ (stream = videoStreamId user source ∧ stream ∈ r.listed channel) := by
  constructor
  · rintro ⟨hin, halive, source', hstream, hallowed, hgeneration⟩
    obtain ⟨hold, hkept⟩ := allowed_stop.mp hallowed
    have hsame : (r.stop channel user source).generation sid source' = r.generation sid source' := by
      simp [Registry.stop, hkept]
    have hruns : r.Runs stream sid generation :=
      ⟨hin, halive, source', hstream, hold, hgeneration.trans hsame⟩
    refine ⟨hruns, ?_⟩
    rintro ⟨rfl, hlisted⟩
    obtain ⟨hauthed, hsession, _⟩ := hruns.published hr
    obtain ⟨huser, rfl⟩ := (videoStreamId_inj hpack (hr.packable hin hauthed)).mp hstream
    have hstops : r.stops channel user source sid source = true :=
      stops_eq_true.mpr ⟨hlisted, huser ▸ hsession, rfl⟩
    rw [hstops] at hkept
    cases hkept
  · rintro ⟨⟨hin, halive, source', hstream, hallowed, hgeneration⟩, hnot⟩
    have hkept : r.stops channel user source sid source' = false := by
      by_contra hstop
      obtain ⟨hlisted, hsession, rfl⟩ := stops_eq_true.mp (by simpa using hstop)
      obtain ⟨hindex, htable⟩ := sessionForUser_eq_some.mp hsession
      have howner := (hr.user user sid hindex htable).2
      exact hnot ⟨by rw [hstream, howner], by rwa [hstream, howner]⟩
    obtain ⟨hallowed', hgeneration'⟩ := stop_keeps hkept hallowed
    exact ⟨hin, halive, source', hstream, hallowed', hgeneration.trans hgeneration'.symm⟩

theorem runs_stopAll (hr : r.Consistent) (hpack : user.Packable) :
    (r.stopAll channel user).Runs stream sid generation ↔ r.Runs stream sid generation ∧
      ¬ ∃ source, stream = videoStreamId user source ∧ stream ∈ r.listed channel := by
  have hcamera : stream = videoStreamId user .camera → (stream ∈
      (r.stop channel user .screen).listed channel ↔ stream ∈ r.listed channel) := by
    rintro rfl
    rw [mem_listed_stop, and_iff_left]
    rintro ⟨_, heq⟩
    cases ((videoStreamId_inj hpack hpack).mp heq).2
  unfold stopAll
  rw [runs_stop (hr.stop hpack channel .screen) hpack, runs_stop hr hpack, and_assoc]
  apply and_congr_right
  intro _
  constructor
  · rintro ⟨hscreen, hother⟩ ⟨source, hstream, hlisted⟩
    cases source with
    | screen => exact hscreen ⟨hstream, hlisted⟩
    | camera => exact hother ⟨hstream, (hcamera hstream).mpr hlisted⟩
  · intro hnone
    constructor
    · rintro ⟨hstream, hlisted⟩
      exact hnone ⟨.screen, hstream, hlisted⟩
    · rintro ⟨hstream, hlisted⟩
      exact hnone ⟨.camera, hstream, (hcamera hstream).mp hlisted⟩

/-- All shares of a session end with its streams in its channel. -/
theorem runs_stopAll_self (hr : r.Consistent) (hin : other ∈ r.table)
    (hauthed : r.authed other = true) :
    (r.stopAll (r.members other).channelId (r.members other).userId).Runs stream sid generation ↔
      r.Runs stream sid generation ∧ sid ≠ other := by
  have hpack := hr.packable hin hauthed
  rw [runs_stopAll hr hpack]
  apply and_congr_right
  intro hruns
  obtain ⟨hmark, hsession, hlisted⟩ := hruns.published hr
  rw [not_iff_not]
  constructor
  · rintro ⟨source, rfl, _⟩
    have huser := (hruns.user_source hr hpack).1
    rw [huser, hr.sessionForUser hin hauthed] at hsession
    exact (Option.some.inj hsession).symm
  · rintro rfl
    obtain ⟨_, _, source, hstream, _⟩ := hruns
    exact ⟨source, hstream, hlisted⟩

theorem runs_setWatched {left : List StreamId} :
    (r.setWatched other left).Runs stream sid generation ↔ r.Runs stream sid generation := Iff.rfl

theorem runs_leave (hr : r.Consistent) (hin : other ∈ r.table) (hauthed : r.authed other = true) :
    (r.leave other).Runs stream sid generation ↔ r.Runs stream sid generation ∧ sid ≠ other := by
  rw [← runs_stopAll_self hr hin hauthed]
  unfold leave setChannel
  rw [runs_modify ⟨rfl, rfl⟩, runs_setWatched]

theorem runs_forget (hr : r.Consistent) :
    (r.forget other user).Runs stream sid generation ↔ r.Runs stream sid generation ∧ sid ≠ other := by
  by_cases hsid : sid = other
  · subst hsid
    simp only [ne_eq, not_true_eq_false, and_false, iff_false]
    rintro ⟨hin, _, source, _, hallowed, _⟩
    have hauthed := hr.authed_of_allowed hin (allowed_forget hallowed)
    simp [Registry.forget, hauthed] at hallowed
  · simp [Runs, Registry.forget, hsid]

/-- The end of a session ends its shares only, if its user runs none outside the channel
it was in that the channel still lists. -/
theorem runs_processDisconnect (hr : r.Consistent) (hpack : channel ≠ 0 → user.Packable)
    (huser : other ∈ r.table → r.authed other = true → (r.members other).userId = user)
    (hkeep : ∀ current source, current ≠ other → r.sessionForUser user = some current →
      videoStreamId user source ∈ r.listed channel → r.allowed current source = true →
        (r.members current).channelId = channel) :
    (r.processDisconnect other user channel).Runs stream sid generation ↔
      r.Runs stream sid generation ∧ sid ≠ other := by
  have hforgotten : (r.forget other user).Runs stream sid generation ↔
      r.Runs stream sid generation ∧ sid ≠ other := runs_forget hr
  rw [← hforgotten]
  have hwatched : (r.processDisconnect other user channel).Runs stream sid generation ↔
      (r.endSession other user channel).Runs stream sid generation := Iff.rfl
  rw [hwatched]
  unfold endSession
  dsimp only
  split
  · exact Iff.rfl
  next hnot =>
    obtain ⟨hchannel, hgone⟩ := not_or.mp hnot
    have hforget := hr.forget huser
    rw [runs_stopAll hforget (hpack hchannel), and_iff_left_iff_imp]
    rintro hruns ⟨source, rfl, hlisted⟩
    obtain ⟨howner, hallowed, _⟩ := hruns.user_source hforget (hpack hchannel)
    have hsession := (hruns.published hforget).2.1
    rw [howner] at hsession
    obtain ⟨hbefore, hne⟩ := sessionForUser_forget hsession
    have hthere := hkeep sid source hne hbefore hlisted (allowed_forget hallowed)
    apply hgone
    simp only [rejoined, hsession, Option.any_some, Bool.and_eq_true, decide_eq_true_eq]
    exact ⟨hne, hthere⟩

theorem runs_replace (hr : r.Consistent) (hin : other ∈ r.table) (hauthed : r.authed other = true) :
    (r.replace other).Runs stream sid generation ↔ r.Runs stream sid generation ∧ sid ≠ other := by
  have hsession := hr.sessionForUser hin hauthed
  have hended : (r.processDisconnect other (r.members other).userId
      (r.members other).channelId).Runs stream sid generation ↔
        r.Runs stream sid generation ∧ sid ≠ other := by
    apply runs_processDisconnect hr (fun _ => hr.packable hin hauthed) fun _ _ => rfl
    intro current source hne hcurrent
    exact absurd (Option.some.inj (hcurrent.symm.trans hsession)) hne
  by_cases hsid : sid = other
  · subst hsid
    have hdead : ((r.replace sid).members sid).alive = false :=
      congrArg Member.alive members_modify_self
    simp [Runs, hdead]
  · rw [← hended]
    have hsame : (r.replace other).members sid = (r.processDisconnect other
        (r.members other).userId (r.members other).channelId).members sid :=
      members_modify_of_ne hsid
    unfold Runs
    rw [hsame]
    exact Iff.rfl

end Registry

namespace Server

variable {s s' s'' : Server} {sid : SessionId} {stream : StreamId}

/-! ### The record of the shares -/

/-- The record of the shares, and the queue of their frames. -/
def shareRecord (s : Server) : (StreamId → ShareLog) × List PendingVideoFrame :=
  (s.shareLog, s.videoIncoming)

/-- A loop whose body leaves the record alone. -/
theorem shareRecord_foldl {α : Type} {f : Server → α → Server}
    (hf : ∀ s a, (f s a).shareRecord = s.shareRecord) (s : Server) (l : List α) :
    (l.foldl f s).shareRecord = s.shareRecord :=
  Machine.run_preserves (fun s' a hs' => (hf s' a).trans hs')
    (rfl : s.shareRecord = s.shareRecord) l

@[simp] theorem shareRecord_sendTo (sid : SessionId) (message : ServerMessage) :
    (s.sendTo sid message).shareRecord = s.shareRecord := rfl

@[simp] theorem shareRecord_sendToAll (picks : SessionId → Session → Bool)
    (message : ServerMessage) : (s.sendToAll picks message).shareRecord = s.shareRecord := rfl

@[simp] theorem shareRecord_sendError (sid : SessionId) (text : String) (code : ServerErrorCode) :
    (s.sendError sid text code).shareRecord = s.shareRecord := rfl

@[simp] theorem shareRecord_modifySession (sid : SessionId) (f : Session → Session) :
    (s.modifySession sid f).shareRecord = s.shareRecord := rfl

@[simp] theorem shareRecord_requestKeyframeFromSharer (stream : StreamId) (requester : UserId) :
    (s.requestKeyframeFromSharer stream requester).shareRecord = s.shareRecord := rfl

@[simp] theorem shareRecord_notifyViewerChange (stream : StreamId) (viewer : UserId)
    (watching : Bool) :
    (s.notifyViewerChange stream viewer watching).shareRecord = s.shareRecord := by
  unfold notifyViewerChange
  split
  · rfl
  · split
    · rfl
    · split
      · rfl
      · split <;> rfl

@[simp] theorem shareRecord_clearViewerSubscriptions (sid : SessionId) (notify : Bool) :
    (s.clearViewerSubscriptions sid notify).shareRecord = s.shareRecord := by
  unfold clearViewerSubscriptions
  dsimp only
  split
  · rfl
  · exact shareRecord_foldl (fun s stream => shareRecord_notifyViewerChange _ _ _) _ _

@[simp] theorem shareRecord_stopVideoStream (channel : ChannelId) (user : UserId)
    (source : VideoSource) :
    (s.stopVideoStream channel user source).shareRecord = s.shareRecord := by
  unfold stopVideoStream unpublish
  dsimp only
  split
  · rfl
  · simp only [shareRecord_sendToAll]
    split <;> rfl

@[simp] theorem shareRecord_stopAllVideoStreams (channel : ChannelId) (user : UserId) :
    (s.stopAllVideoStreams channel user).shareRecord = s.shareRecord := by
  simp [stopAllVideoStreams]

@[simp] theorem shareRecord_announceVideoStream (viewer : SessionId) (stream : StreamId)
    (publisher : SessionId) (replay : Bool) :
    (s.announceVideoStream viewer stream publisher replay).shareRecord = s.shareRecord := by
  unfold announceVideoStream
  split
  · rfl
  · split <;> rfl

@[simp] theorem shareRecord_processDisconnect (sid : SessionId) (user : UserId)
    (channel : ChannelId) : (s.processDisconnect sid user channel).shareRecord = s.shareRecord := by
  have hforget : (s.forgetSession sid user).shareRecord = s.shareRecord := by
    unfold forgetSession
    dsimp only
    split <;> split <;> rfl
  unfold processDisconnect
  dsimp only
  split
  · exact hforget
  · split
    · split
      · rw [shareRecord_clearViewerSubscriptions, hforget]
      · exact hforget
    · rw [shareRecord_sendToAll]
      split
      · rw [shareRecord_clearViewerSubscriptions, shareRecord_stopAllVideoStreams, hforget]
      · rw [shareRecord_stopAllVideoStreams, hforget]

@[simp] theorem shareRecord_replayStreams (sid : SessionId) (channel : ChannelId) :
    (s.replayStreams sid channel).shareRecord = s.shareRecord := by
  refine shareRecord_foldl (fun s stream => ?_) s _
  split
  · rfl
  · split
    · simp
    · rfl

@[simp] theorem shareRecord_leaveChannel (sid : SessionId) :
    (s.leaveChannel sid).shareRecord = (s.endShares sid).shareRecord := by
  simp [leaveChannel]

@[simp] theorem shareRecord_disconnect (hin : sid ∈ s.sessionTable) :
    (s.disconnect sid).shareRecord = (s.endShares sid).shareRecord := by
  unfold disconnect getSession
  rw [if_pos hin]
  rfl

@[simp] theorem shareRecord_onShutdownComplete (hin : sid ∈ s.sessionTable) :
    (s.onShutdownComplete sid).shareRecord = (s.endShares sid).shareRecord := by
  unfold onShutdownComplete getSession
  rw [if_pos hin]
  rfl

theorem shareRecord_stopViewing (sid : SessionId) (target : StreamId) :
    (s.stopViewing sid target).shareRecord = s.shareRecord := by
  unfold stopViewing
  dsimp only
  split
  · simp
  · split
    · simp
    · rfl

theorem shareRecord_startViewing (sid : SessionId) (target : StreamId) (dropped : List StreamId) :
    (s.startViewing sid target dropped).shareRecord = s.shareRecord := by
  have hnotified : ∀ (s : Server) (user : UserId), (dropped.foldl (fun s old =>
      s.notifyViewerChange old user false) s).shareRecord = s.shareRecord :=
    fun s user => shareRecord_foldl (fun s stream => shareRecord_notifyViewerChange _ _ _) s dropped
  unfold startViewing
  dsimp only
  split
  · rw [shareRecord_notifyViewerChange, shareRecord_requestKeyframeFromSharer, hnotified]
    rfl
  · rw [hnotified]
    rfl

theorem shareRecord_screenShareView (sid : SessionId) (target : StreamId)
    (action : Option (BitVec 8)) :
    (s.screenShareView sid target action).shareRecord = s.shareRecord := by
  unfold screenShareView
  dsimp only
  split
  · rfl
  · split
    · exact shareRecord_stopViewing sid target
    · split
      · rfl
      · split
        · rfl
        · exact shareRecord_startViewing _ _ _

/-! ### The record is exact -/

/-- The record has the shares that run. -/
structure SharesTracked (s : Server) : Prop where
  inOrder : s.registry.InOrder
  runsOn : ∀ stream sid generation, (s.shareLog stream).runsOn = some (sid, generation) ↔
    s.registry.Runs stream sid generation

/-- Shares may end; otherwise the record stays as it is. -/
structure EndsShares (s s' : Server) : Prop where
  tracked : s'.SharesTracked
  log : ∀ stream, s'.shareLog stream = s.shareLog stream ∨
    s'.shareLog stream = { s.shareLog stream with runsOn := none }
  queue : s'.videoIncoming = s.videoIncoming

namespace EndsShares

theorem refl (h : s.SharesTracked) : s.EndsShares s := ⟨h, fun _ => .inl rfl, rfl⟩

theorem trans (h : s.EndsShares s') (h' : s'.EndsShares s'') : s.EndsShares s'' := by
  refine ⟨h'.tracked, fun stream => ?_, h'.queue.trans h.queue⟩
  rcases h'.log stream with hlog' | hlog' <;> rcases h.log stream with hlog | hlog <;>
    rw [hlog', hlog]
  · exact .inl rfl
  · exact .inr rfl
  · exact .inr rfl
  · exact .inr rfl

/-- A loop over sessions in the table. -/
theorem foldl (h : s.EndsShares s') {f : Server → SessionId → Server}
    (hf : ∀ (s' : Server) a, s'.SharesTracked → a ∈ s'.sessionTable →
      s'.EndsShares (f s' a) ∧ (f s' a).sessionTable = s'.sessionTable)
    {l : List SessionId} (hl : l ⊆ s'.sessionTable) : s.EndsShares (l.foldl f s') := by
  induction l generalizing s' with
  | nil => exact h
  | cons a l ih =>
      obtain ⟨hbody, htable⟩ := hf s' a h.tracked (hl List.mem_cons_self)
      apply ih (h.trans hbody)
      rw [htable]
      exact fun b hb => hl (List.mem_cons_of_mem a hb)

end EndsShares

namespace SharesTracked

/-- What changes no share. -/
theorem same (h : s.SharesTracked) (hinOrder : s'.registry.InOrder)
    (hrecord : s'.shareRecord = s.shareRecord)
    (hruns : ∀ stream sid generation, s'.registry.Runs stream sid generation ↔
      s.registry.Runs stream sid generation) : s.EndsShares s' := by
  obtain ⟨hlog, hqueue⟩ := Prod.mk.inj hrecord
  refine ⟨⟨hinOrder, fun stream sid generation => ?_⟩, fun stream => .inl (congrFun hlog stream),
    hqueue⟩
  rw [hlog, hruns]
  exact h.runsOn stream sid generation

/-- What changes nothing of the registry either. -/
theorem elsewhere (h : s.SharesTracked) (hregistry : s'.registry = s.registry)
    (hrecord : s'.shareRecord = s.shareRecord) : s.EndsShares s' := by
  apply h.same (hregistry ▸ h.inOrder) hrecord
  intro stream sid generation
  rw [hregistry]

/-- The source a share comes from. -/
theorem source_of_runsOn (h : s.SharesTracked) {generation : Nat}
    (hruns : (s.shareLog stream).runsOn = some (sid, generation)) :
    ∃ source, stream = videoStreamId (s.sessions sid).userId source := by
  obtain ⟨_, _, source, hstream, _⟩ := (h.runsOn stream sid generation).mp hruns
  exact ⟨source, hstream⟩

end SharesTracked

theorem shareLog_endShare (s : Server) (sid : SessionId) (source : VideoSource)
    (stream : StreamId) :
    (s.endShare sid source).shareLog stream =
      if stream = videoStreamId (s.sessions sid).userId source ∧
          ((s.shareLog stream).runsOn.any fun on => on.1 = sid) = true then
        { s.shareLog stream with runsOn := none }
      else s.shareLog stream := by
  unfold endShare modifyShareLog
  dsimp only
  by_cases hstream : stream = videoStreamId (s.sessions sid).userId source
  · subst hstream
    rw [Function.update_self]
    simp only [true_and]
  · rw [Function.update_of_ne hstream, if_neg fun hboth => hstream hboth.1]

theorem any_runsOn {on : Option (SessionId × Nat)} :
    (on.any fun on => on.1 = sid) = true ↔ ∃ generation, on = some (sid, generation) := by
  cases on with
  | none => simp
  | some on =>
      obtain ⟨other, generation⟩ := on
      simp

theorem shareLog_endShares (h : s.SharesTracked) (sid : SessionId) (stream : StreamId) :
    (s.endShares sid).shareLog stream =
      if ((s.shareLog stream).runsOn.any fun on => on.1 = sid) = true then
        { s.shareLog stream with runsOn := none }
      else s.shareLog stream := by
  unfold endShares
  rw [shareLog_endShare, shareLog_endShare]
  by_cases hruns : ((s.shareLog stream).runsOn.any fun on => on.1 = sid) = true
  · obtain ⟨generation, hon⟩ := any_runsOn.mp hruns
    obtain ⟨source, hstream⟩ := h.source_of_runsOn hon
    rw [if_pos hruns]
    cases source with
    | screen =>
        rw [if_pos (⟨hstream, hruns⟩ : _ ∧ _), if_neg]
        rintro ⟨_, hnone⟩
        simp at hnone
    | camera =>
        by_cases hscreen : stream = videoStreamId (s.sessions sid).userId .screen
        · rw [if_pos (⟨hscreen, hruns⟩ : _ ∧ _), if_neg]
          rintro ⟨_, hnone⟩
          simp at hnone
        · have hnot : ¬ (stream = videoStreamId (s.sessions sid).userId .screen ∧
              ((s.shareLog stream).runsOn.any fun on => on.1 = sid) = true) :=
            fun hboth => hscreen hboth.1
          rw [if_neg hnot, if_pos]
          exact ⟨hstream, hruns⟩
  · have hscreen : ¬ (stream = videoStreamId (s.sessions sid).userId .screen ∧
        ((s.shareLog stream).runsOn.any fun on => on.1 = sid) = true) :=
      fun hboth => hruns hboth.2
    rw [if_neg hscreen, if_neg hruns, if_neg fun hboth => hruns hboth.2]

namespace SharesTracked

/-- All shares of a session end. -/
theorem ended (h : s.SharesTracked) (hinOrder : s'.registry.InOrder)
    (hrecord : s'.shareRecord = (s.endShares sid).shareRecord)
    (hruns : ∀ stream other generation, s'.registry.Runs stream other generation ↔
      s.registry.Runs stream other generation ∧ other ≠ sid) : s.EndsShares s' := by
  obtain ⟨hlog, hqueue⟩ := Prod.mk.inj hrecord
  have hlogs : ∀ stream, s'.shareLog stream =
      if ((s.shareLog stream).runsOn.any fun on => on.1 = sid) = true then
        { s.shareLog stream with runsOn := none }
      else s.shareLog stream :=
    fun stream => (congrFun hlog stream).trans (shareLog_endShares h sid stream)
  refine ⟨⟨hinOrder, fun stream other generation => ?_⟩, fun stream => ?_, hqueue⟩
  · rw [hruns, ← h.runsOn, hlogs]
    split
    next hsome =>
      obtain ⟨generation', hon⟩ := any_runsOn.mp hsome
      rw [hon]
      constructor
      · intro hnone
        cases hnone
      · rintro ⟨heq, hne⟩
        exact absurd (Prod.mk.inj (Option.some.inj heq)).1.symm hne
    next hnot =>
      rw [iff_self_and]
      rintro hon rfl
      exact hnot (any_runsOn.mpr ⟨generation, hon⟩)
  · rw [hlogs]
    split
    · exact .inr rfl
    · exact .inl rfl

/-- The share of one source of a session ends. -/
theorem endedOne (h : s.SharesTracked) (hin : sid ∈ s.sessionTable)
    (hauth : (s.sessions sid).authenticated = true) {source : VideoSource}
    (hinOrder : s'.registry.InOrder)
    (hrecord : s'.shareRecord = (s.endShare sid source).shareRecord)
    (hruns : ∀ stream other generation, s'.registry.Runs stream other generation ↔
      s.registry.Runs stream other generation ∧
        stream ≠ videoStreamId (s.sessions sid).userId source) : s.EndsShares s' := by
  have hc := h.inOrder.consistent
  have hmark := h.inOrder.marked sid hin hauth
  obtain ⟨hlog, hqueue⟩ := Prod.mk.inj hrecord
  refine ⟨⟨hinOrder, fun stream other generation => ?_⟩, fun stream => ?_, hqueue⟩
  · rw [hruns, ← h.runsOn, hlog, shareLog_endShare]
    split
    next hended =>
      constructor
      · intro hnone
        cases hnone
      · rintro ⟨_, hne⟩
        exact absurd hended.1 hne
    next hnot =>
      rw [iff_self_and]
      rintro hon rfl
      -- the share runs on this session
      have hthere := (h.runsOn _ other generation).mp hon
      have huser := (hthere.user_source hc (hc.packable hin hmark)).1
      have hsession := (hthere.published hc).2.1
      rw [huser] at hsession
      obtain rfl := Option.some.inj ((hc.sessionForUser hin hmark).symm.trans hsession)
      exact hnot ⟨rfl, any_runsOn.mpr ⟨generation, hon⟩⟩
  · rw [hlog, shareLog_endShare]
    split
    · exact .inr rfl
    · exact .inl rfl

end SharesTracked

end Server

end Parties

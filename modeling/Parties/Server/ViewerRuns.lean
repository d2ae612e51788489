import Parties.Server.ViewerStream

/-!
# Viewers through the runs of the main loop

Between any two steps of the main loop every record of a viewer is decodable. What has
to be carried from step to step is that the viewers stand where the reorder buffers do,
but for the departures this pass of the loop is still to work off.
-/

namespace Parties

open Parties.Video

/-! ### Who still watches -/

namespace Registry

/-- The sessions of `r₀`, or those that have come since. While someone logs in, whoever
becomes someone else watches nothing. -/
structure GrowsFrom (r₀ : Registry) (o : Occasion) (r : Registry) : Prop where
  inScope : r.Scoped
  housed : r.Housed fun _ _ => False
  next : r₀.next ≤ r.next
  table : ∀ sid ∈ r.table, sid ∈ r₀.table ∨ r₀.next ≤ sid
  user : ∀ sid < r₀.next, (r.members sid).userId = (r₀.members sid).userId ∨
    o.now ≠ none ∧ r.watched sid = []

variable {r₀ r r' : Registry} {o : Occasion}

theorem GrowsFrom.move (h : GrowsFrom r₀ o r) (hr : r.InOrder) (hmove : Move o r r') :
    GrowsFrom r₀ o r' := by
  obtain ⟨hnext, htable, hwhose⟩ := hmove.identity hr h.inScope
  constructor
  · exact hmove.scoped hr h.inScope
  · exact hmove.housed hr h.housed
  · exact h.next.trans hnext
  · intro sid hin
    rcases htable sid hin with hold | hnew
    · exact h.table sid hold
    · exact .inr (h.next.trans hnew)
  · intro sid hlt
    obtain ⟨huser, hwatched⟩ := hwhose sid (hlt.trans_le h.next)
    have hstays : o.now ≠ none ∧ r.watched sid = [] → o.now ≠ none ∧ r'.watched sid = [] := by
      rintro ⟨hlogin, hnone⟩
      have hless := hwatched.resolve_right hlogin
      rw [hnone] at hless
      exact ⟨hlogin, List.subset_nil.mp hless⟩
    rcases huser with hsame | hfresh
    · exact (h.user sid hlt).imp hsame.trans hstays
    · exact .inr (hstays hfresh)

theorem GrowsFrom.workOff (h : GrowsFrom r₀ o r) (hr : r.InOrder) {d : SessionDisconnect}
    {rest : List SessionDisconnect} (hd : r.disconnects = d :: rest) :
    GrowsFrom r₀ o (r.workOff d rest) := by
  obtain ⟨htable, hmembers, _⟩ := processDisconnect_frame { r with disconnects := rest }
    d.sessionId d.userId d.channelId
  have hnext : (r.workOff d rest).next = r.next := next_processDisconnect ..
  constructor
  · exact h.inScope.workOff d rest
  · exact h.housed.workOff hr hd
  · exact h.next.trans hnext.ge
  · intro sid hin
    exact h.table sid (htable ▸ hin)
  · intro sid hlt
    rw [show (r.workOff d rest).members sid = r.members sid from congrFun hmembers sid]
    refine (h.user sid hlt).imp_right fun ⟨hlogin, hnone⟩ => ⟨hlogin, ?_⟩
    have hless : (r.workOff d rest).watched sid ⊆ r.watched sid :=
      List.Subset.trans (watched_processDisconnect_subset ..) (watched_endSession_subset ..)
    rw [hnone] at hless
    exact List.subset_nil.mp hless

theorem sessionForUser_workOff {d : SessionDisconnect} {rest : List SessionDisconnect}
    {user : UserId} {current : SessionId}
    (h : (r.workOff d rest).sessionForUser user = some current) :
    r.sessionForUser user = some current := by
  have hforget : (({ r with disconnects := rest } : Registry).forget d.sessionId
      d.userId).sessionForUser user = some current := by
    simp only [workOff, processDisconnect, endSession] at h
    split at h
    · exact h
    · exact h
  obtain ⟨hindex, htable⟩ := sessionForUser_eq_some.mp hforget
  apply sessionForUser_eq_some.mpr
  refine ⟨?_, htable⟩
  simp only [forget] at hindex
  split at hindex
  · by_cases huser : user = d.userId
    · subst huser
      rw [Function.update_self] at hindex
      cases hindex
    · rw [Function.update_of_ne huser] at hindex
      exact hindex
  · exact hindex

theorem disconnects_workOff (r : Registry) (d : SessionDisconnect)
    (rest : List SessionDisconnect) : (r.workOff d rest).disconnects = rest := by
  unfold workOff processDisconnect endSession
  dsimp only
  split <;> rfl

/-- Who has left a channel for good is not watched there any more. -/
theorem not_mem_watched_workOff {d : SessionDisconnect} {rest : List SessionDisconnect}
    {sid : SessionId} {source : VideoSource} (hin : sid ∈ r.table) (hzero : d.channelId ≠ 0)
    (hgone : ∀ current, r.sessionForUser d.userId = some current →
      (r.members current).channelId ≠ d.channelId)
    (hlisted : videoStreamId d.userId source ∈ r.listed d.channelId) :
    videoStreamId d.userId source ∉ (r.workOff d rest).watched sid := by
  intro hwatched
  have hended := watched_processDisconnect_subset _ _ _ _ _ hwatched
  have hnot : (({ r with disconnects := rest } : Registry).forget d.sessionId d.userId).rejoined
      d.sessionId d.userId d.channelId ≠ true := by
    intro hback
    simp only [rejoined, Option.any_eq_true, Bool.and_eq_true, decide_eq_true_eq] at hback
    obtain ⟨current, hcurrent, _, hthere⟩ := hback
    exact hgone current (sessionForUser_forget hcurrent).1 hthere
  unfold endSession at hended
  rw [if_neg (not_or.mpr ⟨hzero, hnot⟩)] at hended
  exact not_mem_watched_stopAll hin hlisted hended

end Registry

namespace Server

variable {s s' : Server} {queue queue' : List SessionDisconnect} {viewer : SessionId}
  {stream : StreamId} {op : ServerOp}

theorem Faithful.growsFrom (h : s.Faithful queue) (op : ServerOp) :
    Registry.GrowsFrom s.registry (s.occasion op) (s.step op).registry := by
  have hstart : Registry.GrowsFrom s.registry (s.occasion op) s.registry :=
    ⟨h.inScope, h.housed, le_rfl, fun _ => .inl, fun _ _ => .inl rfl⟩
  apply (registry_step ?_ ?_ h.inOrder hstart).2
  · intro r r' hr hgrows hmove
    exact hgrows.move hr hmove
  · intro r d rest hr hgrows hd
    exact hgrows.workOff hr hd

/-- Who watches a stream before and after a step was there before, as the same user. -/
theorem Faithful.same_viewer (h : s.Faithful queue) (hin : viewer ∈ (s.step op).sessionTable)
    (hafter : stream ∈ ((s.step op).sessions viewer).subscribedSharers)
    (hbefore : stream ∈ (s.sessions viewer).subscribedSharers) :
    viewer ∈ s.sessionTable ∧
      ((s.step op).sessions viewer).userId = (s.sessions viewer).userId := by
  have hgrows := h.growsFrom op
  have hold : viewer < s.registry.next := by
    by_contra hnew
    have hnone := h.inScope.fresh viewer (not_lt.mp hnew)
    rw [show (s.sessions viewer).subscribedSharers = [] from hnone] at hbefore
    cases hbefore
  constructor
  · exact (hgrows.table viewer hin).resolve_right (not_le.mpr hold)
  · refine (hgrows.user viewer hold).resolve_right ?_
    rintro ⟨_, hnone⟩
    rw [show ((s.step op).sessions viewer).subscribedSharers = [] from hnone] at hafter
    cases hafter

/-- A step that takes no frames leaves the viewers in step, if who has dropped has still
dropped. -/
theorem Faithful.step_of_dropped (h : s.Faithful queue) (hop : op.isVideo = false)
    (hdropped : ∀ viewer ∈ s.sessionTable, ∀ stream ∈ (s.sessions viewer).subscribedSharers,
      stream ∈ ((s.step op).sessions viewer).subscribedSharers →
        s.Dropped queue viewer stream → (s.step op).Dropped queue' viewer stream) :
    (s.step op).Faithful queue' := by
  have hsame := sameRecords_step s hop
  have hgrows := h.growsFrom op
  apply h.quiet (inOrder_step h.inOrder op) hgrows.inScope hgrows.housed hsame.record
  · intro stream ingress hin
    exact hsame.holds h.holds hin
  · exact hsame.standing
  · intro viewer hin stream hafter hbefore
    obtain ⟨hwas, huser⟩ := h.same_viewer hin hafter hbefore
    exact ⟨hwas, huser, hdropped viewer hwas stream hbefore hafter⟩

/-! ### Who has dropped -/

/-- The owner has still dropped while the departure is in the queue and no session of
theirs has come up. -/
theorem Dropped.mono (h : s.Dropped queue viewer stream) (hqueue : queue ⊆ queue')
    (hchannel : (s'.sessions viewer).channelId = (s.sessions viewer).channelId)
    (hsession : ∀ current, s'.sessionForUser (videoStreamOwner stream) = some current →
      s.sessionForUser (videoStreamOwner stream) = some current ∧
        (s'.sessions current).channelId = (s.sessions current).channelId) :
    s'.Dropped queue' viewer stream := by
  obtain ⟨⟨d, hd, huser, hwhere⟩, hgone⟩ := h
  refine ⟨⟨d, hqueue hd, huser, hwhere.trans hchannel.symm⟩, ?_⟩
  intro current hcurrent
  obtain ⟨hwas, hsame⟩ := hsession current hcurrent
  rw [hchannel, hsame]
  exact hgone current hwas

theorem Dropped.of_registry (h : s.Dropped queue viewer stream)
    (hregistry : s'.registry = s.registry) : s'.Dropped queue viewer stream := by
  have hmember : ∀ sid, (s'.sessions sid).channelId = (s.sessions sid).channelId := fun sid =>
    congrArg (fun r : Registry => (r.members sid).channelId) hregistry
  apply h.mono (List.Subset.refl _) (hmember viewer)
  intro current hcurrent
  have hsession : s'.sessionForUser (videoStreamOwner stream) =
      s.sessionForUser (videoStreamOwner stream) :=
    congrArg (fun r : Registry => r.sessionForUser (videoStreamOwner stream)) hregistry
  exact ⟨hsession.symm.trans hcurrent, hmember current⟩

theorem Dropped.connect (h : s.Dropped queue viewer stream) (hs : s.registry.InOrder)
    (hin : viewer ∈ s.sessionTable) : (s.step .connect).Dropped queue viewer stream := by
  have hregistry : (s.step .connect).registry = s.registry.connect := registry_onNewConnection
  have hmember : ∀ sid ∈ s.sessionTable,
      ((s.step .connect).sessions sid).channelId = (s.sessions sid).channelId := by
    intro sid hsid
    have hne : sid ≠ s.registry.next := (hs.consistent.lt_next sid hsid).ne
    have hkept : s.registry.connect.members sid = s.registry.members sid :=
      Function.update_of_ne hne ..
    exact congrArg Member.channelId
      ((congrArg (fun r : Registry => r.members sid) hregistry).trans hkept)
  apply h.mono (List.Subset.refl _) (hmember viewer hin)
  intro current hcurrent
  have hafter : s.registry.connect.sessionForUser (videoStreamOwner stream) = some current := by
    rw [← hregistry]
    exact hcurrent
  obtain ⟨hindex, htable⟩ := Registry.sessionForUser_eq_some.mp hafter
  have hold : current ∈ s.sessionTable := by
    rcases List.mem_append.mp htable with hold | hnew
    · exact hold
    · -- no user has the session that is new
      obtain rfl := List.mem_singleton.mp hnew
      exact absurd hindex ((hs.consistent.fresh _ le_rfl).2 _)
  have hbefore : s.registry.sessionForUser (videoStreamOwner stream) = some current :=
    Registry.sessionForUser_eq_some.mpr ⟨hindex, hold⟩
  exact ⟨hbefore, hmember current hold⟩

theorem disconnects_onShutdownComplete (sid : SessionId) :
    ∃ more, (s.onShutdownComplete sid).disconnects = s.disconnects ++ more := by
  by_cases hin : sid ∈ s.sessionTable
  · have hqueue := congrArg Registry.disconnects (registry_onShutdownComplete hin)
    rw [show (s.onShutdownComplete sid).disconnects = _ from hqueue]
    simp only [Registry.depart]
    split
    · exact ⟨_, rfl⟩
    · exact ⟨[], (List.append_nil _).symm⟩
  · exact ⟨[], by simp [onShutdownComplete, getSession, hin]⟩

theorem Dropped.shutdownComplete (h : s.Dropped queue viewer stream) (sid : SessionId)
    (hqueue : queue ⊆ queue') : (s.onShutdownComplete sid).Dropped queue' viewer stream := by
  by_cases hin : sid ∈ s.sessionTable
  · have hregistry := registry_onShutdownComplete hin
    have hmember : ∀ other, ((s.onShutdownComplete sid).sessions other).channelId =
        (s.sessions other).channelId := by
      intro other
      have hsame : ((s.registry.depart sid).members other).channelId =
          (s.registry.members other).channelId := by
        by_cases hother : other = sid
        · subst hother
          simp [Registry.depart, Registry.retire, Registry.modify]
        · simp [Registry.depart, Registry.retire, Registry.modify, hother]
      exact (congrArg (fun r : Registry => (r.members other).channelId) hregistry).trans hsame
    apply h.mono hqueue (hmember viewer)
    intro current hcurrent
    have hafter : (s.registry.depart sid).sessionForUser (videoStreamOwner stream) =
        some current := by
      rw [← hregistry]
      exact hcurrent
    obtain ⟨hindex, htable⟩ := Registry.sessionForUser_eq_some.mp hafter
    have hold : current ∈ s.registry.table := List.mem_of_mem_filter htable
    have hbefore : s.registry.sessionForUser (videoStreamOwner stream) = some current :=
      Registry.sessionForUser_eq_some.mpr ⟨hindex, hold⟩
    exact ⟨hbefore, hmember current⟩
  · have hsame : s.onShutdownComplete sid = s := by simp [onShutdownComplete, getSession, hin]
    rw [hsame]
    exact h.mono hqueue rfl fun _ hcurrent => ⟨hcurrent, rfl⟩

/-- A departure that is worked off takes the streams of its owner away, unless they are
back. -/
theorem Dropped.processDisconnect {d : SessionDisconnect} {rest : List SessionDisconnect}
    (h : s.Dropped (d :: queue) viewer stream)
    (hscoped : s.registry.Scoped) (hd : s.disconnects = d :: rest)
    (hhoused : s.registry.Housed fun _ _ => False) (hin : viewer ∈ s.sessionTable)
    (hbefore : stream ∈ (s.sessions viewer).subscribedSharers)
    (hafter : stream ∈ (s.processDisconnects.sessions viewer).subscribedSharers) :
    s.processDisconnects.Dropped queue viewer stream := by
  have hregistry := registry_processDisconnects hd
  obtain ⟨htable, hmembers, _⟩ := Registry.processDisconnect_frame
    { s.registry with disconnects := rest } d.sessionId d.userId d.channelId
  have hmember : ∀ sid, (s.processDisconnects.sessions sid).channelId =
      (s.sessions sid).channelId := fun sid =>
    congrArg Member.channelId ((congrArg (fun r : Registry => r.members sid) hregistry).trans
      (congrFun hmembers sid))
  obtain ⟨⟨d', hd', huser, hwhere⟩, hgone⟩ := h
  have hless : ∀ current,
      s.processDisconnects.sessionForUser (videoStreamOwner stream) = some current →
        s.sessionForUser (videoStreamOwner stream) = some current := by
    intro current hcurrent
    have hworked : (s.registry.workOff d rest).sessionForUser (videoStreamOwner stream) =
        some current := by
      rw [← hregistry]
      exact hcurrent
    exact Registry.sessionForUser_workOff hworked
  have hstill : d' ∈ queue → s.processDisconnects.Dropped queue viewer stream := by
    intro hqueued
    refine ⟨⟨d', hqueued, huser, hwhere.trans (hmember viewer).symm⟩, fun current hcurrent => ?_⟩
    rw [hmember, hmember]
    exact hgone current (hless current hcurrent)
  rcases List.mem_cons.mp hd' with rfl | hqueued
  · -- the owner is not back, so the viewer cannot still be watching
    exfalso
    have hlisted := hscoped.watched viewer hin hbefore
    obtain ⟨hzero, ⟨source, hsource⟩, _⟩ := hhoused _ stream hlisted
    have hstream := videoStreamId_owner hsource
    have hwatched : stream ∈ (s.registry.workOff d' rest).watched viewer := by
      rw [← hregistry]
      exact hafter
    rw [← hstream, ← huser] at hwatched
    rw [← hstream, ← huser] at hlisted
    rw [← huser] at hgone
    have hchannel : (s.registry.members viewer).channelId = d'.channelId := hwhere.symm
    rw [hchannel] at hlisted hzero
    apply Registry.not_mem_watched_workOff hin hzero ?_ hlisted hwatched
    intro current hcurrent
    rw [← hchannel]
    exact hgone current hcurrent
  · exact hstill hqueued

/-- The transport thread adds departures, and brings no one back. -/
theorem Dropped.transport (h : s.Dropped queue viewer stream) (hs : s.registry.InOrder)
    (hop : op.phase = none) (hin : viewer ∈ s.sessionTable) (hqueue : queue ⊆ queue') :
    (s.step op).Dropped queue' viewer stream := by
  have hmore : ∀ s' : Server, s'.Dropped queue viewer stream → s'.Dropped queue' viewer stream :=
    fun s' h' => h'.mono hqueue rfl fun _ hcurrent => ⟨hcurrent, rfl⟩
  cases op with
  | connect => exact hmore _ (h.connect hs hin)
  | shutdownComplete sid => exact h.shutdownComplete sid hqueue
  | videoFrame sid source frame => exact hmore _ (h.of_registry (registry_enqueueVideoFrame ..))
  | videoFrameStarted sid source hdr =>
      exact hmore _ (h.of_registry (registry_enqueueVideoEvent ..))
  | videoFrameAborted sid source frameSeq =>
      exact hmore _ (h.of_registry (registry_enqueueVideoEvent ..))
  | videoOutShutdown sid handle => exact hmore _ (h.of_registry (registry_videoOutShutdown ..))
  | _ => cases hop

theorem disconnects_transport (hop : op.phase = none) :
    ∃ more, (s.step op).disconnects = s.disconnects ++ more := by
  have hsame : (s.step op).registry = s.registry →
      ∃ more, (s.step op).disconnects = s.disconnects ++ more := by
    intro hregistry
    refine ⟨[], ?_⟩
    rw [List.append_nil]
    exact congrArg Registry.disconnects hregistry
  cases op with
  | connect => exact ⟨[], by simp [step, onNewConnection]⟩
  | shutdownComplete sid => exact disconnects_onShutdownComplete sid
  | videoFrame sid source frame => exact hsame (registry_enqueueVideoFrame ..)
  | videoFrameStarted sid source hdr => exact hsame (registry_enqueueVideoEvent ..)
  | videoFrameAborted sid source frameSeq => exact hsame (registry_enqueueVideoEvent ..)
  | videoOutShutdown sid handle => exact hsame (registry_videoOutShutdown ..)
  | _ => cases hop

theorem isVideo_of_transport (hop : op.phase = none) : op.isVideo = false := by
  cases op <;> first | rfl | cases hop

theorem Faithful.mono (h : s.Faithful queue) (hqueue : queue ⊆ queue') : s.Faithful queue' := by
  refine ⟨h.inOrder, h.inScope, h.housed, h.recorded, h.holds, fun viewer hin stream hwatched => ?_⟩
  refine (h.viewers viewer hin stream hwatched).imp_right fun ⟨hforeign, hstep⟩ => ?_
  exact ⟨hforeign, hstep.imp_right fun hdropped =>
    hdropped.mono hqueue rfl fun _ hcurrent => ⟨hcurrent, rfl⟩⟩

theorem Faithful.processDisconnects {d : SessionDisconnect} {rest : List SessionDisconnect}
    (h : s.Faithful (d :: queue)) (hd : s.disconnects = d :: rest) :
    (s.step .processDisconnect).Faithful queue := by
  apply h.step_of_dropped rfl
  intro viewer hin stream hbefore hafter hdropped
  exact hdropped.processDisconnect h.inScope hd h.housed hin hbefore hafter

theorem faithful_new (config : Config) (env : Environment) : (new config env).Faithful [] where
  inOrder := inOrder_new config env
  inScope := ⟨rfl, (fun _ hin => by cases hin), fun _ _ => rfl⟩
  housed := fun _ _ hin => by cases hin
  recorded := fun _ =>
    { sending := fun _ hout => by cases hout
      handed := fun _ _ _ hin => by cases hin
      aborted := fun _ _ _ hin => by cases hin
      spares := fun _ => ⟨(fun _ _ hin => by cases hin), List.Pairwise.nil⟩
      decodes := fun _ => trivial }
  holds := fun _ _ hin => by cases hin
  viewers := fun _ hin => by cases hin

end Server

/-! ### The loop -/

namespace MainLoop

variable {l : MainLoop} {op : ServerOp}

/-- The departures to be worked off before the next control message. -/
def due (l : MainLoop) : List SessionDisconnect :=
  match l.phase with
  | .controlMessages | .dataPackets => []
  | .videoFrames => l.server.disconnects
  | .disconnects => l.server.disconnects.take l.drained

structure Faithful (l : MainLoop) : Prop where
  server : l.server.Faithful l.due
  drained : l.phase = .disconnects → l.drained ≤ l.server.disconnects.length

/-- A step of the transport thread leaves what is due. -/
theorem Faithful.transport (h : l.Faithful) (hop : op.phase = none) :
    Faithful { l with server := l.server.step op } := by
  obtain ⟨more, hqueue⟩ := l.server.disconnects_transport hop
  have hdue : l.due ⊆ due { l with server := l.server.step op } := by
    unfold due
    cases hphase : l.phase with
    | controlMessages => exact List.Subset.refl _
    | dataPackets => exact List.Subset.refl _
    | videoFrames =>
        dsimp only
        rw [hqueue]
        exact List.subset_append_left _ _
    | disconnects =>
        dsimp only
        rw [hqueue, List.take_append_of_le_length (h.drained hphase)]
        exact List.Subset.refl _
  constructor
  · apply h.server.step_of_dropped (Server.isVideo_of_transport hop)
    intro viewer hin stream _ _ hdropped
    exact hdropped.transport h.server.inOrder hop hin hdue
  · intro hphase
    dsimp only
    rw [hqueue, List.length_append]
    exact (h.drained hphase).trans (Nat.le_add_right _ _)

/-- While control messages and data packets are handled, nothing is due. -/
theorem Faithful.idle (h : l.Faithful) (hop : op.phase = some l.phase)
    (hphase : l.phase = .controlMessages ∨ l.phase = .dataPackets) :
    Faithful { l with server := l.server.step op } := by
  have hnone : ∀ l' : MainLoop, l'.phase = l.phase → l'.due = [] := by
    intro l' hsame
    unfold due
    rcases hphase with hphase | hphase <;> rw [hsame, hphase]
  have hvideo : op.isVideo = false := by
    rcases hphase with hphase | hphase <;> rw [hphase] at hop <;> cases op <;>
      first | rfl | cases hop
  constructor
  · apply h.server.step_of_dropped hvideo
    rintro viewer hin stream _ _ ⟨⟨d, hd, _⟩, _⟩
    rw [hnone l rfl] at hd
    cases hd
  · intro hdisconnects
    rcases hphase with hphase | hphase <;> cases hphase.symm.trans hdisconnects

/-- A step that leaves the registry alone, while frames are handled. -/
theorem Faithful.frames (h : l.Faithful) (hphase : l.phase = .videoFrames)
    (hop : op.phase = some .videoFrames) :
    Faithful { l with server := l.server.step op } := by
  have hfaithful : l.server.Faithful l.server.disconnects := by
    have hserver := h.server
    unfold due at hserver
    rw [hphase] at hserver
    exact hserver
  have hdone : (l.server.step op).Faithful (l.server.step op).disconnects := by
    have hsame : (l.server.step op).registry = l.server.registry →
        (l.server.step op).Faithful l.server.disconnects →
          (l.server.step op).Faithful (l.server.step op).disconnects := by
      intro hregistry hafter
      rw [show (l.server.step op).disconnects = l.server.disconnects from
        congrArg Registry.disconnects hregistry]
      exact hafter
    cases op with
    | processVideoFrame => exact hfaithful.processVideoFrame
    | beginPass =>
        have hsame : l.server.SameRecords (l.server.step .beginPass) :=
          Server.sameRecords_step l.server rfl
        exact hfaithful.sameRecords rfl hsame
    | pollIngress stream =>
        exact hsame (Server.registry_pollIngress stream) (hfaithful.pollIngress stream)
    | sendDeferred stream =>
        have hregistry := l.server.registry_sendDeferredKeyframeRequest stream
        have hrecords : l.server.SameRecords (l.server.step (.sendDeferred stream)) :=
          Server.sameRecords_step l.server rfl
        exact hsame hregistry (hfaithful.sameRecords hregistry hrecords)
    | _ => cases hop
  constructor
  · unfold due
    rw [hphase]
    exact hdone
  · intro hdisconnects
    cases hphase.symm.trans hdisconnects

theorem Faithful.disconnect (h : l.Faithful) (hphase : l.phase = .disconnects) {n : Nat}
    (hdrained : l.drained = n + 1) :
    Faithful { l with server := l.server.step .processDisconnect, drained := n } := by
  have hlength := h.drained hphase
  have hserver := h.server
  unfold due at hserver
  simp only [hphase, hdrained] at hserver hlength
  cases hd : l.server.disconnects with
  | nil => simp [hd] at hlength
  | cons d rest =>
      rw [hd, List.take_succ_cons] at hserver
      have hqueue : (l.server.step .processDisconnect).disconnects = rest := by
        have hregistry := Server.registry_processDisconnects hd
        have hworked := congrArg Registry.disconnects hregistry
        exact hworked.trans (Registry.disconnects_workOff ..)
      constructor
      · unfold due
        simp only [hphase, hqueue]
        exact hserver.processDisconnects hd
      · intro _
        dsimp only
        rw [hqueue]
        rw [hd, List.length_cons] at hlength
        exact Nat.le_of_succ_le_succ hlength

theorem Faithful.act (h : l.Faithful) (op : ServerOp) : (l.act op).Faithful := by
  rcases l.act_cases op with hsame | ⟨hstep, hother, hphase⟩ | ⟨rfl, hphase, n, hdrained, hstep⟩
  · rw [hsame]
    exact h
  · rw [hstep]
    rcases hphase with hnone | hsome
    · exact h.transport hnone
    · by_cases hframes : l.phase = .videoFrames
      · exact h.frames hframes (hsome.trans (congrArg some hframes))
      · apply h.idle hsome
        cases hphase : l.phase with
        | controlMessages => exact .inl rfl
        | dataPackets => exact .inr rfl
        | videoFrames => exact absurd hphase hframes
        | disconnects =>
            rw [hphase] at hsome
            cases op with
            | processDisconnect => exact absurd rfl hother
            | _ => cases hsome
  · rw [hstep]
    exact h.disconnect hphase hdrained

/-- What is due when the frames have been handled is what the pass drains. -/
theorem Faithful.next (h : l.Faithful) : l.next.Faithful := by
  obtain ⟨hserver, hdrained⟩ := h
  unfold due at hserver
  unfold MainLoop.next
  cases hphase : l.phase with
  | controlMessages =>
      simp only [hphase] at hserver
      exact ⟨hserver, fun hother => by cases hother⟩
  | dataPackets =>
      simp only [hphase] at hserver
      exact ⟨hserver.mono (List.nil_subset _), fun hother => by cases hother⟩
  | videoFrames =>
      simp only [hphase] at hserver
      refine ⟨?_, fun _ => le_rfl⟩
      simp only [due, List.take_length]
      exact hserver
  | disconnects =>
      simp only [hphase] at hserver
      dsimp only
      split
      next hzero =>
        rw [hzero, List.take_zero] at hserver
        exact ⟨hserver, fun hother => by cases hother⟩
      · refine ⟨?_, hdrained⟩
        unfold due
        rw [hphase]
        exact hserver

theorem Faithful.step (h : l.Faithful) (op : LoopOp) : (l.step op).Faithful := by
  cases op with
  | act op => exact h.act op
  | next => exact h.next

theorem faithful_run (config : Config) (env : Environment) (ops : List LoopOp) :
    (run config env ops).Faithful := by
  have hstart : Faithful { server := Server.new config env } :=
    ⟨Server.faithful_new config env, fun hother => by cases hother⟩
  exact Machine.run_preserves (fun (l : MainLoop) op (h : l.Faithful) => h.step op) hstart ops

/-- The frames of a stream handed on to a viewer within one subscription start with a
keyframe, a delta follows the frame handed on before it, and after a missed frame the next
one is a keyframe. What the server aborts is older than the frame it resumes with, and is
handed on before it. -/
theorem viewer_decodable (config : Config) (env : Environment) (ops : List LoopOp)
    (viewer : SessionId) (stream : StreamId) :
    Decodes none (((run config env ops).server.sessions viewer).viewerLog stream) ∧
      SparesLater (((run config env ops).server.sessions viewer).viewerLog stream) := by
  have hrecorded := (faithful_run config env ops).server.recorded viewer
  exact ⟨hrecorded.decodes stream, hrecorded.spares stream⟩

end MainLoop

end Parties

import Parties.Server.RegistryRuns

/-!
# The stream registry is exact

With no disconnect pending a channel lists exactly the streams that live sessions
in it run, and the end of an old session leaves the share of a newer one alone.
Both rest on what `process_disconnect` finds: it keeps everything when a newer
session is back in the channel, also what that session does not run; and it stops
what the user runs in another channel when the old one still lists it.
-/

namespace Parties

namespace Server

/-! ### The property -/

/-- The listed streams are those that live sessions run. -/
def RegistryExact (s : Server) : Prop :=
  s.disconnects = [] → ∀ channel stream, stream ∈ s.channelVideoStreams channel ↔
    ∃ sid source, s.sessionForUser (videoStreamOwner stream) = some sid ∧
      videoStreamSource stream = some source ∧ (s.sessions sid).channelId = channel ∧
      (s.sessions sid).videoIngressAllowed source = true

/-- The shares of the sessions in the table run on: the flag, the generation and the
entry in the registry are as they were. -/
def SharesKept (s s' : Server) : Prop :=
  ∀ sid ∈ s.sessionTable, ∀ source, (s.sessions sid).videoIngressAllowed source = true →
    (s'.sessions sid).videoIngressAllowed source = true ∧
      ((s'.sessions sid).videoSources source).generation =
        ((s.sessions sid).videoSources source).generation ∧
      videoStreamId (s.sessions sid).userId source ∈
        s'.channelVideoStreams (s.sessions sid).channelId

/-! ### The condition -/

/-- The session a departed user has by now runs what is listed in the channel they
left if and only if it is in that channel. -/
def DepartureAgrees (s : Server) : ServerOp → Prop
  | .processDisconnect => ∀ d ∈ s.disconnects.head?, ∀ current ∈ s.sessionForUser d.userId,
      ∀ source, videoStreamId d.userId source ∈ s.channelVideoStreams d.channelId →
        ((s.sessions current).videoIngressAllowed source = true ↔
          (s.sessions current).channelId = d.channelId)
  | _ => True

instance DepartureAgrees.decidable (s : Server) : (op : ServerOp) → Decidable (s.DepartureAgrees op)
  | .processDisconnect => inferInstanceAs (Decidable (∀ d ∈ s.disconnects.head?,
      ∀ current ∈ s.sessionForUser d.userId, ∀ source,
      videoStreamId d.userId source ∈ s.channelVideoStreams d.channelId →
        ((s.sessions current).videoIngressAllowed source = true ↔
          (s.sessions current).channelId = d.channelId)))
  | .connect | .shutdownComplete _ | .videoFrame _ _ _ | .videoFrameStarted _ _ _
  | .videoFrameAborted _ _ _ | .videoOutShutdown _ _ | .message _ _ | .videoControl _ _ _
  | .processVideoFrame | .beginPass | .pollIngress _ | .sendDeferred _ => isTrue trivial

/-! ### Runs -/

variable {s : Server}

theorem DepartureAgrees.agrees (h : s.DepartureAgrees .processDisconnect) {d : SessionDisconnect}
    {rest : List SessionDisconnect} (hd : s.disconnects = d :: rest) :
    s.registry.Agrees d.userId d.channelId := by
  intro current hsession source hlisted
  exact h d (by simp [hd]) current hsession source hlisted

theorem listed_step (h : s.registry.InOrder) {op : ServerOp} (hop : s.DepartureAgrees op)
    {extra : ChannelId → UserId → Prop} (hlisted : s.registry.Listed extra) :
    (s.step op).registry.Listed extra := by
  by_cases hdisconnect : op = .processDisconnect
  · subst hdisconnect
    cases hd : s.disconnects with
    | nil =>
        have hsame : s.step .processDisconnect = s := by simp [step, processDisconnects, hd]
        rw [hsame]
        exact hlisted
    | cons d rest =>
        rw [step, registry_processDisconnects hd]
        exact h.listed_workOff hd (hop.agrees hd) hlisted
  · exact (keeps_step h op hdisconnect).listed extra hlisted

/-- What is listed is accounted for, and what may be sent is listed. -/
theorem registryExact_of_listed (h : s.registry.InOrder)
    (hlisted : s.registry.Listed fun _ _ => False) : s.RegistryExact := by
  intro hquiet channel stream
  constructor
  · intro hin
    obtain ⟨_, source, hsource, hwhy⟩ := hlisted channel stream hin
    rcases hwhy with ⟨sid, hsession, hchannel, hallowed⟩ | ⟨d, hd, _⟩ | hfalse
    · exact ⟨sid, source, hsession, hsource, hchannel, hallowed⟩
    · have hempty : s.registry.disconnects = [] := hquiet
      rw [hempty] at hd
      cases hd
    · exact hfalse.elim
  · rintro ⟨sid, source, hsession, hsource, rfl, hallowed⟩
    rw [← sessionForUser_registry] at hsession
    obtain ⟨hindex, htable⟩ := Registry.sessionForUser_eq_some.mp hsession
    have howner := (h.consistent.user _ sid hindex htable).2
    have hpublished := (h.consistent.published sid htable source hallowed).2
    rw [howner, videoStreamId_owner hsource] at hpublished
    exact hpublished

theorem sharesKept_processDisconnect (h : s.registry.InOrder)
    (hop : s.DepartureAgrees .processDisconnect) : s.SharesKept (s.step .processDisconnect) := by
  intro sid hin source hallowed
  cases hd : s.disconnects with
  | nil =>
      have hsame : s.step .processDisconnect = s := by simp [step, processDisconnects, hd]
      rw [hsame]
      exact ⟨hallowed, rfl, (h.consistent.published sid hin source hallowed).2⟩
  | cons d rest =>
      obtain ⟨hout, _, hpack⟩ := h.consistent.events d (by simp [registry, hd])
      have hpopped : { s.registry with disconnects := rest }.Consistent :=
        { h.consistent with
          events := fun d' hd' => h.consistent.events d' (by simp [registry, hd, hd']) }
      have hagrees : { s.registry with disconnects := rest }.sessionForUser d.userId = some sid →
          videoStreamId d.userId source ∈ s.registry.listed d.channelId →
          s.registry.allowed sid source = true →
          (s.registry.members sid).channelId = d.channelId :=
        fun hsession hlisted hallow => ((hop.agrees hd) sid hsession source hlisted).mp hallow
      have hkeeps := Registry.processDisconnect_keeps hpopped (fun _ => hpack) hout hin hagrees
        hallowed
      have hreg : (s.step .processDisconnect).registry = s.registry.workOff d rest :=
        registry_processDisconnects hd
      have hflag := congrArg (fun r => r.allowed sid source) hreg
      have hgeneration := congrArg (fun r => r.generation sid source) hreg
      have hentries := congrArg (fun r => r.listed (s.sessions sid).channelId) hreg
      exact ⟨hflag.trans hkeeps.1, hgeneration.trans hkeeps.2.1,
        (congrArg (videoStreamId (s.sessions sid).userId source ∈ ·) hentries).mpr hkeeps.2.2⟩

/-- In every run whose departures agree with the registry, the registry is exact and
no departure touches a running share. -/
theorem registryExact_run (config : Config) (env : Environment) (ops : List ServerOp)
    (hops : Machine.AllSteps step DepartureAgrees (new config env) ops) :
    (run config env ops).RegistryExact ∧
      Machine.AllSteps step (fun s op => op = .processDisconnect → s.SharesKept (s.step op))
        (new config env) ops := by
  have hstep : ∀ (s : Server) (op : ServerOp),
      s.registry.InOrder ∧ s.registry.Listed (fun _ _ => False) → s.DepartureAgrees op →
      (s.step op).registry.InOrder ∧ (s.step op).registry.Listed fun _ _ => False :=
    fun s op h hop => ⟨inOrder_step h.1 op, listed_step h.1 hop h.2⟩
  have hnew : (new config env).registry.InOrder ∧
      (new config env).registry.Listed fun _ _ => False :=
    ⟨inOrder_new config env, fun _ _ hin => by cases hin⟩
  constructor
  · obtain ⟨hinOrder, hlisted⟩ := Machine.run_invariant hstep hnew hops
    exact registryExact_of_listed hinOrder hlisted
  · refine Machine.AllSteps.imp hstep (fun s op h hop hdisconnect => ?_) hnew hops
    subst hdisconnect
    exact sharesKept_processDisconnect h.1 hop

/-- The root reconnects after their first session has been worked off. -/
theorem registryExact_run_reconnect :
    (run .small (.ticking 1) (rootShares ++ [.shutdownComplete 1, .processDisconnect, .connect,
      login 2 0 2, .message 2 (.channelJoin 1 none),
      .message 2 (.screenShareStart 0 0 0 0)])).RegistryExact :=
  (registryExact_run .small (.ticking 1) _ (by decide +kernel)).1

/-- The root is back in the channel before their first session is worked off. -/
def backTooEarly : List ServerOp :=
  rootShares ++ [.shutdownComplete 1, .connect, login 2 0 2, .message 2 (.channelJoin 1 none),
    .processDisconnect]

/-- The stream of the departed session stays listed. -/
theorem not_registryExact_run : ¬ ∀ config env ops, (run config env ops).RegistryExact ∧
    Machine.AllSteps step (fun s op => op = .processDisconnect → s.SharesKept (s.step op))
      (new config env) ops := by
  intro hclaim
  have hexact := (hclaim .small (.ticking 1) backTooEarly).1 (by decide +kernel) 1 1
  obtain ⟨sid, source, hsession, hsource, _, hallowed⟩ := hexact.mp (by decide +kernel)
  have hsid : sid = 2 := Option.some.inj (hsession.symm.trans (by decide +kernel))
  subst hsid
  cases source <;> exact absurd hallowed (by decide +kernel)

/-- The root shares in a second channel before the session in the first is worked
off: what is left of it there takes the newer share along. -/
theorem not_sharesKept_elsewhere :
    ¬ (run .small (.ticking 1) (rootShares ++ [.shutdownComplete 1, .connect, login 2 0 2,
        .message 2 (.adminCreateChannel "den" 0 true), .message 2 (.channelJoin 2 none),
        .message 2 (.screenShareStart 0 0 0 0)])).SharesKept
      (run .small (.ticking 1) (rootShares ++ [.shutdownComplete 1, .connect, login 2 0 2,
        .message 2 (.adminCreateChannel "den" 0 true), .message 2 (.channelJoin 2 none),
        .message 2 (.screenShareStart 0 0 0 0), .processDisconnect])) := by
  intro hkept
  have hflag := (hkept 2 (by decide +kernel) .screen (by decide +kernel)).1
  exact absurd hflag (by decide +kernel)

end Server

end Parties

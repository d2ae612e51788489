import Parties.Client.ServerBrowser

/-!
# No server waits for the next period

The query thread sleeps between its passes; a list that is published, and a lobby that becomes
visible again, wake it through a flag that stays set. As long as a published target has not been
asked, somebody is bound to see to it: the flag is set or about to be, or the thread is on its way
to the target. Left alone, and without its timeout, it therefore asks every one of them.
-/

namespace Parties.Client.ServerBrowser

variable {F : Type}

/-- The targets published last that have not been asked since. -/
def due (log : List BrowserEvent) : List QueryTarget :=
  log.foldl (fun left event =>
    match event with
    | .published targets => targets
    | .asked target => left.filter (· ≠ target)
    | .stored _ _ => left) []

theorem due_append (log events : List BrowserEvent) : due (log ++ events) =
    events.foldl (fun left event =>
      match event with
      | .published targets => targets
      | .asked target => left.filter (· ≠ target)
      | .stored _ _ => left) (due log) := List.foldl_append

/-- The targets in front of the query thread in this pass. -/
def WorkerPhase.ahead : WorkerPhase → List QueryTarget
  | .querying targets => targets
  | .asking _ rest => rest
  | .answered _ _ rest => rest
  | .stored rest => rest
  | _ => []

namespace Browser

/-- Somebody sees to what is due. -/
inductive SeenTo (b : Browser F) (left : List QueryTarget) : Prop where
  | nothing (h : left = [])
  | flagged (h : b.pending = true)
  | flagging (h : b.main = .requesting ∨ b.main = .waking)
  | woken (h : b.worker = .woken ∨ b.worker = .reading)
  | ahead (h : left ⊆ b.worker.ahead)
  | hidden (h : b.lobbyVisible = false)
  | ended (h : b.queryThreadRun = false)

structure Watched (p : Browser F × List BrowserEvent) : Prop where
  /-- What is due is published. -/
  published : due p.2 ⊆ p.1.queryTargets
  /-- The wake event is stopped behind the flag of the loop only. -/
  stopped : p.1.stopped = true → p.1.queryThreadRun = false
  stopping : p.1.main = .stopping → p.1.queryThreadRun = false
  exited : p.1.worker = .exited → p.1.queryThreadRun = false
  seenTo : p.1.SeenTo (due p.2)

variable {p : Browser F × List BrowserEvent}

theorem Watched.request (h : Watched p) :
    p.1.request.pending = true ∨ p.1.queryThreadRun = false := by
  rcases hstopped : p.1.stopped with _ | _
  · exact .inl (by simp [Browser.request, hstopped])
  · exact .inr (h.stopped hstopped)

theorem request_keeps (b : Browser F) : b.request.queryTargets = b.queryTargets ∧
    b.request.stopped = b.stopped ∧ b.request.queryThreadRun = b.queryThreadRun ∧
    b.request.worker = b.worker := by
  simp only [Browser.request]
  split <;> exact ⟨rfl, rfl, rfl, rfl⟩

/-- What does not concern the query thread leaves it watched. -/
theorem SeenTo.mono {b b' : Browser F} {left : List QueryTarget} (h : b.SeenTo left)
    (hpending : b.pending = true → b'.pending = true)
    (hmain : b.main = .requesting ∨ b.main = .waking → b'.main = .requesting ∨ b'.main = .waking)
    (hworker : b'.worker = b.worker) (hlobby : b'.lobbyVisible = b.lobbyVisible)
    (hrun : b'.queryThreadRun = b.queryThreadRun) : b'.SeenTo left := by
  cases h with
  | nothing h => exact .nothing h
  | flagged h => exact .flagged (hpending h)
  | flagging h => exact .flagging (hmain h)
  | woken h => exact .woken (hworker ▸ h)
  | ahead h => exact .ahead (hworker ▸ h)
  | hidden h => exact .hidden (hlobby.trans h)
  | ended h => exact .ended (hrun.trans h)

/-- So do steps of the main thread that neither publish nor flag, from where nothing is flagged. -/
theorem Watched.moves (h : Watched p) {b : Browser F}
    (hflagging : ¬ (p.1.main = .requesting ∨ p.1.main = .waking)) (hmain : b.main ≠ .stopping)
    (htargets : b.queryTargets = p.1.queryTargets) (hpending : b.pending = p.1.pending)
    (hstopped : b.stopped = p.1.stopped) (hworker : b.worker = p.1.worker)
    (hlobby : b.lobbyVisible = p.1.lobbyVisible) (hrun : b.queryThreadRun = p.1.queryThreadRun) :
    Watched (b, p.2) := by
  refine ⟨htargets ▸ h.published, fun hs => hrun.trans (h.stopped (hstopped ▸ hs)),
    fun hs => absurd hs hmain, fun he => hrun.trans (h.exited (hworker ▸ he)), ?_⟩
  exact h.seenTo.mono (fun hp => hpending.trans hp) (fun hf => absurd hf hflagging) hworker hlobby hrun

theorem Watched.call (h : Watched p) (hidle : p.1.main = .idle) (op : BrowserOp F) :
    Watched (p.1.call op, p.2) := by
  have hflagging : ¬ (p.1.main = .requesting ∨ p.1.main = .waking) := by simp [hidle]
  cases op with
  | refreshServerList => exact h.moves hflagging nofun rfl rfl rfl rfl rfl rfl
  | saveServer name host port fingerprint lastUsername password =>
      exact h.moves hflagging nofun rfl rfl rfl rfl rfl rfl
  | updateServerUsername id username => exact h.moves hflagging nofun rfl rfl rfl rfl rfl rfl
  | deleteServer id => exact h.moves hflagging nofun rfl rfl rfl rfl rfl rfl
  | tick authenticated =>
      rcases authenticated with _ | _
      · rcases hlobby : p.1.lobbyVisible with _ | _
        · exact ⟨h.published, h.stopped, by simp [Browser.call, hlobby], h.exited,
            .flagging (.inr (by simp [Browser.call, hlobby]))⟩
        · refine h.moves hflagging ?_ rfl rfl rfl rfl ?_ rfl <;> simp [Browser.call, hlobby]
      · exact ⟨h.published, h.stopped, by simp [Browser.call], h.exited, .hidden rfl⟩
  | stopQueryThread =>
      simp only [Browser.call]
      split
      · exact ⟨h.published, fun _ => rfl, fun _ => rfl, fun _ => rfl, .ended rfl⟩
      · exact h
  | main => exact h
  | worker timedOut info => exact h

/-- Once the flag is set, the thread is not asleep for long. -/
theorem Watched.requested (h : Watched p) (main : MainPhase) (hmain : main ≠ .stopping) :
    Watched ({ p.1.request with main }, p.2) := by
  obtain ⟨htargets, hstopped, hrun, hworker⟩ := request_keeps p.1
  refine ⟨htargets.symm ▸ h.published, fun hs => hrun.trans (h.stopped (hstopped ▸ hs)),
    fun hs => absurd hs hmain, fun he => hrun.trans (h.exited (hworker.symm.trans he)), ?_⟩
  rcases h.request with hpending | hended
  · exact .flagged hpending
  · exact .ended (hrun.trans hended)

theorem Watched.mainStep (h : Watched p) :
    Watched (p.1.mainStep.1, p.2 ++ p.1.mainStep.2) := by
  rcases hmain : p.1.main with _ | _ | targets | _ | _ | _ | _ | _ | _
  all_goals simp only [Browser.mainStep, hmain, List.append_nil]
  · exact h
  · exact h.moves (by simp [hmain]) nofun rfl rfl rfl rfl rfl rfl
  · refine ⟨?_, h.stopped, nofun, h.exited, .flagging (.inl rfl)⟩
    rw [due_append]
    exact List.Subset.refl _
  · exact h.requested .dirtying nofun
  · exact h.moves (by simp [hmain]) nofun rfl rfl rfl rfl rfl rfl
  · exact h.requested .applying nofun
  · split
    · rw [List.append_nil]
      exact h.moves (by simp [hmain]) nofun rfl rfl rfl rfl rfl rfl
    · rw [List.append_nil]
      exact h.moves (by simp [hmain]) nofun rfl rfl rfl rfl rfl rfl
  · exact h.moves (by simp [hmain]) nofun rfl rfl rfl rfl rfl rfl
  · exact ⟨h.published, fun _ => h.stopping hmain, nofun, h.exited, .ended (h.stopping hmain)⟩

/-- The query thread changes its own phase; what it gives up has to be seen to otherwise. -/
theorem SeenTo.resumes {b b' : Browser F} {left left' : List QueryTarget} (h : b.SeenTo left)
    (hnothing : left = [] → left' = []) (hpending : b.pending = true → b'.SeenTo left')
    (hwoken : b.worker = .woken ∨ b.worker = .reading → b'.SeenTo left')
    (hahead : left ⊆ b.worker.ahead → b'.SeenTo left') (hmain : b'.main = b.main)
    (hlobby : b'.lobbyVisible = b.lobbyVisible) (hrun : b'.queryThreadRun = b.queryThreadRun) :
    b'.SeenTo left' := by
  cases h with
  | nothing h => exact .nothing (hnothing h)
  | flagged h => exact hpending h
  | flagging h => exact .flagging (hmain ▸ h)
  | woken h => exact hwoken h
  | ahead h => exact hahead h
  | hidden h => exact .hidden (hlobby.trans h)
  | ended h => exact .ended (hrun.trans h)

/-- A step on that keeps the targets ahead. -/
theorem Watched.goesOn (h : Watched p) {b : Browser F} {log : List BrowserEvent}
    (hexited : b.worker = .exited → p.1.queryThreadRun = false) (hdue : due log = due p.2)
    (hwoken : ¬ (p.1.worker = .woken ∨ p.1.worker = .reading)) (hahead : p.1.worker.ahead ⊆ b.worker.ahead)
    (hmain : b.main = p.1.main) (htargets : b.queryTargets = p.1.queryTargets)
    (hpending : b.pending = p.1.pending) (hstopped : b.stopped = p.1.stopped)
    (hlobby : b.lobbyVisible = p.1.lobbyVisible)
    (hrun : b.queryThreadRun = p.1.queryThreadRun) : Watched (b, log) := by
  refine ⟨by rw [hdue, htargets]; exact h.published, fun hs => hrun.trans (h.stopped (hstopped ▸ hs)),
    fun hs => hrun.trans (h.stopping (hmain ▸ hs)), fun he => hrun.trans (hexited he), ?_⟩
  rw [hdue]
  exact h.seenTo.resumes id (fun hp => .flagged (hpending.trans hp)) (fun hw => absurd hw hwoken)
    (fun ha => .ahead (List.Subset.trans ha hahead)) hmain hlobby hrun

theorem Watched.workerStep (h : Watched p) (timedOut : Bool)
    (info : Option ServerQuery.ServerQueryInfo) :
    Watched ((p.1.workerStep timedOut info).1, p.2 ++ (p.1.workerStep timedOut info).2) := by
  rcases hworker : p.1.worker with
    _ | _ | _ | _ | (_ | ⟨target, rest⟩) | ⟨target, rest⟩ | ⟨target, answer, rest⟩ | rest | _
  all_goals simp only [Browser.workerStep, hworker, List.append_nil]
  · exact h.goesOn (by simp) rfl (by simp [hworker]) (by simp [hworker, WorkerPhase.ahead])
      rfl rfl rfl rfl rfl rfl
  · split
    · next hstopped =>
      have hended := h.stopped hstopped
      exact ⟨by simpa using h.published, h.stopped, h.stopping, fun _ => hended, .ended hended⟩
    · split
      · exact ⟨by simpa using h.published, h.stopped, h.stopping, nofun, .woken (.inl rfl)⟩
      · simpa using h
  · by_cases hlobby : p.1.lobbyVisible = true
    · exact ⟨h.published, h.stopped, h.stopping, by simp [hlobby],
        .woken (.inr (by simp [hlobby]))⟩
    · exact ⟨h.published, h.stopped, h.stopping, by simp [hlobby],
        .hidden (Bool.eq_false_iff.mpr hlobby)⟩
  · exact ⟨h.published, h.stopped, h.stopping, nofun, .ahead h.published⟩
  · exact h.goesOn nofun rfl (by simp [hworker]) (by simp [hworker, WorkerPhase.ahead])
      rfl rfl rfl rfl rfl rfl
  · have hdue : due (p.2 ++ [.asked target]) = (due p.2).filter (· ≠ target) := due_append _ _
    split
    · refine ⟨?_, h.stopped, h.stopping, nofun, ?_⟩
      · rw [hdue]
        exact fun other hother => h.published (List.mem_of_mem_filter hother)
      · rw [hdue]
        refine h.seenTo.resumes (fun hnone => by simp [hnone]) (fun hp => .flagged hp)
          (by simp [hworker]) (fun ha => .ahead fun other hother => ?_) rfl rfl rfl
        obtain ⟨hmem, hne⟩ := List.mem_filter.mp hother
        have hin := ha hmem
        rw [hworker] at hin
        exact (List.mem_cons.mp hin).resolve_left (by simpa using hne)
    · next hrun =>
      rw [List.append_nil]
      exact ⟨h.published, h.stopped, h.stopping, nofun, .ended (Bool.eq_false_iff.mpr hrun)⟩
  · exact h.goesOn nofun rfl (by simp [hworker]) (by simp [hworker, WorkerPhase.ahead])
      rfl rfl rfl rfl rfl rfl
  · exact h.goesOn nofun (due_append _ _) (by simp [hworker]) (by simp [hworker, WorkerPhase.ahead])
      rfl rfl rfl rfl rfl rfl
  · exact h.goesOn nofun rfl (by simp [hworker]) (by simp [hworker, WorkerPhase.ahead])
      rfl rfl rfl rfl rfl rfl
  · exact h

theorem Watched.step (h : Watched p) (op : BrowserOp F) :
    Watched (Machine.logged Browser.step p op) := by
  rcases step_cases p op with ⟨hidle, hstep⟩ | hstep | hstep | ⟨timedOut, info, hstep⟩
  · rw [hstep]
    exact h.call hidle op
  · rw [hstep]
    exact h
  · rw [hstep]
    exact h.mainStep
  · rw [hstep]
    exact h.workerStep timedOut info

/-- Whoever runs between: somebody sees to every target that is due. -/
theorem run_watched (settings : ConnectionSettings F) (ops : List (BrowserOp F)) :
    Watched (run settings ops) := by
  have hstart : Watched (({ settings, main := .rebuilding } : Browser F), []) :=
    ⟨List.nil_subset _, by simp, by simp, by simp, .nothing rfl⟩
  exact Machine.run_preserves (fun p op h => Watched.step (p := p) h op) hstart ops

/-! ### Left alone -/

/-- The steps a pass takes from here until the thread sleeps again. -/
def passSteps (b : Browser F) : Nat :=
  match b.worker with
  | .top => 1
  | .waiting => 0
  | .woken => 4 + 4 * b.queryTargets.length
  | .reading => 3 + 4 * b.queryTargets.length
  | .querying targets => 2 + 4 * targets.length
  | .asking _ rest => 5 + 4 * rest.length
  | .answered _ _ rest => 4 + 4 * rest.length
  | .stored rest => 3 + 4 * rest.length
  | .exited => 0

/-- The steps until it sleeps without being woken. -/
def steps (b : Browser F) : Nat :=
  b.passSteps + if b.pending then 5 + 4 * b.queryTargets.length else 0

/-- The query thread may ask. -/
def Asks (b : Browser F) : Prop :=
  b.main = .idle ∧ b.lobbyVisible = true ∧ b.queryThreadRun = true

theorem Watched.alone (h : Watched p) (hasks : p.1.Asks)
    (info : Option ServerQuery.ServerQueryInfo) :
    (p.1.workerStep false info).1.Asks ∧ (p.1.workerStep false info).1.steps ≤ p.1.steps - 1 := by
  obtain ⟨hidle, hlobby, hrun⟩ := hasks
  have hstopped : p.1.stopped = false :=
    Bool.eq_false_iff.mpr fun hs => by simp [h.stopped hs] at hrun
  have hexited : p.1.worker ≠ .exited := fun he => by simp [h.exited he] at hrun
  rcases hworker : p.1.worker with
    _ | _ | _ | _ | (_ | ⟨target, rest⟩) | ⟨target, rest⟩ | ⟨target, answer, rest⟩ | rest | _
  · simp [Browser.workerStep, hworker, Asks, steps, passSteps, hidle, hlobby, hrun]
  · rcases hpending : p.1.pending with _ | _
    · simp [Browser.workerStep, hworker, Asks, steps, passSteps, hidle, hlobby, hrun, hstopped,
        hpending]
    · simp [Browser.workerStep, hworker, Asks, steps, passSteps, hidle, hlobby, hrun, hstopped,
        hpending]
  · simp [Browser.workerStep, hworker, Asks, steps, passSteps, hidle, hlobby, hrun]
    omega
  · simp [Browser.workerStep, hworker, Asks, steps, passSteps, hidle, hlobby, hrun]
    omega
  · simp [Browser.workerStep, hworker, Asks, steps, passSteps, hidle, hlobby, hrun]
  · simp [Browser.workerStep, hworker, Asks, steps, passSteps, hidle, hlobby, hrun]
    omega
  · simp [Browser.workerStep, hworker, Asks, steps, passSteps, hidle, hlobby, hrun]
    omega
  · simp [Browser.workerStep, hworker, Asks, steps, passSteps, hidle, hlobby, hrun]
    omega
  · simp [Browser.workerStep, hworker, Asks, steps, passSteps, hidle, hlobby, hrun]
    omega
  · exact absurd hworker hexited

/-- Asleep, with the flag unset, it has asked for everything. -/
theorem Watched.asleep (h : Watched p) (hasks : p.1.Asks) (hsteps : p.1.steps = 0) :
    due p.2 = [] := by
  obtain ⟨hidle, hlobby, hrun⟩ := hasks
  have hpass : p.1.passSteps = 0 := Nat.eq_zero_of_add_eq_zero_right hsteps
  have hwaiting : p.1.worker = .waiting := by
    have hexited : p.1.worker ≠ .exited := fun he => by simp [h.exited he] at hrun
    cases hworker : p.1.worker <;> simp [passSteps, hworker] at hpass hexited ⊢
  cases h.seenTo with
  | nothing h => exact h
  | flagged h => simp [steps, h] at hsteps
  | flagging h => simp [hidle] at h
  | woken h => simp [hwaiting] at h
  | ahead h => exact List.subset_nil.mp (by simpa [hwaiting, WorkerPhase.ahead] using h)
  | hidden h => simp [hlobby] at h
  | ended h => simp [hrun] at h

theorem Watched.asked (h : Watched p) (hasks : p.1.Asks)
    (infos : List (Option ServerQuery.ServerQueryInfo)) (hlong : p.1.steps ≤ infos.length) :
    due (Machine.run (Machine.logged Browser.step) p (infos.map (BrowserOp.worker false))).2 = [] := by
  induction infos generalizing p with
  | nil => exact h.asleep hasks (Nat.le_zero.mp hlong)
  | cons info infos ih =>
      obtain ⟨hasks', hsteps⟩ := h.alone hasks info
      refine ih (h.step (.worker false info)) hasks' ?_
      simp only [List.length_cons] at hlong
      exact hsteps.trans (by omega)

/-- In every state the query thread asks, left alone, for every published target it has not asked
since: it does not wait for its next period. -/
theorem targets_asked (settings : ConnectionSettings F) (ops : List (BrowserOp F))
    (hasks : (run settings ops).1.Asks) (infos : List (Option ServerQuery.ServerQueryInfo))
    (hlong : (run settings ops).1.steps ≤ infos.length) :
    due (run settings (ops ++ infos.map (BrowserOp.worker false))).2 = [] := by
  rw [run, Machine.run_append]
  exact (run_watched settings ops).asked hasks infos hlong

/-- Just published: fourteen steps are enough for two servers. -/
theorem targets_asked_two :
    due (run twoServers ([.main, .main, .main, .main] ++
      (List.replicate 14 none).map (BrowserOp.worker false))).2 = [] :=
  targets_asked twoServers [.main, .main, .main, .main]
    (by simp [run, Machine.run, Machine.logged, Browser.step, Browser.mainStep, Browser.request, Asks])
    (List.replicate 14 none)
    (by simp [run, Machine.run, Machine.logged, Browser.step, Browser.mainStep, Browser.request,
      steps, passSteps, savedByName_twoServers])

end Browser

end Parties.Client.ServerBrowser

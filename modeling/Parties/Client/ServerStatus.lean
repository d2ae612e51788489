import Mathlib.Data.List.Forall2
import Parties.Client.ServerBrowser

/-!
# What the list shows

The query thread stores what a server answers under the id of the target, and the main thread
merges it into the entries of that id. Ids are never given twice, so an id stands for one address;
and a result that is not merged yet is flagged, or about to be. Between the two threads' steps the
list therefore shows, for each saved server, what that server has answered last.
-/

namespace Parties.Client.ServerBrowser

open ServerQuery

variable {F : Type}

/-- The results of the answers stored so far. -/
def resultsOf (log : List BrowserEvent) : Nat → Option QueryResult :=
  log.foldl (fun results event =>
    match event with
    | .stored target info =>
      Function.update results target.id (some (((results target.id).getD {}).record info))
    | _ => results) fun _ => none

/-- The status of an entry is that of the result, and so is its name while the server answers. -/
structure Agrees (r : QueryResult) (e : ServerEntry) : Prop where
  online : e.online = r.online
  locked : e.locked = r.locked
  usersText : e.usersText = usersText r
  name : r.online = true → r.name ≠ [] → e.name = r.name

/-- The entry of a saved server, whatever has been merged into it. -/
structure Entered (log : List BrowserEvent) (s : SavedServer F) (e : ServerEntry) : Prop where
  id : e.id = s.id
  host : e.host = s.host
  port : e.port = s.port
  lastUsername : e.lastUsername = s.lastUsername
  color : e.colorIndex = colorIndex s.name
  initials : e.initials = initialsOf e.name
  /-- The name is the saved one or one the server has told. -/
  name : e.name = s.name ∨
    ∃ t info, .stored t (some info) ∈ log ∧ t.id = s.id ∧ info.serverName = e.name
  unanswered : resultsOf log s.id = none → Agrees {} e

/-- The entry of a saved server with its last answer merged; the answers under its id are those of
its address. -/
structure Shows (log : List BrowserEvent) (s : SavedServer F) (e : ServerEntry) : Prop where
  entered : Entered log s e
  agrees : Agrees ((resultsOf log s.id).getD {}) e
  own : ∀ t info, .stored t info ∈ log → t.id = s.id → t = target s

/-! ### Answers -/

@[simp] theorem resultsOf_published (log : List BrowserEvent) (targets : List QueryTarget) :
    resultsOf (log ++ [.published targets]) = resultsOf log := List.foldl_append

@[simp] theorem resultsOf_asked (log : List BrowserEvent) (target : QueryTarget) :
    resultsOf (log ++ [.asked target]) = resultsOf log := List.foldl_append

theorem resultsOf_stored (log : List BrowserEvent) (target : QueryTarget)
    (info : Option ServerQueryInfo) : resultsOf (log ++ [.stored target info]) =
      Function.update (resultsOf log) target.id
        (some (((resultsOf log target.id).getD {}).record info)) := List.foldl_append

theorem resultsOf_none {log : List BrowserEvent} {event : BrowserEvent} {id : Nat}
    (h : resultsOf (log ++ [event]) id = none) : resultsOf log id = none := by
  cases event with
  | published targets => simpa using h
  | asked target => simpa using h
  | stored target info =>
      rw [resultsOf_stored] at h
      by_cases hid : id = target.id
      · simp [hid] at h
      · rwa [Function.update_of_ne hid] at h

/-- A name comes from an answer. -/
theorem resultsOf_name {log : List BrowserEvent} {id : Nat} {r : QueryResult}
    (h : resultsOf log id = some r) (hname : r.name ≠ []) :
    ∃ t info, .stored t (some info) ∈ log ∧ t.id = id ∧ info.serverName = r.name := by
  induction log using List.reverseRecOn generalizing r with
  | nil => simp [resultsOf] at h
  | append_singleton log event ih =>
      have hbefore : ∀ r', resultsOf log id = some r' → r'.name = r.name →
          ∃ t info, .stored t (some info) ∈ log ++ [event] ∧ t.id = id ∧
            info.serverName = r.name := by
        intro r' hr' hsame
        obtain ⟨t, info, hmem, ht⟩ := ih hr' (hsame ▸ hname)
        exact ⟨t, info, List.mem_append_left _ hmem, hsame ▸ ht⟩
      cases event with
      | published targets => exact hbefore r (by simpa using h) rfl
      | asked target => exact hbefore r (by simpa using h) rfl
      | stored target info =>
          rw [resultsOf_stored] at h
          by_cases hid : id = target.id
          · subst hid
            rw [Function.update_self] at h
            have hr := Option.some.inj h
            cases info with
            | some info => exact ⟨target, info, by simp, rfl, hr ▸ rfl⟩
            | none =>
                cases hr' : resultsOf log target.id with
                | none =>
                    rw [hr'] at hr
                    exact absurd (hr ▸ rfl) hname
                | some r' =>
                    rw [hr'] at hr
                    exact hbefore r' hr' (hr ▸ rfl)
          · rw [Function.update_of_ne hid] at h
            exact hbefore r h rfl

theorem Entered.mono {log : List BrowserEvent} {event : BrowserEvent} {s : SavedServer F}
    {e : ServerEntry} (h : Entered log s e) : Entered (log ++ [event]) s e where
  __ := h
  name := h.name.imp_right fun ⟨t, info, hmem, ht⟩ => ⟨t, info, List.mem_append_left _ hmem, ht⟩
  unanswered hnone := h.unanswered (resultsOf_none hnone)

/-! ### Entries -/

theorem freshEntry_entered (log : List BrowserEvent) (s : SavedServer F) :
    Entered log s (freshEntry s) :=
  ⟨rfl, rfl, rfl, rfl, rfl, rfl, .inl rfl, fun _ => ⟨rfl, rfl, rfl, nofun⟩⟩

theorem merge_none {results : Nat → Option QueryResult} {e : ServerEntry}
    (h : results e.id = none) : merge results e = e := by
  simp [merge, h]

theorem named_name {r : QueryResult} (h : r.named = true) : r.name ≠ [] := by
  simp only [QueryResult.named, Bool.and_eq_true, Bool.not_eq_true', List.isEmpty_eq_false_iff] at h
  exact h.2

theorem initialsFrom_eq {r : QueryResult} {e : ServerEntry} (h : e.initials = initialsOf e.name) :
    initialsFrom r e = initialsOf (nameFrom r e) := by
  unfold initialsFrom nameFrom
  rcases hnamed : r.named with _ | _
  · simpa using h
  · simp [initialsOf, named_name hnamed]

/-- What a merge does to an entry that has a result. -/
theorem merge_some {results : Nat → Option QueryResult} {e : ServerEntry} {r : QueryResult}
    (h : results e.id = some r) (hinitials : e.initials = initialsOf e.name) :
    Agrees r (merge results e) ∧ (merge results e).initials = initialsOf (merge results e).name ∧
      (merge results e).name = nameFrom r e := by
  have hname : r.online = true → r.name ≠ [] → nameFrom r e = r.name := fun honline hsome => by
    simp [nameFrom, QueryResult.named, honline, hsome]
  simp only [merge, h]
  split
  · exact ⟨⟨rfl, rfl, rfl, hname⟩, initialsFrom_eq hinitials, rfl⟩
  · next hsame =>
    simp only [not_or, not_not] at hsame
    obtain ⟨honline, hlocked, husers, hsame⟩ := hsame
    exact ⟨⟨honline, hlocked, husers, fun ho hs => hsame.trans (hname ho hs)⟩, hinitials, hsame⟩

theorem merge_entered {log : List BrowserEvent} {s : SavedServer F} {e : ServerEntry}
    (h : Entered log s e) : Entered log s (merge (resultsOf log) e) := by
  cases hr : resultsOf log e.id with
  | none =>
      rw [merge_none hr]
      exact h
  | some r =>
      obtain ⟨hagrees, hinitials, hname⟩ := merge_some hr h.initials
      have hbase : (merge (resultsOf log) e).id = e.id ∧ (merge (resultsOf log) e).host = e.host ∧
          (merge (resultsOf log) e).port = e.port ∧
          (merge (resultsOf log) e).lastUsername = e.lastUsername ∧
          (merge (resultsOf log) e).colorIndex = e.colorIndex := by
        simp only [merge, hr]
        split
        · exact ⟨rfl, rfl, rfl, rfl, rfl⟩
        · exact ⟨rfl, rfl, rfl, rfl, rfl⟩
      obtain ⟨hid, hhost, hport, husername, hcolor⟩ := hbase
      refine ⟨hid.trans h.id, hhost.trans h.host, hport.trans h.port, husername.trans h.lastUsername,
        hcolor.trans h.color, hinitials, ?_, fun hnone => ?_⟩
      · rw [hname, nameFrom]
        split
        · next hnamed =>
          obtain ⟨t, info, hmem, ht, hinfo⟩ := resultsOf_name hr (named_name hnamed)
          exact .inr ⟨t, info, hmem, ht.trans h.id, hinfo⟩
        · exact h.name
      · rw [← h.id, hr] at hnone
        cases hnone

/-- What is merged is shown. -/
theorem merge_agrees {log : List BrowserEvent} {s : SavedServer F} {e : ServerEntry}
    (h : Entered log s e) :
    Agrees ((resultsOf log s.id).getD {}) (merge (resultsOf log) e) := by
  rw [← h.id]
  cases hr : resultsOf log e.id with
  | none =>
      rw [merge_none hr]
      exact h.unanswered (h.id ▸ hr)
  | some r => exact (merge_some hr h.initials).1

/-! ### The list is up to date -/

/-- The targets in the hands of the main thread. -/
def MainPhase.targets : MainPhase → List QueryTarget
  | .publishing targets => targets
  | _ => []

/-- The targets in the hands of the query thread. -/
def WorkerPhase.targets : WorkerPhase → List QueryTarget
  | .querying targets => targets
  | .asking target rest => target :: rest
  | .answered target _ rest => target :: rest
  | .stored rest => rest
  | _ => []

namespace Browser

/-- The main thread is between no rebuilding and its flag, and in no merge. -/
def Quiet (b : Browser F) : Prop :=
  b.main = .idle ∨ b.main = .waking ∨ b.main = .applying ∨ b.main = .stopping

structure Told (p : Browser F × List BrowserEvent) : Prop where
  results : p.1.queryResults = resultsOf p.2
  entered : p.1.main ≠ .rebuilding →
    List.Forall₂ (Entered p.2) (savedByName p.1.settings) p.1.shown
  /-- Nothing is flagged, so everything is merged. -/
  merged : p.1.queryResultsDirty = false → p.1.Quiet → (∀ rest, p.1.worker ≠ .stored rest) →
    List.Forall₂ (fun s => Agrees ((resultsOf p.2 s.id).getD {})) (savedByName p.1.settings) p.1.shown

variable {p : Browser F × List BrowserEvent}

/-- A step that leaves the list and the table alone, and sets no flag back. -/
theorem Told.moves (h : Told p) {b : Browser F} (hresults : b.queryResults = p.1.queryResults)
    (hsettings : b.settings = p.1.settings) (hshown : b.shown = p.1.shown)
    (hmain : b.main ≠ .rebuilding → p.1.main ≠ .rebuilding)
    (hmerged : b.queryResultsDirty = false → b.Quiet → (∀ rest, b.worker ≠ .stored rest) →
      p.1.queryResultsDirty = false ∧ p.1.Quiet ∧ ∀ rest, p.1.worker ≠ .stored rest) :
    Told (b, p.2) := by
  refine ⟨hresults.trans h.results, fun hm => ?_, fun hd hq hw => ?_⟩
  · rw [hsettings, hshown]
    exact h.entered (hmain hm)
  · obtain ⟨hd', hq', hw'⟩ := hmerged hd hq hw
    rw [hsettings, hshown]
    exact h.merged hd' hq' hw'

theorem Told.call (h : Told p) (hidle : p.1.main = .idle) (op : BrowserOp F) :
    Told (p.1.call op, p.2) := by
  have hquiet : p.1.Quiet := .inl hidle
  -- a call that writes the table begins to rebuild the list
  have hrebuilds : ∀ settings : ConnectionSettings F,
      Told (({ p.1 with settings, main := .rebuilding } : Browser F), p.2) :=
    fun settings => ⟨h.results, fun hm => absurd rfl hm, by simp [Quiet]⟩
  cases op with
  | refreshServerList => exact hrebuilds _
  | saveServer name host port fingerprint lastUsername password => exact hrebuilds _
  | updateServerUsername id username => exact hrebuilds _
  | deleteServer id => exact hrebuilds _
  | tick authenticated =>
      exact h.moves rfl rfl rfl (fun _ => by simp [hidle]) fun hd _ hw => ⟨hd, hquiet, hw⟩
  | stopQueryThread =>
      simp only [Browser.call]
      split
      · exact h.moves rfl rfl rfl (fun _ => by simp [hidle]) fun hd _ hw => ⟨hd, hquiet, hw⟩
      · exact h
  | main => exact h
  | worker timedOut info => exact h

theorem Told.mainStep (h : Told p) : Told (p.1.mainStep.1, p.2 ++ p.1.mainStep.2) := by
  have hrequest : p.1.request.queryResults = p.1.queryResults ∧
      p.1.request.settings = p.1.settings ∧ p.1.request.shown = p.1.shown ∧
      p.1.request.queryResultsDirty = p.1.queryResultsDirty ∧
      p.1.request.worker = p.1.worker := by
    simp only [Browser.request]
    split <;> exact ⟨rfl, rfl, rfl, rfl, rfl⟩
  obtain ⟨hresults, hsettings, hshown, hdirty, hworker⟩ := hrequest
  rcases hmain : p.1.main with _ | _ | targets | _ | _ | _ | _ | _ | _
  all_goals simp only [Browser.mainStep, hmain, List.append_nil]
  · exact h
  · -- rebuilding: nothing has been merged into the new entries
    refine ⟨h.results, fun _ => ?_, by simp [Quiet]⟩
    rw [List.forall₂_map_right_iff, List.forall₂_same]
    exact fun s _ => freshEntry_entered p.2 s
  · refine ⟨by simpa using h.results, fun _ => ?_, by simp [Quiet]⟩
    exact (h.entered (by simp [hmain])).imp fun _ _ he => he.mono
  · exact h.moves hresults hsettings hshown (fun _ => by simp [hmain]) (by simp [Quiet])
  · exact h.moves rfl rfl rfl (fun _ => by simp [hmain]) (by simp)
  · exact h.moves hresults hsettings hshown (fun _ => by simp [hmain]) fun hd _ hw =>
      ⟨hdirty.symm.trans hd, .inr (.inl hmain), fun rest => hworker ▸ hw rest⟩
  · split
    · rw [List.append_nil]
      exact h.moves rfl rfl rfl (fun _ => by simp [hmain]) (by simp [Quiet])
    · rw [List.append_nil]
      exact h.moves rfl rfl rfl (fun _ => by simp [hmain]) fun hd _ hw =>
        ⟨hd, .inr (.inr (.inl hmain)), hw⟩
  · -- merging
    have hentered := h.entered (by simp [hmain])
    refine ⟨h.results, fun _ => ?_, fun _ _ _ => ?_⟩
    · rw [List.forall₂_map_right_iff, h.results]
      exact hentered.imp fun _ _ he => merge_entered he
    · rw [List.forall₂_map_right_iff, h.results]
      exact hentered.imp fun _ _ he => merge_agrees he
  · exact h.moves rfl rfl rfl (fun _ => by simp [hmain]) fun hd _ hw =>
      ⟨hd, .inr (.inr (.inr hmain)), hw⟩

theorem Told.workerStep (h : Told p) (timedOut : Bool) (info : Option ServerQueryInfo) :
    Told ((p.1.workerStep timedOut info).1, p.2 ++ (p.1.workerStep timedOut info).2) := by
  rcases hworker : p.1.worker with
    _ | _ | _ | _ | (_ | ⟨target, rest⟩) | ⟨target, rest⟩ | ⟨target, answer, rest⟩ | rest | _
  all_goals simp only [Browser.workerStep, hworker, List.append_nil]
  · exact h.moves rfl rfl rfl id fun hd hq _ => ⟨hd, hq, by simp [hworker]⟩
  · split
    · rw [List.append_nil]
      exact h.moves rfl rfl rfl id fun hd hq _ => ⟨hd, hq, by simp [hworker]⟩
    · split
      · rw [List.append_nil]
        exact h.moves rfl rfl rfl id fun hd hq _ => ⟨hd, hq, by simp [hworker]⟩
      · simpa using h
  · exact h.moves rfl rfl rfl id fun hd hq _ => ⟨hd, hq, by simp [hworker]⟩
  · exact h.moves rfl rfl rfl id fun hd hq _ => ⟨hd, hq, by simp [hworker]⟩
  · exact h.moves rfl rfl rfl id fun hd hq _ => ⟨hd, hq, by simp [hworker]⟩
  · split
    · refine ⟨by simpa using h.results, fun hm => ?_, fun hd hq _ => ?_⟩
      · exact (h.entered hm).imp fun _ _ he => he.mono
      · simpa using h.merged hd hq (by simp [hworker])
    · rw [List.append_nil]
      exact h.moves rfl rfl rfl id fun hd hq _ => ⟨hd, hq, by simp [hworker]⟩
  · exact h.moves rfl rfl rfl id fun hd hq _ => ⟨hd, hq, by simp [hworker]⟩
  · refine ⟨?_, fun hm => (h.entered hm).imp fun _ _ he => he.mono, by simp⟩
    rw [resultsOf_stored, ← h.results]
  · exact h.moves rfl rfl rfl id (by simp)
  · exact h

theorem Told.step (h : Told p) (op : BrowserOp F) : Told (Machine.logged Browser.step p op) := by
  rcases step_cases p op with ⟨hidle, hstep⟩ | hstep | hstep | ⟨timedOut, info, hstep⟩
  · rw [hstep]
    exact h.call hidle op
  · rw [hstep]
    exact h
  · rw [hstep]
    exact h.mainStep
  · rw [hstep]
    exact h.workerStep timedOut info

/-! ### One address for an id -/

/-- What the ids given so far stand for: every saved server is there, no id still to be given is. -/
structure Holds (address : Nat → Option (Bytes × Nat)) (t : ConnectionSettings F) : Prop where
  fresh : ∀ id, t.nextServerId ≤ id → address id = none
  saved : ∀ s ∈ t.savedServers, address s.id = some (s.host, s.port)

/-- A target goes to the address of its id. -/
def Names (address : Nat → Option (Bytes × Nat)) (t : QueryTarget) : Prop :=
  ∃ port, address t.id = some (t.host, port) ∧ t.port = BitVec.ofNat 16 port

/-- The targets the threads have at hand or have stored an answer of. -/
def Uses (p : Browser F × List BrowserEvent) (t : QueryTarget) : Prop :=
  t ∈ p.1.queryTargets ∨ t ∈ p.1.main.targets ∨ t ∈ p.1.worker.targets ∨
    ∃ info, .stored t info ∈ p.2

theorem holds_saveServer {address : Nat → Option (Bytes × Nat)} {t : ConnectionSettings F}
    (h : Holds address t) (name host : Bytes) (port : Nat) (fingerprint : Option F)
    (lastUsername password : Bytes) :
    ∃ address', (∀ id a, address id = some a → address' id = some a) ∧
      Holds address' (t.saveServer name host port fingerprint lastUsername password) := by
  unfold ConnectionSettings.saveServer
  split
  · refine ⟨address, fun _ _ ha => ha, h.fresh, fun s hs => ?_⟩
    obtain ⟨old, hold, rfl⟩ := List.mem_map.mp hs
    have haddress := h.saved old hold
    unfold ConnectionSettings.resave
    split
    · exact haddress
    · exact haddress
  · have hnew := h.fresh t.nextServerId (le_refl _)
    refine ⟨Function.update address t.nextServerId (some (host, port)), fun id a ha => ?_,
      fun id hid => ?_, fun s hs => ?_⟩
    · rwa [Function.update_of_ne (fun hid => by simp [hid, hnew] at ha)]
    · rw [Function.update_of_ne (Nat.ne_of_gt hid)]
      exact h.fresh id (Nat.le_of_succ_le hid)
    · obtain hold | hadded := List.mem_append.mp hs
      · rw [Function.update_of_ne (Nat.ne_of_lt (t.ids_lt s hold))]
        exact h.saved s hold
      · obtain rfl := List.mem_singleton.mp hadded
        exact Function.update_self ..

theorem holds_updateUsername {address : Nat → Option (Bytes × Nat)} {t : ConnectionSettings F}
    (h : Holds address t) (id : Nat) (username : Bytes) :
    Holds address (updateUsername t id username) := by
  refine ⟨h.fresh, fun s hs => ?_⟩
  obtain ⟨old, hold, rfl⟩ := List.mem_map.mp hs
  have haddress := h.saved old hold
  split
  · exact haddress
  · exact haddress

theorem holds_deleteServer {address : Nat → Option (Bytes × Nat)} {t : ConnectionSettings F}
    (h : Holds address t) (id : Nat) : Holds address (t.deleteServer id) :=
  ⟨h.fresh, fun s hs => h.saved s (List.mem_of_mem_filter hs)⟩

theorem mainStep_uses {t : QueryTarget} (h : Uses (p.1.mainStep.1, p.2 ++ p.1.mainStep.2) t) :
    Uses p t ∨ ∃ s ∈ p.1.settings.savedServers, t = target s := by
  have hrequest : p.1.request.queryTargets = p.1.queryTargets ∧
      p.1.request.worker = p.1.worker := by
    simp only [Browser.request]
    split <;> exact ⟨rfl, rfl⟩
  rcases hmain : p.1.main with _ | _ | targets | _ | _ | _ | _ | _ | _
  all_goals simp only [Browser.mainStep, hmain, List.append_nil] at h
  · exact .inl h
  · simp only [Uses, MainPhase.targets, List.mem_map] at h ⊢
    rcases h with h | ⟨s, hs, rfl⟩ | h | h
    · exact .inl (.inl h)
    · exact .inr ⟨s, (List.mem_mergeSort.mp hs), rfl⟩
    · exact .inl (.inr (.inr (.inl h)))
    · exact .inl (.inr (.inr (.inr h)))
  · simp [Uses, hmain, MainPhase.targets] at h ⊢
    tauto
  · simp [Uses, hmain, hrequest, MainPhase.targets] at h ⊢
    tauto
  · simp [Uses, hmain, MainPhase.targets] at h ⊢
    tauto
  · simp [Uses, hmain, hrequest, MainPhase.targets] at h ⊢
    tauto
  · left
    split at h <;> simpa [Uses, hmain, MainPhase.targets] using h
  · simp [Uses, hmain, MainPhase.targets] at h ⊢
    tauto
  · simp [Uses, hmain, MainPhase.targets] at h ⊢
    tauto

theorem workerStep_uses (timedOut : Bool) (info : Option ServerQueryInfo) {t : QueryTarget}
    (h : Uses ((p.1.workerStep timedOut info).1, p.2 ++ (p.1.workerStep timedOut info).2) t) :
    Uses p t := by
  rcases hworker : p.1.worker with
    _ | _ | _ | _ | (_ | ⟨target, rest⟩) | ⟨target, rest⟩ | ⟨target, answer, rest⟩ | rest | _
  all_goals simp only [Browser.workerStep, hworker, List.append_nil] at h
  · split at h <;> simpa [Uses, hworker, WorkerPhase.targets] using h
  · split at h
    · simpa [Uses, hworker, WorkerPhase.targets] using h
    · split at h <;> simpa [Uses, hworker, WorkerPhase.targets] using h
  · split at h <;> simpa [Uses, hworker, WorkerPhase.targets] using h
  · simp [Uses, hworker, WorkerPhase.targets] at h ⊢
    tauto
  · simpa [Uses, hworker, WorkerPhase.targets] using h
  · split at h
    · simpa [Uses, hworker, WorkerPhase.targets] using h
    · simp [Uses, hworker, WorkerPhase.targets] at h ⊢
      tauto
  · simpa [Uses, hworker, WorkerPhase.targets] using h
  · simp [Uses, hworker, WorkerPhase.targets] at h ⊢
    rcases h with h | h | h | ⟨info, h | ⟨h, -⟩⟩
    · exact .inl h
    · exact .inr (.inl h)
    · exact .inr (.inr (.inl (.inr h)))
    · exact .inr (.inr (.inr ⟨info, h⟩))
    · exact .inr (.inr (.inl (.inl h)))
  · simpa [Uses, hworker, WorkerPhase.targets] using h
  · exact h

theorem call_uses (hidle : p.1.main = .idle) (op : BrowserOp F) {t : QueryTarget}
    (h : Uses (p.1.call op, p.2) t) : Uses p t := by
  cases op with
  | tick authenticated =>
      have hmain : (p.1.call (.tick authenticated)).main.targets = [] := by
        simp only [Browser.call]
        split <;> rfl
      simp only [Uses, hmain] at h
      simpa [Uses, hidle, MainPhase.targets, Browser.call] using h
  | stopQueryThread =>
      simp only [Browser.call] at h
      split at h <;> simpa [Uses, hidle, MainPhase.targets] using h
  | _ => simpa [Uses, hidle, MainPhase.targets, Browser.call] using h

/-- New targets are those of the saved servers. -/
theorem step_uses (op : BrowserOp F) {t : QueryTarget}
    (h : Uses (Machine.logged Browser.step p op) t) :
    Uses p t ∨ ∃ s ∈ p.1.settings.savedServers, t = target s := by
  rcases step_cases p op with ⟨hidle, hstep⟩ | hstep | hstep | ⟨timedOut, info, hstep⟩
  all_goals rw [hstep] at h
  · exact .inl (call_uses hidle op h)
  · exact .inl h
  · exact mainStep_uses h
  · exact .inl (workerStep_uses timedOut info h)

theorem mainStep_settings (b : Browser F) : b.mainStep.1.settings = b.settings := by
  have hrequest : b.request.settings = b.settings := by
    simp only [Browser.request]
    split <;> rfl
  unfold Browser.mainStep
  split <;> first | rfl | exact hrequest | (split <;> rfl)

theorem workerStep_settings (b : Browser F) (timedOut : Bool) (info : Option ServerQueryInfo) :
    (b.workerStep timedOut info).1.settings = b.settings := by
  unfold Browser.workerStep
  split
  case h_2 => split <;> [rfl; (split <;> rfl)]
  case h_6 => split <;> rfl
  all_goals rfl

theorem call_settings (op : BrowserOp F) {address : Nat → Option (Bytes × Nat)}
    (h : Holds address p.1.settings) :
    ∃ address', (∀ id a, address id = some a → address' id = some a) ∧
      Holds address' (p.1.call op).settings := by
  cases op with
  | saveServer name host port fingerprint lastUsername password =>
      exact holds_saveServer h name host port fingerprint lastUsername password
  | updateServerUsername id username =>
      exact ⟨address, fun _ _ ha => ha, holds_updateUsername h id username⟩
  | deleteServer id => exact ⟨address, fun _ _ ha => ha, holds_deleteServer h id⟩
  | stopQueryThread =>
      refine ⟨address, fun _ _ ha => ha, ?_⟩
      simp only [Browser.call]
      split <;> exact h
  | _ => exact ⟨address, fun _ _ ha => ha, h⟩

theorem step_settings (op : BrowserOp F) {address : Nat → Option (Bytes × Nat)}
    (h : Holds address p.1.settings) :
    ∃ address', (∀ id a, address id = some a → address' id = some a) ∧
      Holds address' (Machine.logged Browser.step p op).1.settings := by
  rcases step_cases p op with ⟨-, hstep⟩ | hstep | hstep | ⟨timedOut, info, hstep⟩
  all_goals rw [hstep]
  · exact call_settings op h
  · exact ⟨address, fun _ _ ha => ha, h⟩
  · exact ⟨address, fun _ _ ha => ha, (mainStep_settings p.1).symm ▸ h⟩
  · exact ⟨address, fun _ _ ha => ha, (workerStep_settings p.1 timedOut info).symm ▸ h⟩

/-- Every target goes to the address of its id, and an id keeps its address. -/
def Bound (p : Browser F × List BrowserEvent) : Prop :=
  ∃ address, Holds address p.1.settings ∧ ∀ t, Uses p t → Names address t

theorem Bound.step (h : Bound p) (op : BrowserOp F) : Bound (Machine.logged Browser.step p op) := by
  obtain ⟨address, hholds, hnames⟩ := h
  obtain ⟨address', hextends, hholds'⟩ := step_settings op hholds
  refine ⟨address', hholds', fun t ht => ?_⟩
  rcases step_uses op ht with hused | ⟨s, hs, rfl⟩
  · obtain ⟨port, haddress, hport⟩ := hnames t hused
    exact ⟨port, hextends t.id _ haddress, hport⟩
  · exact ⟨s.port, hextends s.id _ (hholds.saved s hs), rfl⟩

/-- The ids of the table are a primary key. -/
theorem holds_savedServers (t : ConnectionSettings F)
    (hkeys : (t.savedServers.map SavedServer.id).Nodup) :
    Holds (fun id => (t.savedServer id).map fun s => (s.host, s.port)) t := by
  refine ⟨fun id hid => ?_, fun s hs => ?_⟩
  · rw [ConnectionSettings.savedServer, List.find?_eq_none.mpr fun s hs => ?_]
    · rfl
    · simpa using (Nat.lt_of_lt_of_le (t.ids_lt s hs) hid).ne
  · obtain ⟨found, hfound⟩ : ∃ found, t.savedServer s.id = some found := by
      rw [← Option.isSome_iff_exists, ConnectionSettings.savedServer, List.find?_isSome]
      exact ⟨s, hs, by simp⟩
    have hid : found.id = s.id := by simpa using List.find?_some hfound
    obtain rfl := List.inj_on_of_nodup_map hkeys (List.mem_of_find?_eq_some hfound) hs hid
    simp [hfound]

/-- In every run, once the main thread is done with what it was at and no answer is flagged or
about to be, the list shows for each saved server what that server has answered last. -/
theorem status_shown (settings : ConnectionSettings F)
    (hkeys : (settings.savedServers.map SavedServer.id).Nodup) (ops : List (BrowserOp F))
    (hidle : (run settings ops).1.main = .idle)
    (hmerged : (run settings ops).1.queryResultsDirty = false)
    (hstored : ∀ rest, (run settings ops).1.worker ≠ .stored rest) :
    List.Forall₂ (Shows (run settings ops).2) (savedByName (run settings ops).1.settings)
      (run settings ops).1.shown := by
  have htold : Told (run settings ops) :=
    Machine.run_preserves (fun p op h => Told.step (p := p) h op)
      ⟨rfl, by simp, by simp [Quiet]⟩ ops
  have hbound : Bound (run settings ops) := by
    refine Machine.run_preserves (fun p op h => Bound.step (p := p) h op)
      ⟨_, holds_savedServers settings hkeys, fun t ht => ?_⟩ ops
    simp [Uses, MainPhase.targets, WorkerPhase.targets] at ht
  obtain ⟨address, hholds, hnames⟩ := hbound
  have hown : ∀ s ∈ savedByName (run settings ops).1.settings, ∀ t info,
      .stored t info ∈ (run settings ops).2 → t.id = s.id → t = target s := by
    rintro s hs ⟨id, host, port⟩ info hmem rfl
    obtain ⟨savedPort, haddress, hport⟩ := hnames _ (.inr (.inr (.inr ⟨info, hmem⟩)))
    rw [hholds.saved s (List.mem_mergeSort.mp hs)] at haddress
    obtain ⟨rfl, rfl⟩ : s.host = host ∧ s.port = savedPort := by simpa using haddress
    rw [target, ← hport]
  have hentered := htold.entered (by simp [hidle])
  have hagrees := htold.merged hmerged (.inl hidle) hstored
  have hboth := List.Forall₂.mp (fun s e he ha => And.intro he ha) hentered hagrees
  exact ((List.forall₂_and_left _ _).mpr ⟨hown, hboth⟩).imp fun s e ⟨ho, he, ha⟩ => ⟨he, ha, ho⟩

/-- The list is published, both servers are asked, and the answer of the first one and the silence
of the second are merged. -/
def twoAnswers : List (BrowserOp Nat) :=
  [.main, .main, .main, .main] ++
    List.replicate 8 (.worker false (some { serverName := [99], maxUsers := 8 })) ++
    List.replicate 4 (.worker false none) ++ [.tick false, .main, .main]

theorem status_shown_two :
    List.Forall₂ (Shows (run twoServers twoAnswers).2)
      (savedByName (run twoServers twoAnswers).1.settings) (run twoServers twoAnswers).1.shown := by
  refine status_shown twoServers (by decide) twoAnswers ?_ ?_ ?_ <;>
    simp [twoAnswers, run, Machine.run, Machine.logged, Browser.step, Browser.mainStep,
      Browser.request, Browser.workerStep, Browser.call, savedByName_twoServers, target]

end Browser

end Parties.Client.ServerBrowser

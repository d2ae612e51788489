import Mathlib.Data.List.Sort
import Parties.Client.Connection
import Parties.Server.ChatHandlers
import Parties.Server.ServerQuery

/-!
# The list of servers

Mirror of the server list of `AppCore` (`client/src/app_core.cpp`): `refresh_server_list`, the
thread that asks the servers for their status, `apply_query_results`; of `ServerQueryWakeEvent`
(`client/include/client/server_query_wake.h`); and of the callbacks that write the table of
servers. The main thread and the query thread share the targets, the results, the wake event and
two flags; each access to one of them is a step, so that either thread comes between any two of
the other.
-/

namespace Parties.Client.ServerBrowser

open ServerQuery ChatServer

variable {F : Type}

structure QueryTarget where
  id : Nat
  host : Bytes
  port : BitVec 16
deriving DecidableEq, Repr

structure QueryResult where
  online : Bool := false
  cur : BitVec 16 := 0
  max : BitVec 16 := 0
  locked : Bool := false
  name : Bytes := []
deriving DecidableEq, Repr

structure ServerEntry where
  id : Nat
  name : Bytes
  host : Bytes
  port : Nat
  lastUsername : Bytes
  initials : Bytes
  colorIndex : Nat
  online : Bool := false
  usersText : Bytes := []
  locked : Bool := false
deriving DecidableEq, Repr

/-! ### What is shown of a server -/

def initialsOf (name : Bytes) : Bytes :=
  if 2 ≤ name.length then name.take 2
  else if !name.isEmpty then name.take 1
  else [63]

/-- Color index from simple name hash. -/
def colorIndex (name : Bytes) : Nat :=
  (name.foldl (fun (hash : BitVec 32) c => hash * 31 + BitVec.ofNat 32 c.toNat) 0).toNat % 5

/-- An entry of the rebuilt list. -/
def freshEntry (s : SavedServer F) : ServerEntry where
  id := s.id
  name := s.name
  host := s.host
  port := s.port
  lastUsername := s.lastUsername
  initials := initialsOf s.name
  colorIndex := colorIndex s.name

def target (s : SavedServer F) : QueryTarget := ⟨s.id, s.host, BitVec.ofNat 16 s.port⟩

/-- `get_saved_servers`, ordered by name -/
def savedByName (t : ConnectionSettings F) : List (SavedServer F) :=
  t.savedServers.mergeSort fun a b => decide (a.name ≤ b.name)

/-- `update_server_username` -/
def updateUsername (t : ConnectionSettings F) (id : Nat) (username : Bytes) :
    ConnectionSettings F :=
  { t with
    savedServers := t.savedServers.map fun server =>
      if server.id = id then { server with lastUsername := username } else server
    ids_pos := fun server hserver => by
      obtain ⟨old, hold, rfl⟩ := List.mem_map.mp hserver
      have hpos := t.ids_pos old hold
      split <;> exact hpos
    ids_lt := fun server hserver => by
      obtain ⟨old, hold, rfl⟩ := List.mem_map.mp hserver
      have hlt := t.ids_lt old hold
      split <;> exact hlt }

/-- The text of the users of a server that answers. -/
def usersText (r : QueryResult) : Bytes :=
  if r.online then decimal r.cur.toNat ++ [32, 47, 32] ++ decimal r.max.toNat else []

/-- A result after one more query. -/
def QueryResult.record (r : QueryResult) : Option ServerQueryInfo → QueryResult
  | some info =>
    { online := true, cur := info.currentUsers, max := info.maxUsers
      locked := info.passwordLocked, name := info.serverName }
  | none => { r with online := false }

/-- Once online with a non-empty name, the entry goes by it. -/
def QueryResult.named (r : QueryResult) : Bool := r.online && !r.name.isEmpty

def nameFrom (r : QueryResult) (entry : ServerEntry) : Bytes :=
  if r.named then r.name else entry.name

def initialsFrom (r : QueryResult) (entry : ServerEntry) : Bytes :=
  if !r.named then entry.initials
  else if 2 ≤ r.name.length then r.name.take 2
  else r.name.take 1

/-- The body of the loop of `apply_query_results` -/
def merge (results : Nat → Option QueryResult) (entry : ServerEntry) : ServerEntry :=
  match results entry.id with
  | none => entry
  | some r =>
    if entry.online ≠ r.online ∨ entry.locked ≠ r.locked ∨ entry.usersText ≠ usersText r ∨
        entry.name ≠ nameFrom r entry then
      { entry with
        online := r.online
        locked := r.locked
        usersText := usersText r
        name := nameFrom r entry
        initials := initialsFrom r entry }
    else entry

/-! ### The two threads -/

/-- Where the query thread is. -/
inductive WorkerPhase where
  /-- At the condition of its loop. -/
  | top
  | waiting
  /-- Woken, before it looks whether the lobby is visible. -/
  | woken
  /-- It is, and the targets are not copied yet. -/
  | reading
  /-- In front of these targets. -/
  | querying (targets : List QueryTarget)
  /-- In `query_server`. -/
  | asking (target : QueryTarget) (rest : List QueryTarget)
  | answered (target : QueryTarget) (info : Option ServerQueryInfo) (rest : List QueryTarget)
  /-- The result is stored, the flag not yet set. -/
  | stored (rest : List QueryTarget)
  | exited
deriving DecidableEq, Repr

/-- Where the main thread is in one of the calls below. -/
inductive MainPhase where
  | idle
  /-- `refresh_server_list`, from the reading of the table on. -/
  | rebuilding
  | publishing (targets : List QueryTarget)
  | requesting
  | dirtying
  /-- `tick`: the lobby has become visible. -/
  | waking
  /-- `apply_query_results` -/
  | applying
  | merging
  /-- `stop_query_thread` -/
  | stopping
deriving DecidableEq, Repr

structure Browser (F : Type) where
  settings : ConnectionSettings F
  shown : List ServerEntry := []
  queryTargets : List QueryTarget := []
  queryResults : Nat → Option QueryResult := fun _ => none
  queryResultsDirty : Bool := false
  lobbyVisible : Bool := true
  queryThreadRun : Bool := true
  /-- `pending_` and `stopped_` of the wake event. -/
  pending : Bool := false
  stopped : Bool := false
  worker : WorkerPhase := .top
  main : MainPhase := .idle

inductive BrowserEvent where
  /-- The query thread will see these targets from now on. -/
  | published (targets : List QueryTarget)
  /-- A request goes out. -/
  | asked (target : QueryTarget)
  | stored (target : QueryTarget) (info : Option ServerQueryInfo)
deriving DecidableEq, Repr

inductive BrowserOp (F : Type) where
  | refreshServerList
  /-- `save_server`, behind a login or from the form, and the refresh. -/
  | saveServer (name host : Bytes) (port : Nat) (fingerprint : Option F)
      (lastUsername password : Bytes)
  | updateServerUsername (id : Nat) (username : Bytes)
  | deleteServer (id : Nat)
  /-- The part of `tick` about the list. -/
  | tick (authenticated : Bool)
  | stopQueryThread
  /-- The next step of the main thread. -/
  | main
  /-- The next step of the query thread; the answer counts where it waits for one, the timeout
  where it waits to be woken. -/
  | worker (timedOut : Bool) (info : Option ServerQueryInfo)

namespace Browser

/-- A call of the main thread. -/
def call (b : Browser F) : BrowserOp F → Browser F
  | .refreshServerList => { b with main := .rebuilding }
  | .saveServer name host port fingerprint lastUsername password =>
    { b with
      settings := b.settings.saveServer name host port fingerprint lastUsername password
      main := .rebuilding }
  | .updateServerUsername id username =>
    { b with settings := updateUsername b.settings id username, main := .rebuilding }
  | .deleteServer id => { b with settings := b.settings.deleteServer id, main := .rebuilding }
  | .tick authenticated =>
    { b with
      lobbyVisible := !authenticated
      main := if !authenticated && !b.lobbyVisible then .waking else .applying }
  | .stopQueryThread =>
    if b.queryThreadRun then { b with queryThreadRun := false, main := .stopping } else b
  | _ => b

/-- `ServerQueryWakeEvent::request` -/
def request (b : Browser F) : Browser F := if b.stopped then b else { b with pending := true }

def mainStep (b : Browser F) : Browser F × List BrowserEvent :=
  match b.main with
  | .idle => (b, [])
  | .rebuilding =>
    let saved := savedByName b.settings
    ({ b with shown := saved.map freshEntry, main := .publishing (saved.map target) }, [])
  | .publishing targets =>
    ({ b with queryTargets := targets, main := .requesting }, [.published targets])
  | .requesting => ({ b.request with main := .dirtying }, [])
  | .dirtying => ({ b with queryResultsDirty := true, main := .idle }, [])
  | .waking => ({ b.request with main := .applying }, [])
  | .applying =>
    if b.queryResultsDirty then ({ b with queryResultsDirty := false, main := .merging }, [])
    else ({ b with main := .idle }, [])
  | .merging => ({ b with shown := b.shown.map (merge b.queryResults), main := .idle }, [])
  | .stopping => ({ b with stopped := true, main := .idle }, [])

/-- `query_thread_loop` -/
def workerStep (b : Browser F) (timedOut : Bool) (info : Option ServerQueryInfo) :
    Browser F × List BrowserEvent :=
  match b.worker with
  | .top => ({ b with worker := if b.queryThreadRun then .waiting else .exited }, [])
  | .waiting =>
    if b.stopped then ({ b with worker := .exited }, [])
    else if b.pending || timedOut then ({ b with pending := false, worker := .woken }, [])
    else (b, [])
  | .woken => ({ b with worker := if b.lobbyVisible then .reading else .top }, [])
  | .reading => ({ b with worker := .querying b.queryTargets }, [])
  | .querying [] => ({ b with worker := .top }, [])
  | .querying (target :: rest) =>
    if b.queryThreadRun then ({ b with worker := .asking target rest }, [.asked target])
    else ({ b with worker := .top }, [])
  | .asking target rest => ({ b with worker := .answered target info rest }, [])
  | .answered target info rest =>
    ({ b with
        queryResults := Function.update b.queryResults target.id
          (some (((b.queryResults target.id).getD {}).record info))
        worker := .stored rest },
      [.stored target info])
  | .stored rest => ({ b with queryResultsDirty := true, worker := .querying rest }, [])
  | .exited => (b, [])

/-- The main thread begins a call only when it is done with the one before. -/
def step (b : Browser F) (op : BrowserOp F) : Browser F × List BrowserEvent :=
  match op with
  | .main => b.mainStep
  | .worker timedOut info => b.workerStep timedOut info
  | op => if b.main = .idle then (b.call op, []) else (b, [])

/-- What a step can be. -/
theorem step_cases (p : Browser F × List BrowserEvent) (op : BrowserOp F) :
    (p.1.main = .idle ∧ Machine.logged step p op = (p.1.call op, p.2)) ∨
      Machine.logged step p op = p ∨
      Machine.logged step p op = (p.1.mainStep.1, p.2 ++ p.1.mainStep.2) ∨
      ∃ timedOut info, Machine.logged step p op =
        ((p.1.workerStep timedOut info).1, p.2 ++ (p.1.workerStep timedOut info).2) := by
  have hcall : ∀ r, r = (if p.1.main = .idle then (p.1.call op, []) else (p.1, [])) →
      (p.1.main = .idle ∧ (r.1, p.2 ++ r.2) = (p.1.call op, p.2)) ∨ (r.1, p.2 ++ r.2) = p := by
    rintro r rfl
    split
    · next hidle => exact .inl ⟨hidle, by simp⟩
    · exact .inr (by simp)
  cases op with
  | main => exact .inr (.inr (.inl rfl))
  | worker timedOut info => exact .inr (.inr (.inr ⟨timedOut, info, rfl⟩))
  | _ => exact (hcall _ rfl).imp_right .inl

/-- Runs from the start on: the query thread is started, and the list is refreshed for the first
time. -/
def run (settings : ConnectionSettings F) (ops : List (BrowserOp F)) :
    Browser F × List BrowserEvent :=
  Machine.run (Machine.logged step) ({ settings, main := .rebuilding }, []) ops

/-- A table with two servers. -/
def twoServers : ConnectionSettings Nat where
  tofuCerts _ := none
  savedServers := [⟨1, [97], [97], 7800, none, [], []⟩, ⟨2, [98], [98], 7800, none, [], []⟩]
  nextServerId := 3
  resumptionTickets _ := none
  nextServerId_pos := Nat.succ_pos _
  ids_pos := List.forall_mem_cons.mpr ⟨Nat.one_pos, List.forall_mem_singleton.mpr Nat.two_pos⟩
  ids_lt := List.forall_mem_cons.mpr
    ⟨Nat.one_lt_succ_succ 1, List.forall_mem_singleton.mpr (Nat.lt_succ_self 2)⟩

theorem savedByName_twoServers : savedByName twoServers =
    [⟨1, [97], [97], 7800, none, [], []⟩, ⟨2, [98], [98], 7800, none, [], []⟩] :=
  List.mergeSort_of_pairwise (by decide)

end Browser

end Parties.Client.ServerBrowser

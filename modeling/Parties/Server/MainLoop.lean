import Parties.Server.Handlers

/-!
# The main loop

Mirror of the loop of `Server::run` (`server/src/server.cpp`). Each pass handles control
messages, then data packets, then video frames, then disconnects, while the transport
thread goes on. Elsewhere the steps of the server are taken in any order; here they are
taken in the order of the loop, for what depends on it: a pass ends only when all
disconnects it found have been worked off, so that no control message is handled while a
disconnect from before the last video frames is still in the queue.
-/

namespace Parties

inductive Phase where
  | controlMessages
  | dataPackets
  | videoFrames
  | disconnects
deriving DecidableEq, Repr

/-- Where in the pass a step is taken; the steps of the transport thread are taken
anywhere. Frames that come as datagrams are queued like those of the transport thread. -/
def ServerOp.phase : ServerOp → Option Phase
  | .message .. => some .controlMessages
  | .videoControl .. => some .dataPackets
  | .processVideoFrame | .beginPass | .pollIngress _ | .sendDeferred _ => some .videoFrames
  | .processDisconnect => some .disconnects
  | _ => none

structure MainLoop where
  server : Server
  phase : Phase := .controlMessages
  /-- The disconnects this pass has drained from the queue and not worked off yet. -/
  drained : Nat := 0

inductive LoopOp where
  | act (op : ServerOp)
  /-- Go on to the next part of the pass. -/
  | next

namespace MainLoop

def act (l : MainLoop) (op : ServerOp) : MainLoop :=
  match op.phase with
  | none => { l with server := l.server.step op }
  | some .disconnects =>
    match l.phase, l.drained with
    | .disconnects, n + 1 => { l with server := l.server.step op, drained := n }
    | _, _ => l
  | some phase => if phase = l.phase then { l with server := l.server.step op } else l

def next (l : MainLoop) : MainLoop :=
  match l.phase with
  | .controlMessages => { l with phase := .dataPackets }
  | .dataPackets => { l with phase := .videoFrames }
  | .videoFrames =>
    { l with phase := .disconnects, drained := l.server.disconnects.length }
  | .disconnects => if l.drained = 0 then { l with phase := .controlMessages } else l

def step (l : MainLoop) : LoopOp → MainLoop
  | .act op => l.act op
  | .next => l.next

def run (config : Config) (env : Environment) (ops : List LoopOp) : MainLoop :=
  Machine.run step { server := Server.new config env } ops

/-! ### Steps -/

variable {l : MainLoop} {op : ServerOp}

/-- What an action does: nothing, or the step it stands for, in its part of the pass. -/
theorem act_cases (l : MainLoop) (op : ServerOp) :
    l.act op = l ∨
    l.act op = { l with server := l.server.step op } ∧ op ≠ .processDisconnect ∧
      (op.phase = none ∨ op.phase = some l.phase) ∨
    op = .processDisconnect ∧ l.phase = .disconnects ∧ ∃ n, l.drained = n + 1 ∧
      l.act op = { l with server := l.server.step op, drained := n } := by
  have hphase : ∀ phase, op.phase = some phase → op ≠ .processDisconnect → phase ≠ .disconnects →
      l.act op = if phase = l.phase then { l with server := l.server.step op } else l := by
    intro phase hop _ hne
    unfold act
    rw [hop]
    cases phase with
    | disconnects => exact absurd rfl hne
    | _ => rfl
  cases hop : op.phase with
  | none =>
      refine .inr (.inl ⟨?_, ?_, .inl rfl⟩)
      · unfold act
        rw [hop]
      · rintro rfl
        cases hop
  | some phase =>
      by_cases hdisconnect : op = .processDisconnect
      · subst hdisconnect
        unfold act
        simp only [ServerOp.phase]
        split
        next n hphase' hdrained =>
          exact .inr (.inr ⟨trivial, hphase', n, hdrained, rfl⟩)
        · exact .inl rfl
      · have hne : phase ≠ .disconnects := by
          rintro rfl
          cases op <;> simp [ServerOp.phase] at hop hdisconnect
        rw [hphase phase hop hdisconnect hne]
        split
        next hsame =>
          exact .inr (.inl ⟨rfl, hdisconnect, .inr (congrArg some hsame)⟩)
        · exact .inl rfl

theorem server_next (l : MainLoop) : l.next.server = l.server := by
  unfold next
  split
  · rfl
  · rfl
  · rfl
  · split <;> rfl

/-- The server in the loop goes through a run of its own. -/
theorem exists_server_run (config : Config) (env : Environment) (ops : List LoopOp) :
    ∃ serverOps, (run config env ops).server = Server.run config env serverOps := by
  have hstep : ∀ (l : MainLoop) op,
      (∃ serverOps, l.server = Server.run config env serverOps) →
        ∃ serverOps, (l.step op).server = Server.run config env serverOps := by
    rintro l op ⟨serverOps, hserver⟩
    have hact : ∀ op, (l.server.step op) = Server.run config env (serverOps ++ [op]) := by
      intro op
      rw [hserver, Server.run, Server.run, Machine.run_append]
      rfl
    cases op with
    | next => exact ⟨serverOps, (server_next l).trans hserver⟩
    | act op =>
        rcases l.act_cases op with hsame | ⟨hstep, _⟩ | ⟨rfl, _, n, _, hstep⟩
        · exact ⟨serverOps, (congrArg server hsame).trans hserver⟩
        · exact ⟨serverOps ++ [op], (congrArg server hstep).trans (hact op)⟩
        · exact ⟨serverOps ++ [.processDisconnect], (congrArg server hstep).trans (hact .processDisconnect)⟩
  exact Machine.run_preserves hstep ⟨[], rfl⟩ ops

end MainLoop

end Parties

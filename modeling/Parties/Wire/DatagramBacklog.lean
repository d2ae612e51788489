import Mathlib.Data.Int.Order.Basic
import Parties.Lib.Machine

/-!
# The backlog of datagrams

Mirror of `parties/datagram_backlog.h`: whether one more media datagram may be handed to
the transport. Every member is atomic operations on counters, each of which is read and
written on its own; here a call is one step.
-/

namespace Parties.Wire

structure DatagramBacklogLimits where
  maxQueued : Int := 32
  maxDelayUs : Int := 200000
  holdoffUs : Int := 100000
deriving DecidableEq, Repr

structure DatagramSendBacklog where
  limits : DatagramBacklogLimits := {}
  queued : Int := 0
  /-- The last dequeue, or the entry into an empty queue. -/
  lastProgressUs : Int := 0
  /-- The wait of the last datagram written. -/
  lastWaitUs : Int := 0
  holdoffUntilUs : Int := 0
  dropping : Bool := false
  dropped : Nat := 0
deriving DecidableEq, Repr

namespace DatagramSendBacklog

def headWaitUs (b : DatagramSendBacklog) (nowUs : Int) : Int :=
  if b.queued ≤ 0 then 0 else max b.lastWaitUs (nowUs - b.lastProgressUs)

def refuse (b : DatagramSendBacklog) : DatagramSendBacklog × Bool :=
  ({ b with dropped := b.dropped + 1 }, false)

/-- `admit`. -/
def admitDatagram (b : DatagramSendBacklog) (nowUs : Int) : DatagramSendBacklog × Bool :=
  if nowUs < b.holdoffUntilUs then b.refuse
  else if b.queued ≤ 0 then
    -- the first chance after a drop episode belongs to the streams
    if b.dropping && decide (0 < b.limits.holdoffUs) then
      { b with dropping := false, holdoffUntilUs := nowUs + b.limits.holdoffUs }.refuse
    else ({ b with dropping := false }, true)
  else if b.queued < b.limits.maxQueued && decide (b.headWaitUs nowUs < b.limits.maxDelayUs) then
    ({ b with dropping := false }, true)
  else { b with dropping := true }.refuse

def onQueued (b : DatagramSendBacklog) (nowUs : Int) : DatagramSendBacklog :=
  let entered := { b with queued := b.queued + 1 }
  if b.queued ≤ 0 then { entered with lastProgressUs := nowUs, lastWaitUs := 0 } else entered

def leave (b : DatagramSendBacklog) : DatagramSendBacklog :=
  let left := { b with queued := b.queued - 1 }
  if b.queued ≤ 1 then { left with lastWaitUs := 0 } else left

def onSendFailed (b : DatagramSendBacklog) : DatagramSendBacklog := b.leave

/-- A negative wait says that the datagram was not sent. -/
def onDequeued (b : DatagramSendBacklog) (nowUs waitedUs : Int) : DatagramSendBacklog :=
  let progressed := { b with lastProgressUs := nowUs }
  (if 0 ≤ waitedUs then { progressed with lastWaitUs := waitedUs } else progressed).leave

def reset (b : DatagramSendBacklog) : DatagramSendBacklog :=
  { b with
    queued := 0, lastProgressUs := 0, lastWaitUs := 0, holdoffUntilUs := 0, dropping := false }

/-! ### What each of them changes -/

@[simp] theorem queued_onQueued (b : DatagramSendBacklog) (nowUs : Int) :
    (b.onQueued nowUs).queued = b.queued + 1 := by
  unfold onQueued
  dsimp only
  split <;> rfl

@[simp] theorem queued_leave (b : DatagramSendBacklog) : b.leave.queued = b.queued - 1 := by
  unfold leave
  dsimp only
  split <;> rfl

@[simp] theorem queued_onDequeued (b : DatagramSendBacklog) (nowUs waitedUs : Int) :
    (b.onDequeued nowUs waitedUs).queued = b.queued - 1 := by
  unfold onDequeued
  rw [queued_leave]
  split <;> rfl

/-- What decides on a refusal beside the queue. -/
def gate (b : DatagramSendBacklog) : DatagramBacklogLimits × Int × Bool :=
  (b.limits, b.holdoffUntilUs, b.dropping)

@[simp] theorem gate_onQueued (b : DatagramSendBacklog) (nowUs : Int) :
    (b.onQueued nowUs).gate = b.gate := by
  unfold onQueued
  dsimp only
  split <;> rfl

@[simp] theorem gate_leave (b : DatagramSendBacklog) : b.leave.gate = b.gate := by
  unfold leave
  dsimp only
  split <;> rfl

@[simp] theorem gate_onDequeued (b : DatagramSendBacklog) (nowUs waitedUs : Int) :
    (b.onDequeued nowUs waitedUs).gate = b.gate := by
  unfold onDequeued
  rw [gate_leave]
  split <;> rfl

/-- The ways a decision can go: inside the hold-off nothing but the count of drops changes,
    and the hold-off starts where a drop episode ends. -/
theorem admitDatagram_cases (b : DatagramSendBacklog) (nowUs : Int) :
    (nowUs < b.holdoffUntilUs ∧ b.admitDatagram nowUs = ({ b with dropped := b.dropped + 1 }, false)) ∨
      (b.holdoffUntilUs ≤ nowUs ∧ b.queued ≤ 0 ∧ b.dropping = true ∧ 0 < b.limits.holdoffUs ∧
        b.admitDatagram nowUs = ({ b with
          dropping := false, holdoffUntilUs := nowUs + b.limits.holdoffUs
          dropped := b.dropped + 1 }, false)) ∨
      (b.holdoffUntilUs ≤ nowUs ∧ (b.queued ≤ 0 ∨ b.queued < b.limits.maxQueued) ∧
        b.admitDatagram nowUs = ({ b with dropping := false }, true)) ∨
      (b.holdoffUntilUs ≤ nowUs ∧ 0 < b.queued ∧
        b.admitDatagram nowUs = ({ b with dropping := true, dropped := b.dropped + 1 }, false)) := by
  unfold admitDatagram
  by_cases hheld : nowUs < b.holdoffUntilUs
  · exact .inl ⟨hheld, if_pos hheld⟩
  · rw [if_neg hheld]
    right
    have hover := not_lt.mp hheld
    by_cases hempty : b.queued ≤ 0
    · rw [if_pos hempty]
      by_cases hepisode : (b.dropping && decide (0 < b.limits.holdoffUs)) = true
      · rw [if_pos hepisode]
        rw [Bool.and_eq_true, decide_eq_true_eq] at hepisode
        exact .inl ⟨hover, hempty, hepisode.1, hepisode.2, rfl⟩
      · rw [if_neg hepisode]
        exact .inr (.inl ⟨hover, .inl hempty, rfl⟩)
    · rw [if_neg hempty]
      split
      next hroom =>
        rw [Bool.and_eq_true, decide_eq_true_eq] at hroom
        exact .inr (.inl ⟨hover, .inr hroom.1, rfl⟩)
      · exact .inr (.inr ⟨hover, not_le.mp hempty, rfl⟩)

@[simp] theorem queued_admitDatagram (b : DatagramSendBacklog) (nowUs : Int) :
    (b.admitDatagram nowUs).1.queued = b.queued := by
  rcases b.admitDatagram_cases nowUs with ⟨_, h⟩ | ⟨_, _, _, _, h⟩ | ⟨_, _, h⟩ | ⟨_, _, h⟩ <;> rw [h]

@[simp] theorem limits_admitDatagram (b : DatagramSendBacklog) (nowUs : Int) :
    (b.admitDatagram nowUs).1.limits = b.limits := by
  rcases b.admitDatagram_cases nowUs with ⟨_, h⟩ | ⟨_, _, _, _, h⟩ | ⟨_, _, h⟩ | ⟨_, _, h⟩ <;> rw [h]

end DatagramSendBacklog

/-! ### Runs -/

inductive BacklogCall where
  | admitDatagram (nowUs : Int)
  /-- A datagram is handed to the transport. -/
  | onQueued (nowUs : Int)
  /-- An admitted datagram is not sent after all: the session has ended. -/
  | abandon
  | onSendFailed
  | onDequeued (nowUs waitedUs : Int)
  | reset
deriving DecidableEq, Repr

def BacklogCall.time : BacklogCall → Option Int
  | admitDatagram nowUs | onQueued nowUs | onDequeued nowUs _ => some nowUs
  | abandon | onSendFailed | reset => none

/-- A backlog with what its callers know. -/
structure BacklogRun where
  backlog : DatagramSendBacklog
  /-- The datagrams admitted and not queued yet. -/
  admitted : Nat := 0
  /-- The datagrams queued since the last reset that have not left the queue. -/
  inQueue : Nat := 0
  /-- The time of the last call. -/
  lastUs : Int
deriving DecidableEq, Repr

namespace BacklogRun

def start (limits : DatagramBacklogLimits) (sinceUs : Int) : BacklogRun :=
  { backlog := { limits }, lastUs := sinceUs }

def step (s : BacklogRun) (call : BacklogCall) : BacklogRun :=
  let s := { s with lastUs := call.time.getD s.lastUs }
  match call with
  | .admitDatagram nowUs =>
    { s with
      backlog := (s.backlog.admitDatagram nowUs).1
      admitted := if (s.backlog.admitDatagram nowUs).2 then s.admitted + 1 else s.admitted }
  | .onQueued nowUs =>
    { s with
      backlog := s.backlog.onQueued nowUs
      admitted := s.admitted - 1
      inQueue := s.inQueue + 1 }
  | .abandon => { s with admitted := s.admitted - 1 }
  | .onSendFailed => { s with backlog := s.backlog.onSendFailed, inQueue := s.inQueue - 1 }
  | .onDequeued nowUs waitedUs =>
    { s with backlog := s.backlog.onDequeued nowUs waitedUs, inQueue := s.inQueue - 1 }
  | .reset => { s with backlog := s.backlog.reset, inQueue := 0 }

def run (s : BacklogRun) (calls : List BacklogCall) : BacklogRun := Machine.run step s calls

/-- Times do not decrease, and what leaves the queue has entered it. -/
def Sound (s : BacklogRun) (call : BacklogCall) : Prop :=
  (∀ nowUs ∈ call.time, s.lastUs ≤ nowUs) ∧
    match call with
    | .onSendFailed | .onDequeued _ _ => 0 < s.inQueue
    | _ => True

/-- Only admitted datagrams are queued, and at most `n` of them wait for it at a time. -/
def OnlyAdmitted (n : Nat) (s : BacklogRun) : BacklogCall → Prop
  | .admitDatagram _ => s.admitted < n
  | .onQueued _ => 0 < s.admitted
  | _ => True

/-- The calls that leave an empty queue empty. -/
def Idle : BacklogCall → Prop
  | .admitDatagram _ | .abandon | .reset => True
  | _ => False

instance (s : BacklogRun) (call : BacklogCall) : Decidable (s.Sound call) := by
  unfold Sound
  cases call <;> infer_instance

instance (n : Nat) (s : BacklogRun) (call : BacklogCall) : Decidable (s.OnlyAdmitted n call) := by
  unfold OnlyAdmitted
  cases call <;> infer_instance

/-- While the queue stays empty, a refusal is followed by none that comes a hold-off later. -/
def Recovers (s : BacklogRun) : Prop :=
  s.backlog.queued = 0 → ∀ refusedUs, s.lastUs ≤ refusedUs →
    (s.backlog.admitDatagram refusedUs).2 = false →
    ∀ calls, (∀ call ∈ calls, Idle call) →
      Machine.AllSteps step Sound (s.step (.admitDatagram refusedUs)) calls →
      let s' := (s.step (.admitDatagram refusedUs)).run calls
      ∀ nowUs, s'.lastUs ≤ nowUs → refusedUs + s.backlog.limits.holdoffUs ≤ nowUs →
        (s'.backlog.admitDatagram nowUs).2 = true

/-! ### The queue -/

/-- The backlog counts the datagrams in the queue. -/
theorem queued_step {s : BacklogRun} {call : BacklogCall} (h : s.backlog.queued = s.inQueue)
    (hsound : s.Sound call) : (s.step call).backlog.queued = (s.step call).inQueue := by
  cases call with
  | admitDatagram nowUs => simpa [step] using h
  | onQueued nowUs => simp [step, h]
  | abandon => exact h
  | onSendFailed =>
      have hpos : 0 < s.inQueue := hsound.2
      simp only [step, DatagramSendBacklog.onSendFailed, DatagramSendBacklog.queued_leave, h]
      omega
  | onDequeued nowUs waitedUs =>
      have hpos : 0 < s.inQueue := hsound.2
      simp only [step, DatagramSendBacklog.queued_onDequeued, h]
      omega
  | reset => rfl

theorem limits_step (s : BacklogRun) (call : BacklogCall) :
    (s.step call).backlog.limits = s.backlog.limits := by
  have hgate : ∀ b : DatagramSendBacklog, b.gate = s.backlog.gate → b.limits = s.backlog.limits :=
    fun b hb => congrArg Prod.fst hb
  cases call with
  | admitDatagram nowUs => exact s.backlog.limits_admitDatagram nowUs
  | onQueued nowUs => exact hgate _ (s.backlog.gate_onQueued nowUs)
  | abandon => rfl
  | onSendFailed => exact hgate _ s.backlog.gate_leave
  | onDequeued nowUs waitedUs => exact hgate _ (s.backlog.gate_onDequeued nowUs waitedUs)
  | reset => rfl

/-- The datagrams in the queue, and those that will be, find room. -/
structure Bounded (limits : DatagramBacklogLimits) (n : Nat) (s : BacklogRun) : Prop where
  config : s.backlog.limits = limits
  queued : s.backlog.queued = s.inQueue
  admitted : s.admitted ≤ n
  room : s.backlog.queued + s.admitted ≤ limits.maxQueued + n - 1

theorem bounded_step {limits : DatagramBacklogLimits} (hmax : 1 ≤ limits.maxQueued) {n : Nat}
    {s : BacklogRun} {call : BacklogCall} (h : Bounded limits n s) (hsound : s.Sound call)
    (hadmitted : s.OnlyAdmitted n call) : Bounded limits n (s.step call) := by
  have hqueued := queued_step h.queued hsound
  have hlimits := (limits_step s call).trans h.config
  have hroom := h.room
  have hle := h.admitted
  cases call with
  | admitDatagram nowUs =>
      have hlt : s.admitted < n := hadmitted
      refine ⟨hlimits, hqueued, ?_, ?_⟩
      · show (if (s.backlog.admitDatagram nowUs).2 then s.admitted + 1 else s.admitted) ≤ n
        split <;> omega
      · show (s.backlog.admitDatagram nowUs).1.queued +
          ((if (s.backlog.admitDatagram nowUs).2 then s.admitted + 1 else s.admitted : Nat) : Int) ≤ _
        rw [s.backlog.queued_admitDatagram]
        rcases s.backlog.admitDatagram_cases nowUs with
          ⟨_, hadmitted⟩ | ⟨_, _, _, _, hadmitted⟩ | ⟨_, hfree, hadmitted⟩ | ⟨_, _, hadmitted⟩
        · simpa [hadmitted] using hroom
        · simpa [hadmitted] using hroom
        · -- the queue was empty or below the limit
          rw [h.config] at hfree
          simp only [hadmitted, if_true]
          omega
        · simpa [hadmitted] using hroom
  | onQueued nowUs =>
      have hpos : 0 < s.admitted := hadmitted
      refine ⟨hlimits, hqueued, ?_, ?_⟩
      · show s.admitted - 1 ≤ n
        omega
      · show (s.backlog.onQueued nowUs).queued + ((s.admitted - 1 : Nat) : Int) ≤ _
        rw [DatagramSendBacklog.queued_onQueued]
        omega
  | abandon =>
      refine ⟨hlimits, hqueued, ?_, ?_⟩
      · show s.admitted - 1 ≤ n
        omega
      · show s.backlog.queued + ((s.admitted - 1 : Nat) : Int) ≤ _
        omega
  | onSendFailed =>
      refine ⟨hlimits, hqueued, hle, ?_⟩
      show s.backlog.leave.queued + (s.admitted : Int) ≤ _
      rw [DatagramSendBacklog.queued_leave]
      omega
  | onDequeued nowUs waitedUs =>
      refine ⟨hlimits, hqueued, hle, ?_⟩
      show (s.backlog.onDequeued nowUs waitedUs).queued + (s.admitted : Int) ≤ _
      rw [DatagramSendBacklog.queued_onDequeued]
      omega
  | reset =>
      refine ⟨hlimits, hqueued, hle, ?_⟩
      show (0 : Int) + s.admitted ≤ _
      omega

/-! ### The hold-off -/

/-- A hold-off that is running started at most its length ago, and no drop episode has begun
    in it. -/
structure HeldOff (limits : DatagramBacklogLimits) (s : BacklogRun) : Prop where
  config : s.backlog.limits = limits
  time : 0 ≤ s.lastUs
  started : s.backlog.holdoffUntilUs ≤ 0 ∨ s.backlog.holdoffUntilUs ≤ s.lastUs + limits.holdoffUs
  episode : s.backlog.dropping = true → s.backlog.holdoffUntilUs ≤ s.lastUs

/-- A later time and a changed queue leave the hold-off as it is. -/
theorem HeldOff.congr {limits : DatagramBacklogLimits} {s s' : BacklogRun} (h : HeldOff limits s)
    (hgate : s'.backlog.gate = s.backlog.gate) (htime : s.lastUs ≤ s'.lastUs) :
    HeldOff limits s' := by
  rw [DatagramSendBacklog.gate, DatagramSendBacklog.gate, Prod.mk.injEq, Prod.mk.injEq] at hgate
  obtain ⟨hlimits, huntil, hdropping⟩ := hgate
  have hstarted := h.started
  have hpos := h.time
  refine ⟨hlimits.trans h.config, by omega, ?_, fun hep => ?_⟩
  · rw [huntil]
    omega
  · have hepisode := h.episode (hdropping.symm.trans hep)
    rw [huntil]
    omega

theorem heldOff_step {limits : DatagramBacklogLimits} {s : BacklogRun} {call : BacklogCall}
    (h : HeldOff limits s) (hsound : s.Sound call) : HeldOff limits (s.step call) := by
  have hstarted := h.started
  have hpos := h.time
  cases call with
  | admitDatagram nowUs =>
      have hnow : s.lastUs ≤ nowUs := hsound.1 nowUs rfl
      rcases s.backlog.admitDatagram_cases nowUs with
        ⟨hheld, hadmitted⟩ | ⟨_, _, _, _, hadmitted⟩ | ⟨hover, _, hadmitted⟩ | ⟨hover, _, hadmitted⟩
      · apply h.congr
        · show (s.backlog.admitDatagram nowUs).1.gate = _
          rw [hadmitted]
          rfl
        · exact hnow
      · refine ⟨(limits_step s _).trans h.config, by show 0 ≤ nowUs; omega, .inr ?_, fun hep => ?_⟩
        · show (s.backlog.admitDatagram nowUs).1.holdoffUntilUs ≤ nowUs + _
          rw [hadmitted, ← h.config]
        · replace hep : (s.backlog.admitDatagram nowUs).1.dropping = true := hep
          rw [hadmitted] at hep
          cases hep
      · refine ⟨(limits_step s _).trans h.config, by show 0 ≤ nowUs; omega, ?_, fun hep => ?_⟩
        · show (s.backlog.admitDatagram nowUs).1.holdoffUntilUs ≤ 0 ∨
            (s.backlog.admitDatagram nowUs).1.holdoffUntilUs ≤ nowUs + _
          rw [hadmitted]
          show s.backlog.holdoffUntilUs ≤ 0 ∨ s.backlog.holdoffUntilUs ≤ nowUs + _
          omega
        · replace hep : (s.backlog.admitDatagram nowUs).1.dropping = true := hep
          rw [hadmitted] at hep
          cases hep
      · -- a drop episode begins, after the hold-off
        refine ⟨(limits_step s _).trans h.config, by show 0 ≤ nowUs; omega, ?_, fun _ => ?_⟩
        · show (s.backlog.admitDatagram nowUs).1.holdoffUntilUs ≤ 0 ∨
            (s.backlog.admitDatagram nowUs).1.holdoffUntilUs ≤ nowUs + _
          rw [hadmitted]
          show s.backlog.holdoffUntilUs ≤ 0 ∨ s.backlog.holdoffUntilUs ≤ nowUs + _
          omega
        · show (s.backlog.admitDatagram nowUs).1.holdoffUntilUs ≤ nowUs
          rw [hadmitted]
          exact hover
  | onQueued nowUs => exact h.congr (s.backlog.gate_onQueued nowUs) (hsound.1 nowUs rfl)
  | abandon => exact h.congr rfl le_rfl
  | onSendFailed => exact h.congr s.backlog.gate_leave le_rfl
  | onDequeued nowUs waitedUs =>
      exact h.congr (s.backlog.gate_onDequeued nowUs waitedUs) (hsound.1 nowUs rfl)
  | reset => exact ⟨h.config, hpos, .inl le_rfl, fun hep => by cases hep⟩

/-- The queue is empty, and from `untilUs` on nothing is refused. -/
structure Recovering (untilUs : Int) (s : BacklogRun) : Prop where
  time : 0 ≤ s.lastUs
  queued : s.backlog.queued = 0
  dropping : s.backlog.dropping = false
  holdoff : s.backlog.holdoffUntilUs ≤ max 0 untilUs

theorem Recovering.admits {untilUs nowUs : Int} {s : BacklogRun} (h : Recovering untilUs s)
    (hnow : s.lastUs ≤ nowUs) (huntil : untilUs ≤ nowUs) : (s.backlog.admitDatagram nowUs).2 = true := by
  have hpos := h.time
  have hholdoff := h.holdoff
  have hover : ¬ nowUs < s.backlog.holdoffUntilUs := by omega
  rw [DatagramSendBacklog.admitDatagram, if_neg hover, if_pos (le_of_eq h.queued), h.dropping]
  rfl

theorem recovering_step {untilUs : Int} {s : BacklogRun} {call : BacklogCall}
    (h : Recovering untilUs s) (hidle : Idle call) (hsound : s.Sound call) :
    Recovering untilUs (s.step call) := by
  have hpos := h.time
  cases call with
  | admitDatagram nowUs =>
      have hnow : s.lastUs ≤ nowUs := hsound.1 nowUs rfl
      have htime : 0 ≤ (s.step (.admitDatagram nowUs)).lastUs := le_trans hpos hnow
      have hqueued : (s.step (.admitDatagram nowUs)).backlog.queued = 0 :=
        (s.backlog.queued_admitDatagram nowUs).trans h.queued
      have hholdoff := h.holdoff
      refine ⟨htime, hqueued, ?_, ?_⟩
      · show (s.backlog.admitDatagram nowUs).1.dropping = false
        rcases s.backlog.admitDatagram_cases nowUs with
          ⟨_, hadmitted⟩ | ⟨_, _, _, _, hadmitted⟩ | ⟨_, _, hadmitted⟩ | ⟨_, hfull, _⟩
        · rw [hadmitted]
          exact h.dropping
        · rw [hadmitted]
        · rw [hadmitted]
        · exact absurd h.queued (ne_of_gt hfull)
      · show (s.backlog.admitDatagram nowUs).1.holdoffUntilUs ≤ _
        rcases s.backlog.admitDatagram_cases nowUs with
          ⟨_, hadmitted⟩ | ⟨_, _, hepisode, _⟩ | ⟨_, _, hadmitted⟩ | ⟨_, hfull, _⟩
        · rw [hadmitted]
          exact hholdoff
        · rw [h.dropping] at hepisode
          cases hepisode
        · rw [hadmitted]
          exact hholdoff
        · exact absurd h.queued (ne_of_gt hfull)
  | abandon => exact ⟨hpos, h.queued, h.dropping, h.holdoff⟩
  | reset => exact ⟨hpos, rfl, rfl, le_max_left 0 untilUs⟩
  | onQueued | onSendFailed | onDequeued => exact hidle.elim

/-- A refusal on an empty queue belongs to a hold-off, or starts one. -/
theorem HeldOff.refused {limits : DatagramBacklogLimits} {s : BacklogRun} (h : HeldOff limits s)
    (hempty : s.backlog.queued = 0) {refusedUs : Int} (hnow : s.lastUs ≤ refusedUs)
    (hrefused : (s.backlog.admitDatagram refusedUs).2 = false) :
    Recovering (refusedUs + limits.holdoffUs) (s.step (.admitDatagram refusedUs)) := by
  have hpos := h.time
  have hstarted := h.started
  refine ⟨le_trans hpos hnow, (s.backlog.queued_admitDatagram refusedUs).trans hempty, ?_, ?_⟩
  · show (s.backlog.admitDatagram refusedUs).1.dropping = false
    rcases s.backlog.admitDatagram_cases refusedUs with
      ⟨hheld, hadmitted⟩ | ⟨_, _, _, _, hadmitted⟩ | ⟨_, _, hadmitted⟩ | ⟨_, hfull, _⟩
    · rw [hadmitted]
      by_contra hep
      have hepisode := h.episode (Bool.not_eq_false _ |>.mp hep)
      omega
    · rw [hadmitted]
    · rw [hadmitted]
    · exact absurd hempty (ne_of_gt hfull)
  · show (s.backlog.admitDatagram refusedUs).1.holdoffUntilUs ≤ _
    rcases s.backlog.admitDatagram_cases refusedUs with
      ⟨hheld, hadmitted⟩ | ⟨_, _, _, _, hadmitted⟩ | ⟨_, _, hadmitted⟩ | ⟨_, hfull, _⟩
    · rw [hadmitted]
      show s.backlog.holdoffUntilUs ≤ _
      omega
    · rw [hadmitted, h.config]
      exact le_max_right _ _
    · rw [hadmitted] at hrefused
      cases hrefused
    · exact absurd hempty (ne_of_gt hfull)

theorem HeldOff.recovers {limits : DatagramBacklogLimits} {s : BacklogRun} (h : HeldOff limits s) :
    s.Recovers := by
  intro hempty refusedUs hnow hrefused calls hidle hsound s' nowUs hlast huntil
  have hstart := h.refused hempty hnow hrefused
  have hsteps : Machine.AllSteps step (fun s call => Idle call ∧ Sound s call)
      (s.step (.admitDatagram refusedUs)) calls :=
    Machine.allSteps_and.mpr ⟨Machine.allSteps_of_forall fun _ call hmem => hidle call hmem, hsound⟩
  have hstep : ∀ s call, Recovering (refusedUs + limits.holdoffUs) s → Idle call ∧ Sound s call →
      Recovering (refusedUs + limits.holdoffUs) (s.step call) :=
    fun s call hr hc => recovering_step hr hc.1 hc.2
  have hrecovering := Machine.run_invariant hstep hstart hsteps
  rw [h.config] at huntil
  exact hrecovering.admits hlast huntil

/-- At times that are not negative the queue never holds more than the limit allows to the
    senders that ask at the same time, and media is never locked out of an empty queue. -/
theorem never_locked_out {limits : DatagramBacklogLimits} (hmax : 1 ≤ limits.maxQueued)
    {calls : List BacklogCall} (hsound : Machine.AllSteps step Sound (start limits 0) calls) :
    let s := (start limits 0).run calls
    0 ≤ s.backlog.queued ∧
      (∀ n : Nat, Machine.AllSteps step (OnlyAdmitted n) (start limits 0) calls →
        s.backlog.queued ≤ limits.maxQueued + n - 1) ∧
      s.Recovers := by
  intro s
  have hqueued : s.backlog.queued = s.inQueue := by
    have hstep : ∀ (s : BacklogRun) call, s.backlog.queued = s.inQueue → s.Sound call →
        (s.step call).backlog.queued = (s.step call).inQueue := fun _ _ => queued_step
    have hstart : (start limits 0).backlog.queued = (start limits 0).inQueue := rfl
    exact Machine.run_invariant hstep hstart hsound
  refine ⟨by omega, fun n honly => ?_, ?_⟩
  · have hstep : ∀ s call, Bounded limits n s → Sound s call ∧ OnlyAdmitted n s call →
        Bounded limits n (s.step call) := fun _ _ h hc => bounded_step hmax h hc.1 hc.2
    have hstart : Bounded limits n (start limits 0) := by
      refine ⟨rfl, rfl, Nat.zero_le n, ?_⟩
      show (0 : Int) + (0 : Nat) ≤ _
      omega
    have hbounded := Machine.run_invariant hstep hstart (Machine.allSteps_and.mpr ⟨hsound, honly⟩)
    have hroom := hbounded.room
    show (Machine.run step (start limits 0) calls).backlog.queued ≤ _
    omega
  · have hstep : ∀ s call, HeldOff limits s → Sound s call → HeldOff limits (s.step call) :=
      fun _ _ => heldOff_step
    have hstart : HeldOff limits (start limits 0) :=
      ⟨rfl, le_rfl, .inl le_rfl, fun hep => by cases hep⟩
    exact (Machine.run_invariant hstep hstart hsound).recovers

/-- A stalled queue that drains. -/
theorem never_locked_out_stalled :
    let calls := [.admitDatagram 5, .onQueued 5, .admitDatagram 200005, .onDequeued 300000 299995]
    let s := (start {} 0).run calls
    0 ≤ s.backlog.queued ∧
      (∀ n : Nat, Machine.AllSteps step (OnlyAdmitted n) (start {} 0) calls →
        s.backlog.queued ≤ 32 + n - 1) ∧
      s.Recovers :=
  @never_locked_out {} (by decide) _ (by decide)

/-- Two senders are both admitted before one of them queues its datagram. And at a negative
    time a new backlog refuses, hold-off or not. -/
theorem not_never_locked_out :
    (¬ ∀ limits : DatagramBacklogLimits, 1 ≤ limits.maxQueued → ∀ sinceUs calls,
      Machine.AllSteps step Sound (start limits sinceUs) calls →
      ∀ n : Nat, Machine.AllSteps step (OnlyAdmitted n) (start limits sinceUs) calls →
        ((start limits sinceUs).run calls).backlog.queued ≤ limits.maxQueued) ∧
      ¬ ∀ limits : DatagramBacklogLimits, 1 ≤ limits.maxQueued → ∀ sinceUs calls,
        Machine.AllSteps step Sound (start limits sinceUs) calls →
        ((start limits sinceUs).run calls).Recovers := by
  constructor
  · intro hall
    have hle := hall { maxQueued := 1 } (by decide) 0
      [.admitDatagram 0, .admitDatagram 0, .onQueued 0, .onQueued 0] (by decide) 2 (by decide)
    exact absurd hle (by decide)
  · intro hall
    have hadmits := hall {} (by decide) (-1000000) [] trivial rfl (-1000000) (by decide) (by decide)
      [] (fun _ hmem => absurd hmem List.not_mem_nil) trivial (-900000) (by decide) (by decide)
    exact absurd hadmits (by decide)

end BacklogRun

end Parties.Wire

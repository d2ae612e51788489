import Mathlib.Order.MinMax
import Parties.Wire.DatagramBacklog

/-!
# The wait of the oldest datagram

`head_wait_us` against the queue it is an estimate of: the times at which the datagrams in
it were queued. They leave in order, written or canceled. The time since the last progress
is never more than the head has waited. The wait of the last datagram written is that of
another datagram, which may have been queued long before.
-/

namespace Parties.Wire

/-- A datagram that was written. -/
structure Written where
  queuedUs : Int
  writtenUs : Int
deriving DecidableEq, Repr

inductive DatagramEvent where
  | admitDatagram (nowUs : Int)
  | queued (nowUs : Int)
  /-- The oldest datagram leaves the queue, written into a packet or not. -/
  | dequeued (nowUs : Int) (written : Bool)
deriving DecidableEq, Repr

def DatagramEvent.time : DatagramEvent → Int
  | admitDatagram nowUs | queued nowUs | dequeued nowUs _ => nowUs

/-- The backlog and the queue. -/
structure DatagramQueue where
  backlog : DatagramSendBacklog
  /-- When the datagrams in the queue entered it, oldest first. -/
  queue : List Int := []
  /-- The last datagram written since the queue was empty. -/
  written : Option Written := none
  lastUs : Int
deriving DecidableEq, Repr

namespace DatagramQueue

def start (limits : DatagramBacklogLimits) (sinceUs : Int) : DatagramQueue :=
  { backlog := { limits }, lastUs := sinceUs }

def step (s : DatagramQueue) (event : DatagramEvent) : DatagramQueue :=
  let s := { s with lastUs := event.time }
  match event with
  | .admitDatagram nowUs => { s with backlog := (s.backlog.admitDatagram nowUs).1 }
  | .queued nowUs =>
    { s with backlog := s.backlog.onQueued nowUs, queue := s.queue ++ [nowUs] }
  | .dequeued nowUs written =>
    match s.queue with
    | [] => s
    | queuedUs :: rest =>
      { s with
        backlog := s.backlog.onDequeued nowUs (if written then nowUs - queuedUs else -1)
        queue := rest
        written := if rest = [] then none
          else if written then some { queuedUs, writtenUs := nowUs } else s.written }

def run (s : DatagramQueue) (events : List DatagramEvent) : DatagramQueue :=
  Machine.run step s events

/-- The clock does not go back. -/
def Timely (s : DatagramQueue) (event : DatagramEvent) : Prop := s.lastUs ≤ event.time

instance (s : DatagramQueue) (event : DatagramEvent) : Decidable (s.Timely event) :=
  inferInstanceAs (Decidable (_ ≤ _))

/-- What the backlog knows of its queue. -/
structure Estimates (s : DatagramQueue) : Prop where
  queued : s.backlog.queued = s.queue.length
  past : ∀ queuedUs ∈ s.queue, queuedUs ≤ s.lastUs
  /-- The head was there when the queue last made progress. -/
  progress : ∀ head ∈ s.queue.head?, head ≤ s.backlog.lastProgressUs
  progressPast : s.queue ≠ [] → s.backlog.lastProgressUs ≤ s.lastUs
  wait : s.backlog.lastWaitUs = match s.written with
    | none => 0
    | some w => w.writtenUs - w.queuedUs
  empty : s.queue = [] → s.written = none

theorem estimates_start (limits : DatagramBacklogLimits) (sinceUs : Int) :
    (start limits sinceUs).Estimates where
  queued := rfl
  past := by
    intro queuedUs hmem
    cases hmem
  progress := by
    intro head hmem
    cases hmem
  progressPast := fun hne => absurd rfl hne
  wait := rfl
  empty _ := rfl

/-- A call that only decides on an admission. -/
theorem Estimates.admitDatagram {s : DatagramQueue} (h : s.Estimates) {nowUs : Int}
    (hnow : s.lastUs ≤ nowUs) : (s.step (.admitDatagram nowUs)).Estimates := by
  have hsame : (s.backlog.admitDatagram nowUs).1.lastProgressUs = s.backlog.lastProgressUs ∧
      (s.backlog.admitDatagram nowUs).1.lastWaitUs = s.backlog.lastWaitUs := by
    rcases s.backlog.admitDatagram_cases nowUs with ⟨_, h⟩ | ⟨_, _, _, _, h⟩ | ⟨_, _, h⟩ | ⟨_, _, h⟩ <;>
      rw [h] <;> exact ⟨rfl, rfl⟩
  refine ⟨(s.backlog.queued_admitDatagram nowUs).trans h.queued, fun queuedUs hmem => ?_,
    fun head hmem => ?_, fun hne => ?_, hsame.2.trans h.wait, h.empty⟩
  · exact (h.past queuedUs hmem).trans hnow
  · exact (h.progress head hmem).trans_eq hsame.1.symm
  · exact (hsame.1.trans_le (h.progressPast hne)).trans hnow

theorem Estimates.enter {s : DatagramQueue} (h : s.Estimates) {nowUs : Int}
    (hnow : s.lastUs ≤ nowUs) : (s.step (.queued nowUs)).Estimates := by
  have hpast : ∀ queuedUs ∈ s.queue ++ [nowUs], queuedUs ≤ nowUs := by
    intro queuedUs hmem
    rcases List.mem_append.mp hmem with hold | hnew
    · exact (h.past queuedUs hold).trans hnow
    · exact (List.mem_singleton.mp hnew).le
  have hqueued : (s.backlog.onQueued nowUs).queued = (s.queue ++ [nowUs]).length := by
    rw [DatagramSendBacklog.queued_onQueued, h.queued, List.length_append, List.length_singleton]
    rfl
  cases hqueue : s.queue with
  | nil =>
      -- the datagram is the head of a new busy period
      have hempty : s.backlog.queued ≤ 0 := by rw [h.queued, hqueue]; exact le_rfl
      have hnone := h.empty hqueue
      refine ⟨hqueued, hpast, ?_, fun _ => ?_, ?_, fun hnil => ?_⟩
      · intro head hmem
        simp only [step, hqueue, List.nil_append, List.head?_cons, Option.mem_def,
          Option.some.injEq] at hmem
        subst hmem
        simp [step, DatagramSendBacklog.onQueued, hempty]
      · simp [step, DatagramSendBacklog.onQueued, hempty, DatagramEvent.time]
      · simp [step, DatagramSendBacklog.onQueued, hempty, hnone]
      · simp [step] at hnil
  | cons head rest =>
      have hbusy : ¬ s.backlog.queued ≤ 0 := by
        rw [h.queued, hqueue, List.length_cons]
        omega
      have hkept : s.backlog.onQueued nowUs = { s.backlog with queued := s.backlog.queued + 1 } := by
        rw [DatagramSendBacklog.onQueued]
        exact if_neg hbusy
      refine ⟨hqueued, hpast, ?_, fun _ => ?_, ?_, fun hnil => ?_⟩
      · intro head' hmem
        simp only [step, hqueue, List.cons_append, List.head?_cons] at hmem
        show head' ≤ (s.backlog.onQueued nowUs).lastProgressUs
        rw [hkept]
        exact h.progress head' (by rw [hqueue]; exact hmem)
      · show (s.backlog.onQueued nowUs).lastProgressUs ≤ nowUs
        rw [hkept]
        exact (h.progressPast (by rw [hqueue]; exact List.cons_ne_nil _ _)).trans hnow
      · show (s.backlog.onQueued nowUs).lastWaitUs = _
        rw [hkept]
        exact h.wait
      · simp [step] at hnil

theorem Estimates.leave {s : DatagramQueue} (h : s.Estimates) {nowUs : Int}
    (hnow : s.lastUs ≤ nowUs) (written : Bool) : (s.step (.dequeued nowUs written)).Estimates := by
  cases hqueue : s.queue with
  | nil =>
      simp only [step, hqueue]
      refine ⟨by rw [h.queued, hqueue], ?_, ?_, fun hne => absurd rfl hne, h.wait,
        fun _ => h.empty hqueue⟩
      · intro _ hmem
        cases hmem
      · intro _ hmem
        cases hmem
  | cons queuedUs rest =>
      have hentered : queuedUs ≤ nowUs :=
        (h.past queuedUs (by rw [hqueue]; exact List.mem_cons_self)).trans hnow
      have hqueued : s.backlog.queued = rest.length + 1 := by
        rw [h.queued, hqueue, List.length_cons]
        rfl
      have hpast : ∀ entered ∈ rest, entered ≤ nowUs := fun entered hmem =>
        (h.past entered (by rw [hqueue]; exact List.mem_cons_of_mem _ hmem)).trans hnow
      simp only [step, hqueue]
      refine ⟨?_, hpast, ?_, fun _ => ?_, ?_, fun hnil => if_pos hnil⟩
      · rw [DatagramSendBacklog.queued_onDequeued, hqueued]
        exact Int.add_sub_cancel _ 1
      · intro head hmem
        have hprogress : (s.backlog.onDequeued nowUs
            (if written then nowUs - queuedUs else -1)).lastProgressUs = nowUs := by
          unfold DatagramSendBacklog.onDequeued DatagramSendBacklog.leave
          dsimp only
          repeat' split
          all_goals rfl
        exact (hpast head (List.mem_of_mem_head? hmem)).trans_eq hprogress.symm
      · unfold DatagramSendBacklog.onDequeued DatagramSendBacklog.leave
        dsimp only
        repeat' split
        all_goals exact le_rfl
      · cases rest with
        | nil =>
            have hlast : s.backlog.queued ≤ 1 := by
              rw [hqueued]
              exact le_rfl
            unfold DatagramSendBacklog.onDequeued DatagramSendBacklog.leave
            cases written <;> simp [hlast, hentered]
        | cons next rest =>
            have hmore : ¬ s.backlog.queued ≤ 1 := by
              rw [hqueued, List.length_cons]
              omega
            unfold DatagramSendBacklog.onDequeued DatagramSendBacklog.leave
            cases written with
            | true => simp [hmore, hentered]
            | false => simpa [hmore] using h.wait

theorem estimates_step (s : DatagramQueue) (event : DatagramEvent) (h : s.Estimates)
    (htimely : s.Timely event) : (s.step event).Estimates := by
  cases event with
  | admitDatagram nowUs => exact h.admitDatagram htimely
  | queued nowUs => exact h.enter htimely
  | dequeued nowUs written => exact h.leave htimely written

/-- The time since the last progress is a lower bound; the wait of the last datagram written
    is one if that much time has passed. -/
theorem Estimates.headWaitUs_le {s : DatagramQueue} (h : s.Estimates) {nowUs head : Int}
    (hnow : s.lastUs ≤ nowUs) (hhead : head ∈ s.queue.head?) :
    s.backlog.headWaitUs nowUs ≤ nowUs - head ↔
      ∀ w ∈ s.written, head - w.queuedUs ≤ nowUs - w.writtenUs := by
  have hmem := List.mem_of_mem_head? hhead
  have hbusy : ¬ s.backlog.queued ≤ 0 := by
    have hpos := List.length_pos_of_mem hmem
    rw [h.queued]
    omega
  have hprogress := h.progress head hhead
  have hpast := h.past head hmem
  rw [DatagramSendBacklog.headWaitUs, if_neg hbusy, max_le_iff, h.wait]
  cases s.written with
  | none =>
      refine ⟨fun _ w hw => absurd hw (by simp), fun _ => ⟨?_, by omega⟩⟩
      show 0 ≤ nowUs - head
      omega
  | some w =>
      constructor
      · rintro ⟨hwait, _⟩ w' hw
        cases hw
        replace hwait : w.writtenUs - w.queuedUs ≤ nowUs - head := hwait
        omega
      · intro hle
        have hwait := hle w rfl
        refine ⟨?_, by omega⟩
        show w.writtenUs - w.queuedUs ≤ nowUs - head
        omega

/-- After every history `head_wait_us` is 0 if nothing is queued. Otherwise it is a lower
    bound on the wait of the oldest datagram if and only if, when another was written since
    the queue was empty, at least as much time has passed since then as lay between the two
    being queued. -/
theorem headWaitUs_le_iff (limits : DatagramBacklogLimits) (sinceUs : Int)
    {events : List DatagramEvent} (htimely : Machine.AllSteps step Timely (start limits sinceUs) events)
    {nowUs : Int} (hnow : ((start limits sinceUs).run events).lastUs ≤ nowUs) :
    let s := (start limits sinceUs).run events
    (s.queue = [] → s.backlog.headWaitUs nowUs = 0) ∧
      ∀ head ∈ s.queue.head?,
        (s.backlog.headWaitUs nowUs ≤ nowUs - head ↔
          ∀ w ∈ s.written, head - w.queuedUs ≤ nowUs - w.writtenUs) := by
  intro s
  have hestimates : s.Estimates :=
    Machine.run_invariant estimates_step (estimates_start limits sinceUs) htimely
  refine ⟨fun hempty => ?_, fun head hhead => hestimates.headWaitUs_le hnow hhead⟩
  have hqueued := hestimates.queued
  rw [hempty] at hqueued
  rw [DatagramSendBacklog.headWaitUs, hqueued]
  rfl

/-- Two datagrams 90 ms apart; the first is written after 100 ms. -/
def lateArrival : List DatagramEvent := [.queued 0, .queued 90000, .dequeued 100000 true]

/-- The second one has waited for 10 ms, not for 100. -/
theorem not_headWaitUs_le : ¬ ∀ (limits : DatagramBacklogLimits) (sinceUs : Int)
    (events : List DatagramEvent), Machine.AllSteps step Timely (start limits sinceUs) events →
    ∀ nowUs, ((start limits sinceUs).run events).lastUs ≤ nowUs →
    ∀ head ∈ ((start limits sinceUs).run events).queue.head?,
      ((start limits sinceUs).run events).backlog.headWaitUs nowUs ≤ nowUs - head := by
  intro hall
  have hle := hall {} 0 lateArrival (by decide) 100000 (by decide) 90000 (by decide)
  exact absurd hle (by decide)

theorem headWaitUs_le_iff_lateArrival :
    let s := (start {} 0).run lateArrival
    (s.queue = [] → s.backlog.headWaitUs 190000 = 0) ∧
      ∀ head ∈ s.queue.head?,
        (s.backlog.headWaitUs 190000 ≤ 190000 - head ↔
          ∀ w ∈ s.written, head - w.queuedUs ≤ 190000 - w.writtenUs) :=
  headWaitUs_le_iff {} 0 (by decide) (by decide)

end DatagramQueue

end Parties.Wire

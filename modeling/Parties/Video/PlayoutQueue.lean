import Parties.Video.PlayoutShift
import Parties.Video.RouterIsolation

/-!
# The playout queue of a stream

With playout enabled the frames a reorder buffer releases wait in the queue of their
stream. The playout thread takes them from the front and hands them out in batches, so
their order is that of their release. A frame may be due before one in front of it. It
still leaves by the maximal delay behind its release, as every frame in front of it was
released no later and is due by then.
-/

namespace Parties.Video

/-- A frame that the reorder buffer released. -/
structure Release (φ : Type) where
  arrivalUs : Int
  hdr : VideoFrameHeader
  frame : φ
deriving DecidableEq

def Release.handed {φ : Type} (x : Release φ) : VideoFrameHeader × φ := (x.hdr, x.frame)

namespace VideoReceiveRouter

variable {φ : Type}

/-- The time of a call in which a buffer may release frames. -/
def callUs : RouterOp φ → Int
  | .onFrame _ _ nowUs => nowUs
  | .onFrameAborted _ _ nowUs => nowUs
  | .tick nowUs _ _ => nowUs
  | _ => 0

variable [FrameBytes φ]

/-- What the buffer of `stream` releases in a call. -/
def releases (stream : StreamId) (r : VideoReceiveRouter φ) (op : RouterOp φ) :
    List (Release φ) :=
  (bufferRun (bufferOf stream r) (bufferOps stream op)).2.map fun x => ⟨callUs op, x.1, x.2⟩

/-- What the buffer of `stream` releases in a run, oldest first. -/
def releaseLog (stream : StreamId) : VideoReceiveRouter φ → List (RouterOp φ) → List (Release φ)
  | _, [] => []
  | r, op :: ops => releases stream r op ++ releaseLog stream (r.step op).1 ops

variable {stream : StreamId}

/-! ### Order -/

theorem releases_handed (r : VideoReceiveRouter φ) (op : RouterOp φ) :
    (releases stream r op).map Release.handed =
      (bufferRun (bufferOf stream r) (bufferOps stream op)).2 := by
  rw [releases, List.map_map]
  exact List.map_id _

theorem releaseLog_append (r : VideoReceiveRouter φ) (xs ys : List (RouterOp φ)) :
    releaseLog stream r (xs ++ ys) =
      releaseLog stream r xs ++ releaseLog stream (r.run xs).1 ys := by
  induction xs generalizing r with
  | nil => rfl
  | cons x xs ih => rw [List.cons_append, releaseLog, releaseLog, ih, run_cons, List.append_assoc]

/-- Unless it closes the stream, a call moves frames along the flow and puts what the
    buffer releases at its end. -/
theorem step_flow {r : VideoReceiveRouter φ} (hplayout : r.cfg.playout = true) {op : RouterOp φ}
    (hopen : ¬ Closes stream op) :
    deliveredTo stream (r.step op).2 ++ flow stream (r.step op).1 =
      flow stream r ++ (releases stream r op).map Release.handed := by
  rw [releases_handed]
  by_cases hreopen : ∃ nowUs, op = .openStream stream nowUs
  · obtain ⟨nowUs, rfl⟩ := hreopen
    have hnone : (bufferRun (bufferOf stream r)
        (bufferOps stream (.openStream stream nowUs : RouterOp φ))).2 = [] := by
      cases bufferOf stream r with
      | none => rfl
      | some b => rfl
    rw [hnone, List.append_nil]
    rfl
  · rcases step_serves hplayout fun nowUs heq => hreopen ⟨nowUs, heq⟩ with hserves | ⟨hcloses, _⟩
    · exact hserves.flow
    · exact absurd hcloses hopen

/-- While the stream is not closed, its frames are handed on in the order of their
    release. -/
theorem run_flow {r : VideoReceiveRouter φ} (hplayout : r.cfg.playout = true)
    {ops : List (RouterOp φ)} (hopen : ∀ op ∈ ops, ¬ Closes stream op) :
    deliveredTo stream (r.run ops).2 ++ flow stream (r.run ops).1 =
      flow stream r ++ (releaseLog stream r ops).map Release.handed := by
  induction ops generalizing r with
  | nil => exact (List.append_nil _).symm
  | cons op ops ih =>
      have hstep := step_flow hplayout (hopen op List.mem_cons_self)
      have hrest := ih (step_playout hplayout op) fun op' hop' => hopen op' (List.mem_cons_of_mem _ hop')
      rw [run_cons, deliveredTo_append, List.append_assoc, hrest, ← List.append_assoc, hstep,
        releaseLog, List.map_append, List.append_assoc]

/-! ### The queue -/

/-- A queued frame is due by the maximal delay behind its release. -/
structure DueBy (delayUs : Int) (x : Release φ) (p : Pending φ) : Prop where
  hdr : p.hdr = x.hdr
  frame : p.frame = x.frame
  atUs : p.atUs ≤ x.arrivalUs + delayUs

/-- The clock of the stream is set up as the router says. -/
def ClockSet (stream : StreamId) (r : VideoReceiveRouter φ) : Prop :=
  ∀ st, r.streams stream = some st → st.clock.cfg = r.cfg.playoutClock

def maxDelayUs (r : VideoReceiveRouter φ) : Int := r.cfg.playoutClock.maxDelayMs * 1000

/-- Calls at `nowUs` put what `ops` release at the end of the queue of the stream. -/
structure Queues (stream : StreamId) (nowUs : Int) (ops : List (ReorderOp φ))
    (r r' : VideoReceiveRouter φ) : Prop where
  config : r'.cfg = r.cfg
  buffer : bufferOf stream r' = (bufferRun (bufferOf stream r) ops).1
  clock : ClockSet stream r → ClockSet stream r'
  queue : ClockSet stream r → ∃ added, r'.pending stream = r.pending stream ++ added ∧
    List.Forall₂ (DueBy r.maxDelayUs)
      ((bufferRun (bufferOf stream r) ops).2.map fun x => ⟨nowUs, x.1, x.2⟩) added

/-- The callbacks of one call of the buffer of `s` put `queued` at the end of its queue. -/
structure Pushes (s : StreamId) (r : VideoReceiveRouter φ) (st : StreamState φ)
    (released : List (Release φ))
    (out : VideoReceiveRouter φ × StreamState φ × List (RouterEvent φ)) : Prop where
  config : out.1.cfg = r.cfg
  streams : out.1.streams = r.streams
  clock : out.2.1.clock.cfg = st.clock.cfg
  queue : ∃ queued, out.1.pending = Function.update r.pending s (r.pending s ++ queued) ∧
    List.Forall₂ (DueBy (st.clock.cfg.maxDelayMs * 1000)) released queued

omit [FrameBytes φ] in
theorem onDeliver_pushes {r : VideoReceiveRouter φ} (hplayout : r.cfg.playout = true)
    (s : StreamId) (st : StreamState φ) (hdr : VideoFrameHeader) (frame : φ) (nowUs : Int) :
    Pushes s r st [⟨nowUs, hdr, frame⟩] (r.onDeliver s st hdr frame nowUs) := by
  obtain ⟨pacing, hpacing⟩ := keyframeArrived_frame r s
  have hbounds := (VideoPlayoutClock.playoutTime_bounds (c := st.clock) hdr nowUs).2
  have hclock := VideoPlayoutClock.playoutTime_cfg (c := st.clock) hdr nowUs
  have harrived : ∃ pacing', (if hdr.keyframe then r.keyframeArrived s else r) =
      { r with pacing := pacing' } := by
    cases hdr.keyframe with
    | false => exact ⟨r.pacing, rfl⟩
    | true => exact ⟨pacing, hpacing⟩
  obtain ⟨pacing', hstate⟩ := harrived
  rw [onDeliver]
  dsimp only
  rw [hstate, hplayout]
  generalize st.clock.playoutTime hdr nowUs = played at hbounds hclock ⊢
  obtain ⟨clock, atUs⟩ := played
  refine ⟨rfl, rfl, hclock, [⟨atUs, hdr, frame⟩], rfl, ?_⟩
  exact .cons ⟨rfl, rfl, hbounds⟩ .nil

omit [FrameBytes φ] in
theorem onBufferEvents_pushes (s : StreamId) (nowUs : Int) (events : List (ReorderEvent φ))
    (r : VideoReceiveRouter φ) (st : StreamState φ) (hplayout : r.cfg.playout = true) :
    Pushes s r st ((deliveredFrames events).map fun x => ⟨nowUs, x.1, x.2⟩)
      (onBufferEvents s nowUs r st events) := by
  induction events generalizing r st with
  | nil => exact ⟨rfl, rfl, rfl, [], by simp [onBufferEvents], .nil⟩
  | cons event events ih =>
      cases event with
      | deliver hdr frame =>
          have hpush := onDeliver_pushes hplayout s st hdr frame nowUs
          obtain ⟨queued, hqueued, hdue⟩ := hpush.queue
          have hrest := ih (r.onDeliver s st hdr frame nowUs).1
            (r.onDeliver s st hdr frame nowUs).2.1 (by rw [hpush.config]; exact hplayout)
          obtain ⟨more, hmore, hmoreDue⟩ := hrest.queue
          refine ⟨hrest.config.trans hpush.config, hrest.streams.trans hpush.streams,
            hrest.clock.trans hpush.clock, queued ++ more, ?_, ?_⟩
          · rw [onBufferEvents]
            dsimp only
            rw [hmore, hqueued]
            simp
          · rw [hpush.clock] at hmoreDue
            exact List.rel_append hdue hmoreDue
      | lost first =>
          obtain ⟨pacing, stats, hrequest, _⟩ := requestKeyframe_frame r s nowUs
          have hrest := ih (r.requestKeyframe s nowUs).1 st (by rw [hrequest]; exact hplayout)
          obtain ⟨more, hmore, hmoreDue⟩ := hrest.queue
          have hconfig : (r.requestKeyframe s nowUs).1.cfg = r.cfg := by rw [hrequest]
          have hstreams : (r.requestKeyframe s nowUs).1.streams = r.streams := by rw [hrequest]
          have hpending : (r.requestKeyframe s nowUs).1.pending = r.pending := by rw [hrequest]
          rw [hpending] at hmore
          exact ⟨hrest.config.trans hconfig, hrest.streams.trans hstreams, hrest.clock, more, hmore,
            hmoreDue⟩

theorem Queues.trans {nowUs : Int} {xs ys : List (ReorderOp φ)} {r r' r'' : VideoReceiveRouter φ}
    (h : Queues stream nowUs xs r r') (h' : Queues stream nowUs ys r' r'') :
    Queues stream nowUs (xs ++ ys) r r'' := by
  have hruns : bufferRun (bufferOf stream r) (xs ++ ys) =
      ((bufferRun (bufferRun (bufferOf stream r) xs).1 ys).1,
        (bufferRun (bufferOf stream r) xs).2 ++
          (bufferRun (bufferRun (bufferOf stream r) xs).1 ys).2) := by
    cases bufferOf stream r with
    | none => rfl
    | some b => simp [bufferRun, VideoFrameReorderBuffer.run_append]
  have hbuffer' := h'.buffer
  rw [h.buffer] at hbuffer'
  refine ⟨h'.config.trans h.config, ?_, fun hset => h'.clock (h.clock hset), fun hset => ?_⟩
  · rw [hruns]
    exact hbuffer'
  · obtain ⟨added, hadded, hdue⟩ := h.queue hset
    obtain ⟨more, hmore, hmoreDue⟩ := h'.queue (h.clock hset)
    refine ⟨added ++ more, ?_, ?_⟩
    · rw [hmore, hadded, List.append_assoc]
    · have hdelay : r'.maxDelayUs = r.maxDelayUs := by rw [maxDelayUs, maxDelayUs, h.config]
      rw [hruns, List.map_append]
      rw [h.buffer, hdelay] at hmoreDue
      exact List.rel_append hdue hmoreDue

/-- Calls that leave the stream alone. -/
theorem queues_nil {r r' : VideoReceiveRouter φ} (hconfig : r'.cfg = r.cfg)
    (hstream : r'.streams stream = r.streams stream)
    (hpending : r'.pending stream = r.pending stream) (nowUs : Int) :
    Queues stream nowUs [] r r' := by
  have hnone : ∀ b : Option (VideoFrameReorderBuffer φ), bufferRun b [] = (b, []) := by
    intro b
    cases b with
    | none => rfl
    | some b => rfl
  refine ⟨hconfig, ?_, fun hset st hst => ?_, fun _ => ⟨[], ?_, ?_⟩⟩
  · rw [hnone, bufferOf, bufferOf, hstream]
  · rw [hconfig]
    exact hset st (hstream.symm.trans hst)
  · rw [hpending, List.append_nil]
  · rw [hnone]
    exact .nil

theorem requestKeyframe_queues (r : VideoReceiveRouter φ) (s : StreamId) (nowUs atUs : Int) :
    Queues stream atUs [] r (r.requestKeyframe s nowUs).1 := by
  obtain ⟨pacing, stats, hrequest, _⟩ := requestKeyframe_frame r s nowUs
  apply queues_nil
  · rw [hrequest]
  · rw [hrequest]
  · rw [hrequest]

theorem putStream_queues {r : VideoReceiveRouter φ} (hplayout : r.cfg.playout = true)
    {s : StreamId} {st : StreamState φ} (hst : r.streams s = some st) (op : ReorderOp φ)
    (nowUs : Int) :
    Queues stream nowUs (if s = stream then [op] else []) r
      (r.putStream s st (st.buffer.step op) nowUs).1 := by
  have hpush := onBufferEvents_pushes s nowUs (st.buffer.step op).2 r
    { st with buffer := (st.buffer.step op).1 } hplayout
  have hserves := @putStream_serves φ _ stream r hplayout s st hst op nowUs
  obtain ⟨queued, hqueued, hdue⟩ := hpush.queue
  by_cases hs : s = stream
  · subst hs
    rw [if_pos rfl] at hserves ⊢
    refine ⟨hpush.config, hserves.buffer, fun hset st' hst' => ?_, fun hset => ⟨queued, ?_, ?_⟩⟩
    · have hput : (r.putStream s st (st.buffer.step op) nowUs).1.streams s =
          some (onBufferEvents s nowUs r { st with buffer := (st.buffer.step op).1 }
            (st.buffer.step op).2).2.1 := Function.update_self ..
      obtain rfl := Option.some.inj (hput.symm.trans hst')
      have hconfig : (r.putStream s st (st.buffer.step op) nowUs).1.cfg = r.cfg := hpush.config
      rw [hconfig]
      exact hpush.clock.trans (hset st hst)
    · exact (congrFun hqueued s).trans (Function.update_self ..)
    · have hrun : (bufferRun (bufferOf s r) [op]).2 = deliveredFrames (st.buffer.step op).2 := by
        simp [bufferOf, bufferRun, hst, VideoFrameReorderBuffer.run_cons]
      have hdelay : (st.clock.cfg.maxDelayMs * 1000 : Int) = r.maxDelayUs := by
        rw [hset st hst]
        rfl
      rw [hrun, ← hdelay]
      exact hdue
  · rw [if_neg hs]
    apply queues_nil
    · exact hpush.config
    · have hother : (r.putStream s st (st.buffer.step op) nowUs).1.streams stream =
          (onBufferEvents s nowUs r { st with buffer := (st.buffer.step op).1 }
            (st.buffer.step op).2).1.streams stream := Function.update_of_ne (Ne.symm hs) _ _
      rw [hother, hpush.streams]
    · exact (congrFun hqueued stream).trans (Function.update_of_ne (Ne.symm hs) _ _)

theorem unopened_queues {r : VideoReceiveRouter φ} {s : StreamId} (hst : r.streams s = none)
    (op : ReorderOp φ) (nowUs : Int) :
    Queues stream nowUs (if s = stream then [op] else []) r r := by
  by_cases hs : s = stream
  · subst hs
    have hbuffer : bufferOf s r = none := by rw [bufferOf, hst, Option.map_none]
    refine ⟨rfl, ?_, fun hset => hset, fun _ => ⟨[], (List.append_nil _).symm, ?_⟩⟩
    · rw [hbuffer]
      rfl
    · rw [hbuffer]
      exact .nil
  · rw [if_neg hs]
    exact queues_nil rfl rfl rfl nowUs

theorem pollStreams_queues (nowUs : Int) (order : List StreamId) (r : VideoReceiveRouter φ)
    (hplayout : r.cfg.playout = true) :
    Queues stream nowUs ((order.filter fun s => decide (s = stream)).map fun _ => .poll nowUs) r
      (pollStreams nowUs r order).1 := by
  induction order generalizing r with
  | nil => exact queues_nil rfl rfl rfl nowUs
  | cons s order ih =>
      rw [polls_cons, pollStreams]
      cases hst : r.streams s with
      | none => exact (unopened_queues hst _ nowUs).trans (ih r hplayout)
      | some st =>
          have hput : Queues stream nowUs _ r (r.putStream s st (st.buffer.poll nowUs) nowUs).1 :=
            putStream_queues hplayout hst (.poll nowUs) nowUs
          exact hput.trans (ih _ (by rw [hput.config]; exact hplayout))

theorem requestMissing_queues (nowUs atUs : Int) (needs : StreamId → Bool)
    (candidates : List Candidate) (r : VideoReceiveRouter φ) :
    Queues stream atUs [] r (requestMissing nowUs needs r candidates).1 := by
  induction candidates generalizing r with
  | nil => exact queues_nil rfl rfl rfl atUs
  | cons c candidates ih =>
      simp only [requestMissing]
      by_cases hwants : (c.wants || (!c.keyArriving && needs c.stream)) = true
      · rw [if_pos hwants]
        exact (requestKeyframe_queues r c.stream nowUs atUs).trans (ih _)
      · rw [if_neg hwants]
        exact ih r

/-- A call that neither opens nor closes the stream nor collects. -/
theorem step_queues {r : VideoReceiveRouter φ} (hplayout : r.cfg.playout = true)
    {op : RouterOp φ} (hopen : ∀ nowUs, op ≠ .openStream stream nowUs)
    (hclose : ¬ Closes stream op) (hcollect : ∀ nowUs order, op ≠ .collect nowUs order) :
    Queues stream (callUs op) (bufferOps stream op) r (r.step op).1 := by
  cases op with
  | openStream s nowUs =>
      have hs : stream ≠ s := fun heq => hopen nowUs (by rw [heq])
      apply queues_nil
      · rfl
      · exact Function.update_of_ne hs _ _
      · rfl
  | close s =>
      have hs : stream ≠ s := fun heq => hclose heq.symm
      apply queues_nil
      · rfl
      · exact Function.update_of_ne hs _ _
      · exact Function.update_of_ne hs _ _
  | closeAll => exact absurd trivial hclose
  | setRtt rttUs =>
      have hserves : Serves stream _ r (r.step (.setRtt rttUs)) :=
        (step_serves hplayout hopen).resolve_right fun h => hclose h.1
      refine ⟨rfl, hserves.buffer, fun hset st' hst' => ?_, fun _ => ⟨[], ?_, ?_⟩⟩
      · obtain ⟨st, hst, rfl⟩ := Option.map_eq_some_iff.mp hst'
        exact hset st hst
      · exact (List.append_nil _).symm
      · cases bufferOf stream r with
        | none => exact .nil
        | some b => exact .nil
  | onFrameStarted s hdr nowUs =>
      simp only [step, onFrameStarted, bufferOps]
      cases hst : r.streams s with
      | none => exact unopened_queues hst _ _
      | some st =>
          by_cases hs : s = stream
          · subst hs
            rw [if_pos rfl]
            refine ⟨rfl, ?_, fun hset st' hst' => ?_, fun _ => ⟨[], ?_, ?_⟩⟩
            · simp [bufferOf, bufferRun, hst, VideoFrameReorderBuffer.run_cons,
                VideoFrameReorderBuffer.step]
            · simp only [Function.update_self, Option.some.injEq] at hst'
              rw [← hst']
              exact hset st hst
            · exact (List.append_nil _).symm
            · rw [bufferOf, hst]
              exact .nil
          · rw [if_neg hs]
            apply queues_nil
            · rfl
            · exact Function.update_of_ne (Ne.symm hs) _ _
            · rfl
  | onFrame s frame nowUs =>
      simp only [step, onFrame, bufferOps]
      cases VideoFrameHeader.parse (FrameBytes.bytes frame) with
      | none => exact queues_nil rfl rfl rfl _
      | some hdr =>
          cases hst : r.streams s with
          | none => exact unopened_queues hst _ _
          | some st => exact putStream_queues hplayout hst (.frame hdr frame nowUs) nowUs
  | onFrameAborted s frameSeq nowUs =>
      simp only [step, onFrameAborted]
      cases hst : r.streams s with
      | none =>
          cases frameSeq with
          | none => exact queues_nil rfl rfl rfl _
          | some seq => exact unopened_queues hst _ _
      | some st =>
          cases frameSeq with
          | none =>
              dsimp only
              split
              · exact queues_nil rfl rfl rfl _
              · exact requestKeyframe_queues r s nowUs _
          | some seq => exact putStream_queues hplayout hst (.frameAborted seq nowUs) nowUs
  | requestKeyframe s nowUs => exact requestKeyframe_queues r s nowUs _
  | tick nowUs needs order =>
      have hops : bufferOps stream (.tick nowUs needs order) ++ [] =
          (bufferOps stream (.tick nowUs needs order) : List (ReorderOp φ)) := List.append_nil _
      have hrequests : Queues stream nowUs [] (pollStreams nowUs r order).1
          (r.step (.tick nowUs needs order)).1 :=
        requestMissing_queues nowUs nowUs needs (pollStreams nowUs r order).2.1 _
      rw [← hops]
      exact (pollStreams_queues nowUs order r hplayout).trans hrequests
  | collect nowUs order => exact absurd rfl (hcollect nowUs order)
  | deliverNext =>
      simp only [step, deliverNext]
      cases r.due with
      | nil => exact queues_nil rfl rfl rfl _
      | cons entry due =>
          apply queues_nil
          · rfl
          · rfl
          · rfl

/-! ### A pass of the playout thread -/

omit [FrameBytes φ] in
/-- What a pass leaves of the frames it sees starts with one that is not due. -/
theorem splitDue_head {nowUs : Int} {queue : List (Pending φ)} {p : Pending φ}
    (hhead : (splitDue nowUs queue).2.head? = some p) : nowUs < p.atUs := by
  induction queue with
  | nil => cases hhead
  | cons first queue ih =>
      rw [splitDue] at hhead
      split at hhead
      · exact ih hhead
      next hwaits =>
        obtain rfl : first = p := Option.some.inj hhead
        exact lt_of_not_ge fun hdue => hwaits (.inl hdue)

omit [FrameBytes φ] in
theorem collect_pending_other {nowUs : Int} {order : List (StreamId × Nat)}
    (hother : stream ∉ order.map Prod.fst) (r : VideoReceiveRouter φ) :
    (r.collect nowUs order).pending stream = r.pending stream := by
  induction order generalizing r with
  | nil => rfl
  | cons entry order ih =>
      obtain ⟨s, count⟩ := entry
      have hs : stream ≠ s := fun heq => hother (heq ▸ List.mem_cons_self)
      rw [collect]
      dsimp only
      rw [ih fun hin => hother (List.mem_cons_of_mem _ hin)]
      exact Function.update_of_ne hs _ _

omit [FrameBytes φ] in
theorem collect_streams (nowUs : Int) (order : List (StreamId × Nat)) (r : VideoReceiveRouter φ) :
    (r.collect nowUs order).streams = r.streams ∧ (r.collect nowUs order).cfg = r.cfg := by
  induction order generalizing r with
  | nil => exact ⟨rfl, rfl⟩
  | cons entry order ih => exact ih _

omit [FrameBytes φ] in
/-- What a pass takes out of a queue stands at its front. -/
theorem collect_suffix (nowUs : Int) (order : List (StreamId × Nat)) (r : VideoReceiveRouter φ) :
    (r.collect nowUs order).pending stream <:+ r.pending stream := by
  induction order generalizing r with
  | nil => exact List.suffix_rfl
  | cons entry order ih =>
      obtain ⟨s, count⟩ := entry
      rw [collect]
      dsimp only
      apply (ih _).trans
      by_cases hs : stream = s
      · subst hs
        have hsplit := splitDue_append nowUs ((r.pending stream).take count)
        refine ⟨(splitDue nowUs ((r.pending stream).take count)).1, ?_⟩
        dsimp only
        rw [Function.update_self, ← List.append_assoc, hsplit, List.take_append_drop]
      · dsimp only
        rw [Function.update_of_ne hs]

omit [FrameBytes φ] in
/-- A pass takes frames from the front of the queue. If it does not take all it sees, then
    the next one is not due. -/
theorem collect_waits {nowUs : Int} {order : List (StreamId × Nat)} {count : Nat}
    (hnodup : (order.map Prod.fst).Nodup) (hvisit : (stream, count) ∈ order)
    (r : VideoReceiveRouter φ) :
    ∃ taken, r.pending stream = taken ++ (r.collect nowUs order).pending stream ∧
      ∀ p ∈ ((r.collect nowUs order).pending stream).head?, taken.length < count →
        nowUs < p.atUs := by
  induction order generalizing r with
  | nil => cases hvisit
  | cons entry order ih =>
      obtain ⟨s, seen⟩ := entry
      rw [List.map_cons, List.nodup_cons] at hnodup
      rcases List.mem_cons.mp hvisit with heq | hlater
      · cases heq
        rw [collect]
        dsimp only
        rw [collect_pending_other hnodup.1]
        dsimp only
        rw [Function.update_self]
        have hsplit := splitDue_append nowUs ((r.pending stream).take count)
        refine ⟨(splitDue nowUs ((r.pending stream).take count)).1, ?_, fun p hp htaken => ?_⟩
        · rw [← List.append_assoc, hsplit, List.take_append_drop]
        · cases hrest : (splitDue nowUs ((r.pending stream).take count)).2 with
          | nil =>
              -- all it saw is taken, so it saw the whole queue
              rw [hrest, List.append_nil] at hsplit
              rw [hsplit, List.length_take] at htaken
              rw [hrest, List.nil_append, List.drop_eq_nil_of_le (by omega)] at hp
              cases hp
          | cons first rest =>
              rw [hrest] at hp
              obtain rfl : first = p := Option.some.inj hp
              apply @splitDue_head φ nowUs ((r.pending stream).take count) first
              rw [hrest, List.head?_cons]
      · have hs : stream ≠ s := by
          rintro rfl
          exact hnodup.1 (List.mem_map.mpr ⟨_, hlater, rfl⟩)
        have hrest := ih hnodup.2 hlater { r with
          due := r.due ++ (splitDue nowUs ((r.pending s).take seen)).1.map fun p => (s, p)
          pending := Function.update r.pending s
            ((splitDue nowUs ((r.pending s).take seen)).2 ++ (r.pending s).drop seen) }
        dsimp only at hrest
        rw [Function.update_of_ne hs] at hrest
        exact hrest

/-! ### Runs -/

/-- The frames in the queue of the stream are the last released, each due by the maximal
    delay behind its release. -/
structure Queued (cfg : VideoReceiveRouterConfig) (stream : StreamId) (r : VideoReceiveRouter φ)
    (log : List (Release φ)) : Prop where
  config : r.cfg = cfg.normalized
  clock : ClockSet stream r
  queue : ∃ past waiting, log = past ++ waiting ∧
    List.Forall₂ (DueBy r.maxDelayUs) waiting (r.pending stream)

omit [FrameBytes φ] in
/-- What leaves the queue at its front leaves the frames last released. -/
theorem Queued.dropped {cfg : VideoReceiveRouterConfig} {r r' : VideoReceiveRouter φ}
    {log : List (Release φ)} (h : Queued cfg stream r log) (hconfig : r'.cfg = r.cfg)
    (hclock : ClockSet stream r') (hpending : r'.pending stream <:+ r.pending stream) :
    Queued cfg stream r' log := by
  obtain ⟨past, waiting, hlog, hdue⟩ := h.queue
  obtain ⟨taken, htaken⟩ := hpending
  rw [← htaken] at hdue
  obtain ⟨gone, hgone⟩ : ∃ gone, gone = waiting.take taken.length := ⟨_, rfl⟩
  have hsplit := List.forall₂_drop_append waiting taken (r'.pending stream) hdue
  have hdelay : r'.maxDelayUs = r.maxDelayUs := by rw [maxDelayUs, maxDelayUs, hconfig]
  refine ⟨hconfig.trans h.config, hclock, past ++ gone, waiting.drop taken.length, ?_, ?_⟩
  · rw [hlog, hgone, List.append_assoc, List.take_append_drop]
  · rw [hdelay]
    exact hsplit

theorem Queued.step {cfg : VideoReceiveRouterConfig} {r : VideoReceiveRouter φ}
    {log : List (Release φ)} (h : Queued cfg stream r log) (hplayout : cfg.playout = true)
    (op : RouterOp φ) : Queued cfg stream (r.step op).1 (log ++ releases stream r op) := by
  have hplayout' : r.cfg.playout = true := by rw [h.config]; exact hplayout
  have hquiet : bufferOps stream op = [] → log ++ releases stream r op = log := by
    intro hops
    rw [releases, hops]
    cases bufferOf stream r with
    | none => exact List.append_nil log
    | some b => exact List.append_nil log
  have hkept : ¬ (∃ nowUs, op = .openStream stream nowUs) → ¬ Closes stream op →
      ¬ (∃ nowUs order, op = .collect nowUs order) →
      Queued cfg stream (r.step op).1 (log ++ releases stream r op) := by
    intro hopen hclose hcollect
    have hqueues : Queues stream (callUs op) (bufferOps stream op) r (r.step op).1 :=
      step_queues hplayout' (fun nowUs heq => hopen ⟨nowUs, heq⟩) hclose
        fun nowUs order heq => hcollect ⟨nowUs, order, heq⟩
    obtain ⟨past, waiting, hlog, hdue⟩ := h.queue
    obtain ⟨added, hadded, hmore⟩ := hqueues.queue h.clock
    have hdelay : (r.step op).1.maxDelayUs = r.maxDelayUs := by
      rw [maxDelayUs, maxDelayUs, hqueues.config]
    refine ⟨hqueues.config.trans h.config, hqueues.clock h.clock, past,
      waiting ++ releases stream r op, ?_, ?_⟩
    · rw [hlog, List.append_assoc]
    · rw [hadded, hdelay]
      exact List.rel_append hdue hmore
  cases op with
  | openStream s nowUs =>
      by_cases hs : s = stream
      · subst hs
        rw [hquiet rfl]
        apply h.dropped
        · rfl
        · intro st hst
          simp only [VideoReceiveRouter.step, openStream, Function.update_self,
            Option.some.injEq] at hst
          rw [← hst]
          rfl
        · exact List.suffix_rfl
      · apply hkept
        · rintro ⟨_, heq⟩
          cases heq
          exact hs rfl
        · exact fun hcloses => hcloses
        · rintro ⟨_, _, heq⟩
          cases heq
  | close s =>
      by_cases hs : s = stream
      · subst hs
        rw [hquiet rfl]
        apply h.dropped
        · rfl
        · intro st hst
          simp [VideoReceiveRouter.step, close] at hst
        · have hnil : (r.step (.close s)).1.pending s = [] := Function.update_self ..
          rw [hnil]
          exact List.nil_suffix
      · apply hkept
        · rintro ⟨_, heq⟩
          cases heq
        · exact hs
        · rintro ⟨_, _, heq⟩
          cases heq
  | closeAll =>
      rw [hquiet rfl]
      apply h.dropped
      · rfl
      · intro st hst
        cases hst
      · exact List.nil_suffix
  | collect nowUs order =>
      rw [hquiet rfl]
      rw [VideoReceiveRouter.step]
      split
      · obtain ⟨hstreams, hconfig⟩ := collect_streams nowUs order r
        apply h.dropped hconfig
        · intro st hst
          rw [hconfig]
          exact h.clock st ((congrFun hstreams stream).symm.trans hst)
        · exact collect_suffix nowUs order r
      · exact h
  | _ =>
      apply hkept
      · rintro ⟨_, heq⟩
        cases heq
      · exact fun hcloses => hcloses
      · rintro ⟨_, _, heq⟩
        cases heq

theorem Queued.run {cfg : VideoReceiveRouterConfig} {r : VideoReceiveRouter φ}
    {log : List (Release φ)} (h : Queued cfg stream r log) (hplayout : cfg.playout = true)
    (ops : List (RouterOp φ)) :
    Queued cfg stream (r.run ops).1 (log ++ releaseLog stream r ops) := by
  induction ops generalizing r log with
  | nil =>
      rw [releaseLog, List.append_nil]
      exact h
  | cons op ops ih =>
      rw [run_cons, releaseLog, ← List.append_assoc]
      exact ih (h.step hplayout op)

/-- The releases of the frames in a queue are the last ones. -/
def waitingOf (log : List (Release φ)) (queue : List (Pending φ)) : List (Release φ) :=
  log.drop (log.length - queue.length)

/-- What a pass at `nowUs` that sees the first `count` frames of the queue does to it. -/
structure PassLeaves (delayUs nowUs : Int) (count : Nat) (log : List (Release φ))
    (before after : List (Pending φ)) (taken : List (Pending φ)) : Prop where
  /-- It takes frames from the front. -/
  takes : before = taken ++ after
  /-- The frames left are the last released. -/
  waiting : (waitingOf log after).map Release.handed = after.map fun p => (p.hdr, p.frame)
  /-- None of them that it saw has waited for the maximal delay. -/
  inTime : ∀ i x, taken.length + i < count → (waitingOf log after)[i]? = some x →
    nowUs < x.arrivalUs + delayUs

omit [FrameBytes φ] in
/-- The first frame left is not due, so none of the later ones has waited for the maximal
    delay: they were released no earlier. -/
theorem Queued.passLeaves {cfg : VideoReceiveRouterConfig} {r : VideoReceiveRouter φ}
    {log : List (Release φ)} (h : Queued cfg stream r log)
    (hmono : log.Pairwise fun x y => x.arrivalUs ≤ y.arrivalUs) {nowUs : Int}
    {order : List (StreamId × Nat)} {count : Nat} (hnodup : (order.map Prod.fst).Nodup)
    (hvisit : (stream, count) ∈ order) :
    ∃ taken, PassLeaves (cfg.playoutClock.maxDelayMs * 1000) nowUs count log (r.pending stream)
      ((r.collect nowUs order).pending stream) taken := by
  obtain ⟨hstreams, hconfig⟩ := collect_streams nowUs order r
  have hafter : Queued cfg stream (r.collect nowUs order) log := by
    apply h.dropped hconfig
    · intro st hst
      rw [hconfig]
      exact h.clock st ((congrFun hstreams stream).symm.trans hst)
    · exact collect_suffix nowUs order r
  obtain ⟨taken, htakes, hhead⟩ := collect_waits hnodup hvisit r
  obtain ⟨past, waiting, hlog, hdue⟩ := hafter.queue
  have hdelay : (r.collect nowUs order).maxDelayUs = cfg.playoutClock.maxDelayMs * 1000 := by
    rw [maxDelayUs, hafter.config]
    rfl
  rw [hdelay] at hdue
  generalize (r.collect nowUs order).pending stream = after at *
  have hwaiting : waitingOf log after = waiting := by
    rw [waitingOf, hlog, List.length_append, ← hdue.length_eq, Nat.add_sub_cancel,
      List.drop_left]
  refine ⟨taken, htakes, ?_, fun i x hseen hx => ?_⟩
  · rw [hwaiting]
    clear hwaiting hlog hhead htakes
    induction hdue with
    | nil => rfl
    | cons hfirst _ ih => rw [List.map_cons, List.map_cons, ih, Release.handed, hfirst.hdr, hfirst.frame]
  · rw [hwaiting] at hx
    have hmono' : waiting.Pairwise fun x y => x.arrivalUs ≤ y.arrivalUs := by
      rw [hlog] at hmono
      exact (List.pairwise_append.mp hmono).2.1
    cases hdue with
    | nil => cases hx
    | @cons first p rest queue hfirst hrest =>
        have hearly := hhead p rfl (by omega)
        have hreleased : first.arrivalUs ≤ x.arrivalUs := by
          rcases List.mem_cons.mp (List.mem_of_getElem? hx) with heq | hlater
          · rw [heq]
          · exact (List.pairwise_cons.mp hmono').1 x hlater
        have hatUs := hfirst.atUs
        omega

/-- While a stream is not closed its frames are handed on in the order of their release,
    none lost and none twice, and no pass of the playout thread leaves a frame it saw
    waiting for the maximal delay. -/
theorem playout_in_order (cfg : VideoReceiveRouterConfig) (hplayout : cfg.playout = true)
    (stream : StreamId) (ops : List (RouterOp φ))
    (hmono : (releaseLog stream (new cfg) ops).Pairwise fun x y => x.arrivalUs ≤ y.arrivalUs) :
    (∀ pre watched post, ops = pre ++ watched ++ post → (∀ op ∈ watched, ¬ Closes stream op) →
      let r := ((new cfg).run pre).1
      deliveredTo stream (r.run watched).2 ++ flow stream (r.run watched).1 =
        flow stream r ++ (releaseLog stream r watched).map Release.handed) ∧
    ∀ pre nowUs order post count, ops = pre ++ .collect nowUs order :: post →
      let r := ((new cfg).run pre).1
      r.due = [] → (order.map Prod.fst).Nodup → (stream, count) ∈ order →
        ∃ taken, PassLeaves (cfg.playoutClock.maxDelayMs * 1000) nowUs count
          (releaseLog stream (new cfg) pre) (r.pending stream)
          ((r.step (.collect nowUs order)).1.pending stream) taken := by
  constructor
  · rintro pre watched post - hopen r
    have hnew : (new cfg : VideoReceiveRouter φ).cfg.playout = true := hplayout
    exact run_flow (run_playout hnew pre) hopen
  · rintro pre nowUs order post count rfl r hdue hnodup hvisit
    have hclock : ClockSet stream (new cfg : VideoReceiveRouter φ) := by
      intro st hst
      cases hst
    have hstart : Queued cfg stream (new cfg : VideoReceiveRouter φ) [] :=
      ⟨rfl, hclock, [], [], rfl, .nil⟩
    have hqueued := hstart.run hplayout pre
    rw [List.nil_append] at hqueued
    rw [releaseLog_append] at hmono
    have hstep : (r.step (.collect nowUs order)).1 = r.collect nowUs order := by
      rw [VideoReceiveRouter.step, hdue]
      rfl
    rw [hstep]
    exact hqueued.passLeaves (List.pairwise_append.mp hmono).1 hnodup hvisit

/-- A frame with a capture time in milliseconds. -/
def capturedFrame (frameSeq : BitVec 32) (flags : BitVec 8) (timestamp : BitVec 32) : Bytes :=
  ({ frameSeq := frameSeq, timestamp := timestamp, flags := flags ||| VIDEO_FLAG_CAPTURE_TIME } :
    VideoFrameHeader).write

/-- The frames 1 and 2 are late. The capture clock leaps at frame 3, which is then due by the
    maximal delay only, at 720000, and falls back at frame 4, which is due at its arrival. -/
def overtakingFrames : List (RouterOp Bytes) :=
  [.openStream 5 0,
    .onFrame 5 (capturedFrame 0 VIDEO_FLAG_KEYFRAME 0) 100000,
    .onFrame 5 (capturedFrame 1 0 20) 220000,
    .onFrame 5 (capturedFrame 2 0 40) 300000,
    .onFrame 5 (capturedFrame 3 0 5000) 420000,
    .onFrame 5 (capturedFrame 4 0 200) 430000]

/-- The first pass hands on three of the five frames and leaves frame 4 behind frame 3, the
    second one comes when the maximal delay of frame 4 is over. -/
def twoPasses : List (RouterOp Bytes) :=
  overtakingFrames ++ [.collect 500000 [(5, 5)], .deliverNext, .deliverNext, .deliverNext,
    .collect 730000 [(5, 2)], .deliverNext, .deliverNext]

example : (((new {}).run overtakingFrames).1.pending 5).map (fun p => p.atUs) =
    [100000, 220000, 300000, 720000, 430000] := by
  decide +kernel

theorem playout_in_order_overtaking :
    deliveredTo 5 ((new {}).run twoPasses).2 ++ flow 5 ((new {}).run twoPasses).1 =
        (releaseLog 5 (new {}) twoPasses).map Release.handed ∧
      (∃ taken, PassLeaves 300000 500000 5 (releaseLog 5 (new {}) (twoPasses.take 6))
        (((new {}).run (twoPasses.take 6)).1.pending 5)
        ((((new {}).run (twoPasses.take 6)).1.step (.collect 500000 [(5, 5)])).1.pending 5)
          taken) ∧
      ∃ taken, PassLeaves 300000 730000 2 (releaseLog 5 (new {}) (twoPasses.take 10))
        (((new {}).run (twoPasses.take 10)).1.pending 5)
        ((((new {}).run (twoPasses.take 10)).1.step (.collect 730000 [(5, 2)])).1.pending 5)
          taken := by
  obtain ⟨horder, hpasses⟩ := playout_in_order {} rfl 5 twoPasses (by decide +kernel)
  refine ⟨horder [] twoPasses [] rfl ?_, ?_, ?_⟩
  · simp [twoPasses, overtakingFrames, Closes]
  · have hdue : ((new {}).run (twoPasses.take 6)).1.due = [] := by decide +kernel
    exact hpasses (twoPasses.take 6) 500000 [(5, 5)] (twoPasses.drop 7) 5 rfl hdue (by decide)
      (by decide)
  · have hdue : ((new {}).run (twoPasses.take 10)).1.due = [] := by decide +kernel
    exact hpasses (twoPasses.take 10) 730000 [(5, 2)] (twoPasses.drop 11) 2 rfl hdue (by decide)
      (by decide)

end VideoReceiveRouter

end Parties.Video

import Parties.Video.FrameReorderDelivery
import Parties.Video.ReceiveRouter

/-!
# What an opening of the router hands on

With playout enabled a frame of a watched stream travels from its reorder buffer
through the queue of the stream and the batch of the playout thread to `deliver`.
The frames of one stream that are past the buffer are its flow. Every call but
`open` and `close` lets the buffer of a stream take some steps and puts what they
deliver at the end of its flow, so an opening hands on a decodable chain of frames
received since, if the flow was empty when it began. `open` empties the buffer
but neither the queue nor the batch: the condition is also necessary.
-/

namespace Parties.Video

variable {φ : Type}

/-- The frames of `stream` handed to `deliver`. -/
def deliveredTo (stream : StreamId) (events : List (RouterEvent φ)) :
    List (VideoFrameHeader × φ) :=
  events.filterMap fun
    | .deliver s hdr frame => if s = stream then some (hdr, frame) else none
    | .sendRequest _ => none

@[simp] theorem deliveredTo_nil (stream : StreamId) :
    deliveredTo stream ([] : List (RouterEvent φ)) = [] := rfl

@[simp] theorem deliveredTo_append (stream : StreamId) (xs ys : List (RouterEvent φ)) :
    deliveredTo stream (xs ++ ys) = deliveredTo stream xs ++ deliveredTo stream ys :=
  List.filterMap_append

@[simp] theorem deliveredTo_sendRequest (stream s : StreamId) (events : List (RouterEvent φ)) :
    deliveredTo stream (.sendRequest s :: events) = deliveredTo stream events := rfl

namespace VideoReceiveRouter

/-- The frames of `stream` past its reorder buffer, oldest first. -/
def flow (stream : StreamId) (r : VideoReceiveRouter φ) : List (VideoFrameHeader × φ) :=
  (r.due.filter fun p => decide (p.1 = stream)).map (fun p => (p.2.hdr, p.2.frame)) ++
    (r.pending stream).map fun p => (p.hdr, p.frame)

def bufferOf (stream : StreamId) (r : VideoReceiveRouter φ) : Option (VideoFrameReorderBuffer φ) :=
  (r.streams stream).map StreamState.buffer

variable [FrameBytes φ] {stream : StreamId}

/-- The buffer of a stream after `ops`, with the frames it delivered. -/
def bufferRun (b : Option (VideoFrameReorderBuffer φ)) (ops : List (ReorderOp φ)) :
    Option (VideoFrameReorderBuffer φ) × List (VideoFrameHeader × φ) :=
  match b with
  | none => (none, [])
  | some b => (some (b.run ops).1, deliveredFrames (b.run ops).2)

/-- `out` is the outcome of calls on `r` that let the buffer of `stream` take the
steps `ops` and moved frames of the stream along its flow. -/
structure Serves (stream : StreamId) (ops : List (ReorderOp φ)) (r : VideoReceiveRouter φ)
    (out : VideoReceiveRouter φ × List (RouterEvent φ)) : Prop where
  playout : out.1.cfg.playout = r.cfg.playout
  buffer : bufferOf stream out.1 = (bufferRun (bufferOf stream r) ops).1
  flow : deliveredTo stream out.2 ++ flow stream out.1 =
    flow stream r ++ (bufferRun (bufferOf stream r) ops).2

theorem Serves.trans {xs ys : List (ReorderOp φ)} {r : VideoReceiveRouter φ}
    {out out' : VideoReceiveRouter φ × List (RouterEvent φ)} (h : Serves stream xs r out)
    (h' : Serves stream ys out.1 out') :
    Serves stream (xs ++ ys) r (out'.1, out.2 ++ out'.2) := by
  have hbuffer := h.buffer
  have hflow := h.flow
  have hbuffer' := h'.buffer
  have hflow' := h'.flow
  refine ⟨h'.playout.trans h.playout, ?_, ?_⟩
  · rw [hbuffer', hbuffer]
    cases bufferOf stream r with
    | none => rfl
    | some b => simp [bufferRun, VideoFrameReorderBuffer.run_append]
  · rw [deliveredTo_append, List.append_assoc, hflow', ← List.append_assoc, hflow,
      List.append_assoc, hbuffer]
    cases bufferOf stream r with
    | none => rfl
    | some b => simp [bufferRun, VideoFrameReorderBuffer.run_append]

/-- Calls that leave the stream alone. -/
theorem serves_nil {r : VideoReceiveRouter φ} {out : VideoReceiveRouter φ × List (RouterEvent φ)}
    (hplayout : out.1.cfg.playout = r.cfg.playout)
    (hbuffer : bufferOf stream out.1 = bufferOf stream r)
    (hflow : deliveredTo stream out.2 ++ VideoReceiveRouter.flow stream out.1 =
      VideoReceiveRouter.flow stream r) :
    Serves stream [] r out := by
  refine ⟨hplayout, ?_, ?_⟩
  · rw [hbuffer]
    cases bufferOf stream r <;> rfl
  · rw [hflow]
    cases bufferOf stream r <;> simp [bufferRun]

/-! ### Keyframe requests and buffer callbacks -/

omit [FrameBytes φ] in
/-- A request touches the pacing only. -/
theorem requestKeyframe_frame (r : VideoReceiveRouter φ) (s : StreamId) (nowUs : Int) :
    ∃ pacing pacingStats, (r.requestKeyframe s nowUs).1 =
        { r with pacing := pacing, pacingStats := pacingStats } ∧
      ∀ stream, deliveredTo stream (r.requestKeyframe s nowUs).2 = [] := by
  unfold requestKeyframe
  dsimp only
  split <;> split <;> exact ⟨_, _, rfl, fun _ => rfl⟩

theorem requestKeyframe_serves (r : VideoReceiveRouter φ) (s : StreamId) (nowUs : Int) :
    Serves stream [] r (r.requestKeyframe s nowUs) := by
  obtain ⟨pacing, pacingStats, hstate, hnone⟩ := requestKeyframe_frame r s nowUs
  refine serves_nil ?_ ?_ ?_
  · rw [hstate]
  · rw [hstate]
    rfl
  · rw [hnone, hstate]
    rfl

omit [FrameBytes φ] in
theorem keyframeArrived_frame (r : VideoReceiveRouter φ) (s : StreamId) :
    ∃ pacing, r.keyframeArrived s = { r with pacing := pacing } := by
  unfold keyframeArrived
  split
  · exact ⟨r.pacing, rfl⟩
  · exact ⟨_, rfl⟩

omit [FrameBytes φ] in
/-- With playout enabled a delivered frame joins the queue of its stream. -/
theorem onDeliver_queue {r : VideoReceiveRouter φ} (hplayout : r.cfg.playout = true)
    (s : StreamId) (st : StreamState φ) (hdr : VideoFrameHeader) (frame : φ) (nowUs : Int) :
    ∃ pacing atUs st', r.onDeliver s st hdr frame nowUs =
        ({ r with
          pacing := pacing
          pending := Function.update r.pending s (r.pending s ++ [⟨atUs, hdr, frame⟩]) }, st', []) ∧
      st'.buffer = st.buffer := by
  obtain ⟨pacing, hpacing⟩ := keyframeArrived_frame r s
  unfold onDeliver
  cases hdr.keyframe with
  | false =>
      simp only [Bool.false_eq_true, if_false, hplayout, Bool.not_true]
      exact ⟨r.pacing, _, _, rfl, rfl⟩
  | true =>
      simp only [if_true, hpacing, hplayout, Bool.not_true, Bool.false_eq_true, if_false]
      exact ⟨pacing, _, _, rfl, rfl⟩

omit [FrameBytes φ] in
/-- So do all frames that one call of the buffer delivered. -/
theorem onBufferEvents_queue (s : StreamId) (nowUs : Int) (events : List (ReorderEvent φ))
    (r : VideoReceiveRouter φ) (st : StreamState φ) (hplayout : r.cfg.playout = true) :
    ∃ pacing pacingStats queued, (onBufferEvents s nowUs r st events).1 =
        { r with
          pacing := pacing
          pacingStats := pacingStats
          pending := Function.update r.pending s (r.pending s ++ queued) } ∧
      queued.map (fun p => (p.hdr, p.frame)) = deliveredFrames events ∧
      (onBufferEvents s nowUs r st events).2.1.buffer = st.buffer ∧
      ∀ stream, deliveredTo stream (onBufferEvents s nowUs r st events).2.2 = [] := by
  induction events generalizing r st with
  | nil => exact ⟨r.pacing, r.pacingStats, [], by simp [onBufferEvents], rfl, rfl, fun _ => rfl⟩
  | cons event events ih =>
      cases event with
      | deliver hdr frame =>
          obtain ⟨pacing₁, atUs, st₁, hdeliver, hbuffer⟩ :=
            onDeliver_queue hplayout s st hdr frame nowUs
          obtain ⟨pacing₂, stats₂, queued, hstate, hqueued, hkept, hnone⟩ :=
            ih { r with
              pacing := pacing₁
              pending := Function.update r.pending s (r.pending s ++ [⟨atUs, hdr, frame⟩]) }
              st₁ hplayout
          simp only [onBufferEvents, hdeliver]
          refine ⟨pacing₂, stats₂, ⟨atUs, hdr, frame⟩ :: queued, ?_, ?_, ?_, ?_⟩
          · rw [hstate]
            simp
          · simp [hqueued]
          · exact hkept.trans hbuffer
          · exact hnone
      | lost first =>
          obtain ⟨pacing₁, stats₁, hrequest, hquiet⟩ := requestKeyframe_frame r s nowUs
          obtain ⟨pacing₂, stats₂, queued, hstate, hqueued, hkept, hnone⟩ :=
            ih { r with pacing := pacing₁, pacingStats := stats₁ } st hplayout
          simp only [onBufferEvents, hrequest]
          exact ⟨pacing₂, stats₂, queued, hstate, hqueued, hkept, fun stream => by
            rw [deliveredTo_append, hquiet, hnone, List.nil_append]⟩

/-- A step of the buffer of `s` is a step of its buffer only. -/
theorem putStream_serves {r : VideoReceiveRouter φ} (hplayout : r.cfg.playout = true)
    {s : StreamId} {st : StreamState φ} (hst : r.streams s = some st) (op : ReorderOp φ)
    (nowUs : Int) :
    Serves stream (if s = stream then [op] else []) r
      (r.putStream s st (st.buffer.step op) nowUs) := by
  obtain ⟨pacing, stats, queued, hstate, hqueued, hbuffer, hnone⟩ :=
    onBufferEvents_queue s nowUs (st.buffer.step op).2 r
      { st with buffer := (st.buffer.step op).1 } hplayout
  have hout : r.putStream s st (st.buffer.step op) nowUs =
      ({ (onBufferEvents s nowUs r { st with buffer := (st.buffer.step op).1 }
          (st.buffer.step op).2).1 with
        streams := Function.update (onBufferEvents s nowUs r
          { st with buffer := (st.buffer.step op).1 } (st.buffer.step op).2).1.streams s
          (some (onBufferEvents s nowUs r { st with buffer := (st.buffer.step op).1 }
            (st.buffer.step op).2).2.1) },
        (onBufferEvents s nowUs r { st with buffer := (st.buffer.step op).1 }
          (st.buffer.step op).2).2.2) := rfl
  rw [hout, hstate]
  by_cases hs : s = stream
  · subst hs
    rw [if_pos rfl]
    refine ⟨rfl, ?_, ?_⟩
    · simp [bufferOf, bufferRun, hst, hbuffer, VideoFrameReorderBuffer.run_cons]
    · simp only [hnone, List.nil_append]
      simp [VideoReceiveRouter.flow, bufferOf, bufferRun, hst, hqueued,
        VideoFrameReorderBuffer.run_cons]
  · rw [if_neg hs]
    refine serves_nil rfl ?_ ?_
    · simp [bufferOf, Function.update_of_ne (Ne.symm hs)]
    · simp [hnone, VideoReceiveRouter.flow, Function.update_of_ne (Ne.symm hs)]

/-! ### One call -/

/-- A stream that is not open takes no steps. -/
theorem serves_unopened {r : VideoReceiveRouter φ} {s : StreamId} (hst : r.streams s = none)
    (op : ReorderOp φ) : Serves stream (if s = stream then [op] else []) r (r, []) := by
  by_cases hs : s = stream
  · subst hs
    have hbuffer : bufferOf s r = none := by rw [bufferOf, hst, Option.map_none]
    refine ⟨rfl, ?_, ?_⟩
    · rw [hbuffer]
      rfl
    · rw [hbuffer]
      exact (List.append_nil _).symm
  · rw [if_neg hs]
    exact serves_nil rfl rfl rfl

omit [FrameBytes φ] in
theorem polls_cons (nowUs : Int) (s : StreamId) (order : List StreamId) :
    ((s :: order).filter fun s => decide (s = stream)).map
        (fun _ => (.poll nowUs : ReorderOp φ)) =
      (if s = stream then [.poll nowUs] else []) ++
        (order.filter fun s => decide (s = stream)).map fun _ => .poll nowUs := by
  by_cases hs : s = stream
  · simp [hs]
  · simp [hs]

theorem pollStreams_serves (stream : StreamId) {nowUs : Int} (order : List StreamId)
    (r : VideoReceiveRouter φ) (hplayout : r.cfg.playout = true) :
    Serves stream ((order.filter fun s => decide (s = stream)).map fun _ => .poll nowUs) r
      ((pollStreams nowUs r order).1, (pollStreams nowUs r order).2.2) := by
  induction order generalizing r with
  | nil => exact serves_nil rfl rfl rfl
  | cons s order ih =>
      rw [polls_cons, pollStreams]
      cases hst : r.streams s with
      | none => exact (serves_unopened hst _).trans (ih r hplayout)
      | some st =>
          have hput : Serves stream _ r (r.putStream s st (st.buffer.poll nowUs) nowUs) :=
            putStream_serves hplayout hst (.poll nowUs) nowUs
          exact hput.trans (ih _ (hput.playout.trans hplayout))

theorem requestMissing_serves {nowUs : Int} {needs : StreamId → Bool} (candidates : List Candidate)
    (r : VideoReceiveRouter φ) : Serves stream [] r (requestMissing nowUs needs r candidates) := by
  induction candidates generalizing r with
  | nil => exact serves_nil rfl rfl rfl
  | cons c candidates ih =>
      unfold requestMissing
      by_cases hwants : (c.wants || (!c.keyArriving && needs c.stream)) = true
      · rw [if_pos hwants]
        exact (requestKeyframe_serves r c.stream nowUs).trans (ih _)
      · rw [if_neg hwants]
        exact ih r

omit [FrameBytes φ] in
theorem splitDue_append (nowUs : Int) (queue : List (Pending φ)) :
    (splitDue nowUs queue).1 ++ (splitDue nowUs queue).2 = queue := by
  induction queue with
  | nil => rfl
  | cons p queue ih =>
      unfold splitDue
      split
      · simp [ih]
      · rfl

omit [FrameBytes φ] in
/-- Moving due frames into the batch moves them along the flow. -/
theorem flow_collect {nowUs : Int} (order : List (StreamId × Nat)) (r : VideoReceiveRouter φ) :
    flow stream (r.collect nowUs order) = flow stream r := by
  induction order generalizing r with
  | nil => rfl
  | cons entry order ih =>
      obtain ⟨s, count⟩ := entry
      unfold collect
      dsimp only
      rw [ih]
      have hsplit := splitDue_append nowUs ((r.pending s).take count)
      by_cases hs : s = stream
      · subst hs
        have hqueue : (splitDue nowUs ((r.pending s).take count)).1 ++
            ((splitDue nowUs ((r.pending s).take count)).2 ++ (r.pending s).drop count) =
            r.pending s := by
          rw [← List.append_assoc, hsplit, List.take_append_drop]
        conv_rhs => rw [flow, ← hqueue]
        simp [flow, List.filter_map, Function.comp_def]
      · simp [flow, List.filter_map, Function.comp_def, hs, Function.update_of_ne (Ne.symm hs)]

omit [FrameBytes φ] in
theorem bufferOf_collect (stream : StreamId) (nowUs : Int) (order : List (StreamId × Nat))
    (r : VideoReceiveRouter φ) :
    bufferOf stream (r.collect nowUs order) = bufferOf stream r ∧
      (r.collect nowUs order).cfg = r.cfg := by
  induction order generalizing r with
  | nil => exact ⟨rfl, rfl⟩
  | cons entry order ih => exact ih _

theorem deliverNext_serves (r : VideoReceiveRouter φ) : Serves stream [] r r.deliverNext := by
  unfold deliverNext
  cases hdue : r.due with
  | nil => exact serves_nil rfl rfl rfl
  | cons entry due =>
      obtain ⟨s, p⟩ := entry
      refine serves_nil rfl rfl ?_
      by_cases hs : s = stream
      · simp [deliveredTo, flow, hdue, hs]
      · simp [deliveredTo, flow, hdue, hs]

/-- The call brings a frame of `stream` to the router. -/
def Brings (stream : StreamId) (frame : φ) : RouterOp φ → Prop
  | .onFrame s f _ => s = stream ∧ f = frame
  | _ => False

/-- The steps a call makes the buffer of `stream` take. -/
structure StepsOf (stream : StreamId) (op : RouterOp φ) (ops : List (ReorderOp φ)) : Prop where
  noReset : ∀ o ∈ ops, ¬ o.isReset
  brings : ∀ hdr frame nowUs, .frame hdr frame nowUs ∈ ops → Brings stream frame op

/-- The steps that a call makes the buffer of `stream` take if the stream is open. -/
def bufferOps (stream : StreamId) : RouterOp φ → List (ReorderOp φ)
  | .setRtt rttUs => [.setRtt rttUs]
  | .onFrameStarted s hdr nowUs => if s = stream then [.frameStarted hdr nowUs] else []
  | .onFrame s frame nowUs =>
    match VideoFrameHeader.parse (FrameBytes.bytes frame) with
    | none => []
    | some hdr => if s = stream then [.frame hdr frame nowUs] else []
  | .onFrameAborted s (some seq) nowUs => if s = stream then [.frameAborted seq nowUs] else []
  | .tick nowUs _ order =>
    (order.filter fun s => decide (s = stream)).map fun _ => .poll nowUs
  | _ => []

theorem stepsOf_bufferOps (op : RouterOp φ) : StepsOf stream op (bufferOps stream op) := by
  cases op with
  | setRtt rttUs => exact ⟨by simp [bufferOps, ReorderOp.isReset], by simp [bufferOps]⟩
  | onFrameStarted s hdr nowUs =>
      simp only [bufferOps]
      split
      · exact ⟨by simp [ReorderOp.isReset], by simp⟩
      · exact ⟨by simp, by simp⟩
  | onFrame s frame nowUs =>
      simp only [bufferOps]
      cases VideoFrameHeader.parse (FrameBytes.bytes frame) with
      | none => exact ⟨by simp, by simp⟩
      | some hdr =>
          dsimp only
          split
          next hs =>
            refine ⟨by simp [ReorderOp.isReset], fun hdr' frame' now' hin => ?_⟩
            simp only [List.mem_singleton, ReorderOp.frame.injEq] at hin
            exact ⟨hs, hin.2.1.symm⟩
          · exact ⟨by simp, by simp⟩
  | onFrameAborted s frameSeq nowUs =>
      cases frameSeq with
      | none => exact ⟨by simp [bufferOps], by simp [bufferOps]⟩
      | some seq =>
          simp only [bufferOps]
          split
          · exact ⟨by simp [ReorderOp.isReset], by simp⟩
          · exact ⟨by simp, by simp⟩
  | tick nowUs needs order =>
      refine ⟨fun o ho => ?_, fun hdr frame now hin => ?_⟩
      · obtain ⟨_, _, rfl⟩ := List.mem_map.mp ho
        simp [ReorderOp.isReset]
      · obtain ⟨_, _, heq⟩ := List.mem_map.mp hin
        cases heq
  | _ => exact ⟨by simp [bufferOps], by simp [bufferOps]⟩

/-- The call ends the watch of `stream`. -/
def Closes (stream : StreamId) : RouterOp φ → Prop
  | .close s => s = stream
  | .closeAll => True
  | _ => False

/-- Every call but an opening either serves the stream or, closing it, drops the
tail of its flow. -/
theorem step_serves {r : VideoReceiveRouter φ} (hplayout : r.cfg.playout = true)
    {op : RouterOp φ} (hop : ∀ nowUs, op ≠ .openStream stream nowUs) :
    Serves stream (bufferOps stream op) r (r.step op) ∨
      (Closes stream op ∧ (r.step op).1.cfg.playout = r.cfg.playout ∧
        bufferOf stream (r.step op).1 = none ∧ deliveredTo stream (r.step op).2 = [] ∧
        flow stream (r.step op).1 <+: flow stream r) := by
  cases op with
  | openStream s nowUs =>
      have hs : stream ≠ s := fun heq => hop nowUs (by rw [heq])
      refine Or.inl (serves_nil rfl ?_ ?_)
      · simp [step, openStream, bufferOf, Function.update_of_ne hs]
      · rfl
  | close s =>
      by_cases hs : stream = s
      · subst hs
        refine Or.inr ⟨rfl, rfl, ?_, rfl, ?_⟩
        · simp [step, close, bufferOf]
        · simp [step, close, flow]
      · refine Or.inl (serves_nil rfl ?_ ?_)
        · simp [step, close, bufferOf, Function.update_of_ne hs]
        · simp [step, close, flow, Function.update_of_ne hs]
  | closeAll =>
      refine Or.inr ⟨trivial, rfl, rfl, rfl, ?_⟩
      simp [step, closeAll, flow]
  | setRtt rttUs =>
      refine Or.inl ⟨rfl, ?_, ?_⟩
      · simp only [step, setRtt, bufferOf, bufferOps]
        cases r.streams stream <;> rfl
      · simp only [step, setRtt, bufferOf, bufferOps]
        cases r.streams stream <;>
          simp [bufferRun, flow, VideoFrameReorderBuffer.run_cons, VideoFrameReorderBuffer.step]
  | onFrameStarted s hdr nowUs =>
      simp only [step, onFrameStarted, bufferOps]
      cases hst : r.streams s with
      | none => exact Or.inl (serves_unopened hst _)
      | some st =>
          by_cases hs : s = stream
          · subst hs
            rw [if_pos rfl]
            refine Or.inl ⟨rfl, ?_, ?_⟩
            · simp [bufferOf, bufferRun, hst, VideoFrameReorderBuffer.run_cons,
                VideoFrameReorderBuffer.step]
            · simp [bufferOf, bufferRun, hst, flow, VideoFrameReorderBuffer.run_cons,
                VideoFrameReorderBuffer.step]
          · rw [if_neg hs]
            refine Or.inl (serves_nil rfl ?_ rfl)
            simp [bufferOf, Function.update_of_ne (Ne.symm hs)]
  | onFrame s frame nowUs =>
      simp only [step, onFrame, bufferOps]
      cases VideoFrameHeader.parse (FrameBytes.bytes frame) with
      | none => exact Or.inl (serves_nil rfl rfl rfl)
      | some hdr =>
          cases hst : r.streams s with
          | none => exact Or.inl (serves_unopened hst _)
          | some st => exact Or.inl (putStream_serves hplayout hst (.frame hdr frame nowUs) nowUs)
  | onFrameAborted s frameSeq nowUs =>
      simp only [step, onFrameAborted]
      cases hst : r.streams s with
      | none =>
          cases frameSeq with
          | none => exact Or.inl (serves_nil rfl rfl rfl)
          | some seq => exact Or.inl (serves_unopened hst _)
      | some st =>
          cases frameSeq with
          | none =>
              dsimp only
              split
              · exact Or.inl (serves_nil rfl rfl rfl)
              · exact Or.inl (requestKeyframe_serves r s nowUs)
          | some seq =>
              exact Or.inl (putStream_serves hplayout hst (.frameAborted seq nowUs) nowUs)
  | requestKeyframe s nowUs => exact Or.inl (requestKeyframe_serves r s nowUs)
  | tick nowUs needs order =>
      have hops : bufferOps stream (.tick nowUs needs order) ++ [] =
          (bufferOps stream (.tick nowUs needs order) : List (ReorderOp φ)) := List.append_nil _
      rw [← hops]
      exact Or.inl ((pollStreams_serves stream order r hplayout).trans
        (requestMissing_serves _ _))
  | collect nowUs order =>
      simp only [step]
      split
      · obtain ⟨hbuffer, hcfg⟩ := bufferOf_collect stream nowUs order r
        refine Or.inl (serves_nil ?_ hbuffer (flow_collect order r))
        rw [hcfg]
      · exact Or.inl (serves_nil rfl rfl rfl)
  | deliverNext => exact Or.inl (deliverNext_serves r)

/-! ### Runs -/

theorem step_playout {r : VideoReceiveRouter φ} (hplayout : r.cfg.playout = true)
    (op : RouterOp φ) : (r.step op).1.cfg.playout = true := by
  by_cases hop : ∃ s nowUs, op = .openStream s nowUs
  · obtain ⟨s, nowUs, rfl⟩ := hop
    exact hplayout
  · have hop' : ∀ nowUs, op ≠ .openStream 0 nowUs := fun nowUs heq => hop ⟨0, nowUs, heq⟩
    rcases step_serves hplayout hop' with hserves | ⟨_, hkept, _⟩
    · exact hserves.playout.trans hplayout
    · exact hkept.trans hplayout

theorem run_playout {r : VideoReceiveRouter φ} (hplayout : r.cfg.playout = true)
    (ops : List (RouterOp φ)) : (r.run ops).1.cfg.playout = true := by
  induction ops generalizing r with
  | nil => exact hplayout
  | cons op ops ih =>
      rw [run_cons]
      exact ih (step_playout hplayout op)

/-- Every frame of the stream, in its buffer or past it, satisfies `P`. -/
structure AllFrom (P : φ → Prop) (stream : StreamId) (r : VideoReceiveRouter φ) : Prop where
  playout : r.cfg.playout = true
  flow : ∀ x ∈ flow stream r, P x.2
  held : ∀ b, bufferOf stream r = some b → b.HeldAll fun _ frame => P frame

theorem bufferRun_yields {P : φ → Prop} {b : Option (VideoFrameReorderBuffer φ)}
    (hheld : ∀ b', b = some b' → b'.HeldAll fun _ frame => P frame) {ops : List (ReorderOp φ)}
    (hops : ∀ hdr frame nowUs, .frame hdr frame nowUs ∈ ops → P frame) :
    (∀ b', (bufferRun b ops).1 = some b' → b'.HeldAll fun _ frame => P frame) ∧
      ∀ x ∈ (bufferRun b ops).2, P x.2 := by
  cases b with
  | none => simp [bufferRun]
  | some b =>
      have hyields := VideoFrameReorderBuffer.run_yields (hheld b rfl) hops
      refine ⟨fun b' hb' => ?_, hyields.delivered⟩
      obtain rfl : (b.run ops).1 = b' := Option.some.inj hb'
      exact hyields.held

omit [FrameBytes φ] in
theorem openStream_allFrom {P : φ → Prop} {r : VideoReceiveRouter φ}
    (hplayout : r.cfg.playout = true) (hflow : ∀ x ∈ flow stream r, P x.2) (nowUs : Int) :
    AllFrom P stream (r.openStream stream nowUs) := by
  refine ⟨hplayout, hflow, fun b hb => ?_⟩
  simp only [bufferOf, openStream, Function.update_self, Option.map_some, Option.some.injEq] at hb
  subst hb
  exact fun e he => by simp [VideoFrameReorderBuffer.new, VideoFrameReorderBuffer.setRtt] at he

theorem AllFrom.step {P : φ → Prop} {r : VideoReceiveRouter φ} (h : AllFrom P stream r)
    (op : RouterOp φ) (hop : ∀ frame, Brings stream frame op → P frame) :
    AllFrom P stream (r.step op).1 ∧ ∀ x ∈ deliveredTo stream (r.step op).2, P x.2 := by
  by_cases hopen : ∃ nowUs, op = .openStream stream nowUs
  · obtain ⟨nowUs, rfl⟩ := hopen
    exact ⟨openStream_allFrom h.playout h.flow nowUs, by simp [VideoReceiveRouter.step]⟩
  · rcases step_serves h.playout fun nowUs heq => hopen ⟨nowUs, heq⟩ with
      hserves | ⟨_, hkept, hnone, hquiet, hpre⟩
    · obtain ⟨hheld, hdelivered⟩ := bufferRun_yields h.held fun hdr frame nowUs hin =>
        hop frame ((stepsOf_bufferOps op).brings hdr frame nowUs hin)
      have hall : ∀ x ∈ deliveredTo stream (r.step op).2 ++ VideoReceiveRouter.flow stream (r.step op).1,
          P x.2 := by
        rw [hserves.flow]
        intro x hx
        exact (List.mem_append.mp hx).elim (h.flow x) (hdelivered x)
      refine ⟨⟨hserves.playout.trans h.playout, fun x hx => hall x (List.mem_append_right _ hx), ?_⟩,
        fun x hx => hall x (List.mem_append_left _ hx)⟩
      rw [hserves.buffer]
      exact hheld
    · refine ⟨⟨hkept.trans h.playout, fun x hx => h.flow x (hpre.subset hx), ?_⟩, ?_⟩
      · simp [hnone]
      · simp [hquiet]

theorem AllFrom.run {P : φ → Prop} {r : VideoReceiveRouter φ} (h : AllFrom P stream r)
    {ops : List (RouterOp φ)} (hops : ∀ op ∈ ops, ∀ frame, Brings stream frame op → P frame) :
    ∀ x ∈ deliveredTo stream (r.run ops).2, P x.2 := by
  induction ops generalizing r with
  | nil => simp
  | cons op ops ih =>
      obtain ⟨hstep, hdelivered⟩ := h.step op (hops op (by simp))
      have hrest := ih hstep fun op' hop' => hops op' (by simp [hop'])
      rw [run_cons, deliveredTo_append]
      intro x hx
      exact (List.mem_append.mp hx).elim (hdelivered x) (hrest x)

/-- The frames handed on so far and the flow are a chain that ends where the
buffer of the stream stands. -/
structure Chained (stream : StreamId) (r : VideoReceiveRouter φ)
    (delivered : List (VideoFrameHeader × φ)) : Prop where
  playout : r.cfg.playout = true
  path : ∃ a, ChainPath none ((delivered ++ flow stream r).map Prod.fst) a ∧
    ∀ b, bufferOf stream r = some b → b.anchor = a

theorem Chained.step {r : VideoReceiveRouter φ} {delivered : List (VideoFrameHeader × φ)}
    (h : Chained stream r delivered) {op : RouterOp φ}
    (hop : ∀ nowUs, op ≠ .openStream stream nowUs) :
    Chained stream (r.step op).1 (delivered ++ deliveredTo stream (r.step op).2) := by
  obtain ⟨a, hpath, hanchor⟩ := h.path
  rcases step_serves h.playout hop with
    hserves | ⟨_, hkept, hnone, hquiet, hpre⟩
  · refine ⟨hserves.playout.trans h.playout, ?_⟩
    rw [List.append_assoc, hserves.flow, ← List.append_assoc, List.map_append, hserves.buffer]
    cases hbuffer : bufferOf stream r with
    | none =>
        refine ⟨a, ?_, by simp [bufferRun]⟩
        simpa [bufferRun] using hpath
    | some b =>
        have hextends := VideoFrameReorderBuffer.run_extends b (bufferOps stream op)
          (stepsOf_bufferOps op).noReset
        refine ⟨(b.run (bufferOps stream op)).1.anchor, chainPath_append.mpr ⟨a, hpath, ?_⟩, ?_⟩
        · rw [← hanchor b hbuffer]
          exact hextends
        · rintro b' hb'
          obtain rfl : (b.run (bufferOps stream op)).1 = b' := Option.some.inj hb'
          rfl
  · refine ⟨hkept.trans h.playout, ?_⟩
    rw [hquiet, List.append_nil]
    obtain ⟨a', hpath'⟩ := chainPath_prefix hpath
      (((List.prefix_append_right_inj delivered).mpr hpre).map Prod.fst)
    exact ⟨a', hpath', by simp [hnone]⟩

theorem Chained.run {r : VideoReceiveRouter φ} {delivered : List (VideoFrameHeader × φ)}
    (h : Chained stream r delivered) {ops : List (RouterOp φ)}
    (hops : ∀ op ∈ ops, ∀ nowUs, op ≠ .openStream stream nowUs) :
    Chained stream (r.run ops).1 (delivered ++ deliveredTo stream (r.run ops).2) := by
  induction ops generalizing r delivered with
  | nil => simpa using h
  | cons op ops ih =>
      have hrest := ih (h.step (hops op (by simp))) fun op' hop' => hops op' (by simp [hop'])
      rwa [run_cons, deliveredTo_append, ← List.append_assoc]

/-! ### Openings -/

/-- The calls up to the next opening of the stream. -/
def untilReopen (stream : StreamId) (ops : List (RouterOp φ)) : List (RouterOp φ) :=
  ops.takeWhile fun
    | .openStream s _ => decide (s ≠ stream)
    | _ => true

/-- Nothing older than the opening `r` is fresh from is handed on in `post`, and
what is handed on up to the next opening is decodable. -/
structure Isolated (stream : StreamId) (r : VideoReceiveRouter φ) (post : List (RouterOp φ)) :
    Prop where
  received : ∀ x ∈ deliveredTo stream (r.run post).2,
    ∃ nowUs, .onFrame stream x.2 nowUs ∈ post
  decodable : DecodableChain
    ((deliveredTo stream (r.run (untilReopen stream post)).2).map Prod.fst)

/-- Every opening in a run of a new router is isolated from what came before. -/
def RunIsolated (cfg : VideoReceiveRouterConfig) (ops : List (RouterOp φ)) : Prop :=
  ∀ pre stream nowUs post, ops = pre ++ .openStream stream nowUs :: post →
    Isolated stream (((new cfg).run pre).1.openStream stream nowUs) post

/-- An opened stream has no frame left in its queue or in the batch. -/
def OpensClean (r : VideoReceiveRouter φ) : RouterOp φ → Prop
  | .openStream stream _ => r.pending stream = [] ∧ ∀ p ∈ r.due, p.1 ≠ stream
  | _ => True

omit [FrameBytes φ] in
theorem flow_eq_nil_iff {r : VideoReceiveRouter φ} :
    flow stream r = [] ↔ r.pending stream = [] ∧ ∀ p ∈ r.due, p.1 ≠ stream := by
  simp [flow, and_comm]

omit [FrameBytes φ] in
theorem mem_untilReopen {ops : List (RouterOp φ)} :
    ∀ op ∈ untilReopen stream ops, ∀ nowUs, op ≠ .openStream stream nowUs := by
  rintro op hop nowUs rfl
  have hkept := List.all_eq_true.mp List.all_takeWhile _ hop
  simp at hkept

/-- An opening with an empty flow is isolated. -/
theorem isolated_of_flow_nil {r : VideoReceiveRouter φ} (hplayout : r.cfg.playout = true)
    (hflow : flow stream r = []) (nowUs : Int) (post : List (RouterOp φ)) :
    Isolated stream (r.openStream stream nowUs) post := by
  constructor
  · have hfrom : AllFrom (fun frame => ∃ t, .onFrame stream frame t ∈ post) stream
        (r.openStream stream nowUs) :=
      openStream_allFrom hplayout (by simp [hflow]) nowUs
    refine hfrom.run fun op hop frame hbrings => ?_
    cases op with
    | onFrame s f t =>
        obtain ⟨rfl, rfl⟩ := hbrings
        exact ⟨t, hop⟩
    | _ => exact hbrings.elim
  · have hchained : Chained stream (r.openStream stream nowUs) [] := by
      refine ⟨hplayout, none, ?_, fun b hb => ?_⟩
      · show ChainPath none ((flow stream r).map Prod.fst) none
        rw [hflow]
        rfl
      · simp only [bufferOf, openStream, Function.update_self, Option.map_some,
          Option.some.injEq] at hb
        subst hb
        rfl
    obtain ⟨_, a, hpath, _⟩ := hchained.run mem_untilReopen
    rw [List.nil_append, List.map_append] at hpath
    obtain ⟨a', hdelivered⟩ := chainPath_prefix hpath (List.prefix_append _ _)
    exact .of_path hdelivered

/-- The playout thread hands out its batch. -/
theorem run_deliverBatch (r : VideoReceiveRouter φ) :
    r.run (List.replicate r.due.length .deliverNext) =
      ({ r with due := [] }, r.due.map fun p => .deliver p.1 p.2.hdr p.2.frame) := by
  generalize hdue : r.due = due
  induction due generalizing r with
  | nil =>
      obtain ⟨cfg, streams, rttUs, pacing, pacingStats, pending, due⟩ := r
      dsimp only at hdue
      subst hdue
      rfl
  | cons p due ih =>
      have hstep : r.step .deliverNext = ({ r with due := due },
          [.deliver p.1 p.2.hdr p.2.frame]) := by
        simp only [VideoReceiveRouter.step, deliverNext, hdue]
      rw [List.length_cons, List.replicate_succ, run_cons, hstep, ih { r with due := due } rfl]
      rfl

/-- What is left in the flow when a stream is opened can reach its decoder with
nothing received in between. -/
theorem exists_stale_delivery {r : VideoReceiveRouter φ} (hflow : flow stream r ≠ []) :
    ∃ post : List (RouterOp φ), (∀ frame nowUs, .onFrame stream frame nowUs ∉ post) ∧
      deliveredTo stream (r.run post).2 ≠ [] := by
  by_cases hdue : ∃ p ∈ r.due, p.1 = stream
  · obtain ⟨p, hp, hs⟩ := hdue
    refine ⟨List.replicate r.due.length .deliverNext, by simp, ?_⟩
    rw [run_deliverBatch]
    refine List.ne_nil_of_mem (a := (p.2.hdr, p.2.frame)) (List.mem_filterMap.mpr ?_)
    exact ⟨_, List.mem_map.mpr ⟨p, hp, rfl⟩, if_pos hs⟩
  · have hpending : r.pending stream ≠ [] := fun hnil => hflow (flow_eq_nil_iff.mpr ⟨hnil, fun p hp hs =>
      hdue ⟨p, hp, hs⟩⟩)
    obtain ⟨p, queue, hqueue⟩ := List.exists_cons_of_ne_nil hpending
    -- hand out the batch, fetch the first frame of the queue, hand it out
    refine ⟨List.replicate r.due.length .deliverNext ++
      [.collect p.atUs [(stream, 1)], .deliverNext], by simp, ?_⟩
    have hsplit : splitDue p.atUs [p] = ([p], []) := by simp [splitDue]
    rw [run_append, run_deliverBatch]
    simp [run_cons, VideoReceiveRouter.step, collect, deliverNext, deliveredTo, hqueue, hsplit]

/-- A run isolates every opening if it opens streams with empty queues only; an
opening of any other stream is not isolated in every continuation of the run. -/
theorem runIsolated_iff_opensClean (cfg : VideoReceiveRouterConfig) (hplayout : cfg.playout = true) :
    (∀ ops : List (RouterOp φ),
      Machine.AllSteps (fun r op => (VideoReceiveRouter.step r op).1) OpensClean (new cfg) ops →
        RunIsolated cfg ops) ∧
    ∀ (pre : List (RouterOp φ)) (stream : StreamId) (nowUs : Int),
      ¬ OpensClean ((new cfg).run pre).1 (.openStream stream nowUs) →
        ∃ post, ¬ RunIsolated cfg (pre ++ .openStream stream nowUs :: post) := by
  have hnew : (new cfg : VideoReceiveRouter φ).cfg.playout = true := hplayout
  constructor
  · rintro ops hclean pre stream nowUs post rfl
    have hopen := (Machine.allSteps_append.mp hclean).2.1
    rw [← run_fst] at hopen
    exact isolated_of_flow_nil (run_playout hnew pre) (flow_eq_nil_iff.mpr hopen) nowUs post
  · intro pre stream nowUs hstale
    have hflow : flow stream (((new cfg).run pre).1.openStream stream nowUs) ≠ [] :=
      fun hnil => hstale (flow_eq_nil_iff.mp hnil)
    obtain ⟨post, hnone, hdelivered⟩ := exists_stale_delivery hflow
    refine ⟨post, fun hisolated => ?_⟩
    obtain ⟨x, hx⟩ := List.exists_mem_of_ne_nil _ hdelivered
    obtain ⟨t, hin⟩ := (hisolated pre stream nowUs post rfl).received x hx
    exact hnone x.2 t hin

/-- Keyframe 9, from before a restart. -/
def oldKeyframe : Bytes := ({ frameSeq := 9, flags := VIDEO_FLAG_KEYFRAME } : VideoFrameHeader).write

/-- Reopening after the frame was handed on is clean. -/
theorem runIsolated_iff_opensClean_drained :
    RunIsolated {} ([.openStream 5 0, .onFrame 5 oldKeyframe 10, .collect 20 [(5, 1)],
      .deliverNext, .openStream 5 0] : List (RouterOp Bytes)) := by
  refine (runIsolated_iff_opensClean {} rfl).1 _ ⟨⟨rfl, ?_⟩, trivial, trivial, trivial, ⟨?_, ?_⟩, trivial⟩
  · intro p hp
    cases hp
  · decide
  · intro p hp
    cases hp

/-- Reopened while the frame waits in the queue, the stream still hands it on. -/
theorem not_runIsolated :
    ¬ ∀ (cfg : VideoReceiveRouterConfig) (ops : List (RouterOp Bytes)), cfg.playout = true →
      RunIsolated cfg ops := by
  intro hclaim
  have hisolated := hclaim {} _ rfl [.openStream 5 0, .onFrame 5 oldKeyframe 10] 5 0
    [.collect 20 [(5, 1)], .deliverNext] rfl
  have hdelivered : deliveredTo 5 (((((new {}).run
      [.openStream 5 0, .onFrame 5 oldKeyframe 10]).1.openStream 5 0).run
        ([.collect 20 [(5, 1)], .deliverNext] : List (RouterOp Bytes))).2) =
      [({ frameSeq := 9, flags := VIDEO_FLAG_KEYFRAME }, oldKeyframe)] := by
    decide
  obtain ⟨t, hin⟩ := hisolated.received ({ frameSeq := 9, flags := VIDEO_FLAG_KEYFRAME }, oldKeyframe)
    (by rw [hdelivered]; simp)
  simp at hin

end VideoReceiveRouter

end Parties.Video

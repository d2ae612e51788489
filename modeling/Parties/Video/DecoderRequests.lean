import Parties.Video.DecodeLoop

/-!
# The keyframe requests of a watched stream

Every closing of the gate that asks for a keyframe is followed by one `send_pli` of the thread
that closed it; a stale flush asks only if the tracker lets it. The tracker is called under the
lock, from the decode thread and from the main thread, so the law of its runs holds of the
calls in the order of the log.
-/

namespace Parties.Video

namespace DecodeEvent

def trackerCall? : DecodeEvent → Option TrackerCall
  | .trackerCall call => some call
  | _ => none

/-- Whether a stale flush asks. -/
def flushAnswer? : DecodeEvent → Option Bool
  | .gateClosed (.staleFlush request) => some request
  | _ => none

/-- A closing of the gate that is to be followed by a request. -/
def asks : DecodeEvent → Bool
  | .gateClosed .discontinuity | .gateClosed .recovery => true
  | .gateClosed (.staleFlush request) => request
  | _ => false

/-- An event that has nothing to do with requests. -/
def Quiet : DecodeEvent → Prop
  | .initDecoder _ _ | .decode _ _ _ | .shutdownDecoder => True
  | .gateClosed _ | .requestKeyframe | .trackerCall _ => False

theorem Quiet.silent {e : DecodeEvent} (h : e.Quiet) :
    e.trackerCall? = none ∧ e.flushAnswer? = none ∧ e ≠ .requestKeyframe ∧ e.asks = false := by
  cases e with
  | initDecoder format hardware => exact ⟨rfl, rfl, nofun, rfl⟩
  | decode work suppressOutput decoded => exact ⟨rfl, rfl, nofun, rfl⟩
  | shutdownDecoder => exact ⟨rfl, rfl, nofun, rfl⟩
  | gateClosed why => exact h.elim
  | requestKeyframe => exact h.elim
  | trackerCall call => exact h.elim

end DecodeEvent

def trackerCalls (log : List DecodeEvent) : List TrackerCall :=
  log.filterMap DecodeEvent.trackerCall?

theorem trackerCalls_append (log events : List DecodeEvent) :
    trackerCalls (log ++ events) = trackerCalls log ++ trackerCalls events :=
  List.filterMap_append

namespace VideoStream

open VideoDecodeStaleFlushTracker

/-- The requests that are decided but not sent. -/
def pendingRequests (s : VideoStream) : Nat :=
  s.senderAsking.toNat + (decide (s.phase = .asking)).toNat

/-! ### One step -/

/-- What a step at `nowUs` does to the requests. -/
inductive RequestStep (s s' : VideoStream) (nowUs : Int) : List DecodeEvent → Prop where
  | quiet {events : List DecodeEvent} (htracker : s'.staleFlushes = s.staleFlushes)
      (hpending : s'.pendingRequests = s.pendingRequests) (hquiet : ∀ e ∈ events, e.Quiet) :
      RequestStep s s' nowUs events
  | closed {why : GateClosing} {events : List DecodeEvent}
      (htracker : s'.staleFlushes = s.staleFlushes)
      (hwhy : why = .discontinuity ∨ why = .recovery)
      (hpending : s'.pendingRequests = s.pendingRequests + 1) (hquiet : ∀ e ∈ events, e.Quiet) :
      RequestStep s s' nowUs (.gateClosed why :: events)
  | flushed (htracker : s'.staleFlushes = s.staleFlushes.next (.staleFlush nowUs))
      (hpending : s'.pendingRequests =
        s.pendingRequests + (s.staleFlushes.event (.staleFlush nowUs)).granted.toNat) :
      RequestStep s s' nowUs
        [.gateClosed (.staleFlush (s.staleFlushes.event (.staleFlush nowUs)).granted),
          .trackerCall (.staleFlush nowUs)]
  | requested (htracker : s'.staleFlushes = s.staleFlushes)
      (hpending : s'.pendingRequests + 1 = s.pendingRequests) :
      RequestStep s s' nowUs [.requestKeyframe]
  | called {call : TrackerCall} {events : List DecodeEvent} (hflush : call.isFlush = false)
      (hnow : call.nowUs = nowUs) (hasked : s.staleFlushes.AskedSuppressed call)
      (htracker : s'.staleFlushes = s.staleFlushes.next call)
      (hpending : s'.pendingRequests = s.pendingRequests) (hquiet : ∀ e ∈ events, e.Quiet) :
      RequestStep s s' nowUs (events ++ [.trackerCall call])

variable {s : VideoStream} {nowUs : Int}

theorem onVideoFrameReceived_requests (hidle : s.senderAsking = false) (data : Bytes) :
    RequestStep s (s.onVideoFrameReceived data nowUs).1 nowUs
      (s.onVideoFrameReceived data nowUs).2 := by
  have hsame : RequestStep s s nowUs [] := .quiet rfl rfl (by simp)
  unfold onVideoFrameReceived
  split
  · exact hsame
  next hdr hparse =>
    dsimp only
    split
    · exact hsame
    · unfold enqueueDecodeWork
      split
      · exact hsame
      · cases hgate : s.decodeGate.onFrame hdr.frameSeq hdr.keyframe with
        | mk decision gate =>
          cases decision with
          | accept => exact .quiet rfl rfl (by simp)
          | dropUntilKeyframe => exact .quiet rfl rfl (by simp)
          | discontinuity =>
            refine .closed rfl (.inl rfl) ?_ (by simp)
            simp [pendingRequests, hidle]
            omega

theorem sendPli_requests : RequestStep s s.sendPli.1 nowUs s.sendPli.2 := by
  unfold sendPli
  split
  next hasking =>
    refine .requested rfl ?_
    simp [pendingRequests, hasking]
    omega
  · exact .quiet rfl rfl (by simp)

theorem streamAwaitingKeyframe_requests :
    RequestStep s (s.streamAwaitingKeyframe nowUs).2.1 nowUs
      (s.streamAwaitingKeyframe nowUs).2.2 := by
  have hsame : RequestStep s s nowUs [] := .quiet rfl rfl (by simp)
  unfold streamAwaitingKeyframe
  split
  · exact hsame
  · split
    · exact hsame
    · split
      · exact hsame
      next hsuppressed =>
        have hquiet : ∀ e ∈ ([] : List DecodeEvent), e.Quiet := by simp
        exact @RequestStep.called s _ nowUs (.slowRequest nowUs) [] rfl rfl
          (fun _ => by simpa using hsuppressed) rfl rfl hquiet

theorem prepareDecoder_quiet (s : VideoStream) (work : DecodeWork) (initOk : Bool) :
    ∀ e ∈ (s.prepareDecoder work initOk).2.1, e.Quiet := by
  unfold prepareDecoder
  split
  · simp
  · cases initOk <;> cases s.decoder <;> simp [DecodeEvent.Quiet]

/-- While the thread decodes it owes no request. -/
theorem pendingRequests_of_phase {s' : VideoStream} (hsender : s'.senderAsking = s.senderAsking)
    (hphase : s.phase ≠ .asking) (hphase' : s'.phase ≠ .asking) :
    s'.pendingRequests = s.pendingRequests := by
  simp [pendingRequests, hsender, hphase, hphase']

theorem decodeOne_requests {work : DecodeWork} {rest : List DecodeWork}
    (hphase : s.phase = .decoding (work :: rest)) (turn : DecodeTurn) :
    RequestStep s (s.decodeOne work rest turn nowUs).1 nowUs
      (s.decodeOne work rest turn nowUs).2 := by
  have hnot : s.phase ≠ .asking := by simp [hphase]
  have hquiet := s.prepareDecoder_quiet work turn.initOk
  obtain ⟨warm, hprepared⟩ := s.prepareDecoder_eq work turn.initOk
  unfold decodeOne
  split
  · exact .quiet rfl (pendingRequests_of_phase rfl hnot (by simp)) (by simp)
  · generalize s.prepareDecoder work turn.initOk = prepared at *
    obtain ⟨s', events, ok⟩ := prepared
    subst hprepared
    cases ok with
    | false => exact .quiet rfl (pendingRequests_of_phase rfl hnot (by simp)) hquiet
    | true =>
      have hdecoded : ∀ e ∈ events ++ [.decode work (decide (rest ≠ [])) turn.decoded], e.Quiet :=
        List.forall_mem_append.mpr ⟨hquiet, by simp [DecodeEvent.Quiet]⟩
      dsimp only
      split
      · split
        · exact .quiet rfl (pendingRequests_of_phase rfl hnot (by simp)) hdecoded
        · exact .quiet rfl (pendingRequests_of_phase rfl hnot (by simp)) hdecoded
      · split
        · exact .quiet rfl (pendingRequests_of_phase rfl hnot (by simp)) hdecoded
        · exact .called rfl rfl Bool.noConfusion rfl
            (pendingRequests_of_phase rfl hnot (by simp)) hdecoded

theorem flushBacklog_requests (hphase : s.phase = .flushing) :
    RequestStep s (s.flushBacklog nowUs).1 nowUs (s.flushBacklog nowUs).2 := by
  refine .flushed rfl ?_
  have hgranted : (s.staleFlushes.event (.staleFlush nowUs)).granted =
    (s.staleFlushes.onStaleFlush nowUs).2 := rfl
  rw [hgranted]
  unfold flushBacklog
  cases hrequest : (s.staleFlushes.onStaleFlush nowUs).2 <;>
    simp [pendingRequests, hphase, hrequest]

theorem recoverAtKeyframe_requests {disableHardware : Bool}
    (hphase : s.phase = .recovering disableHardware) :
    RequestStep s (s.recoverAtKeyframe disableHardware).1 nowUs
      (s.recoverAtKeyframe disableHardware).2 := by
  refine .closed rfl (.inr rfl) ?_ ?_
  · simp [recoverAtKeyframe, pendingRequests, hphase]
  · cases s.decoder <;> simp [DecodeEvent.Quiet]

theorem decodeStep_requests (turn : DecodeTurn) :
    RequestStep s (s.decodeStep turn nowUs).1 nowUs (s.decodeStep turn nowUs).2 := by
  have hidle : ∀ s' : VideoStream, s.phase ≠ .asking → s'.phase ≠ .asking →
      s'.staleFlushes = s.staleFlushes → s'.senderAsking = s.senderAsking →
        RequestStep s s' nowUs [] :=
    fun s' hphase hphase' htracker hsender =>
      .quiet htracker (pendingRequests_of_phase hsender hphase hphase') (by simp)
  unfold decodeStep
  split
  next hphase =>
    unfold takeBatch
    split
    · exact hidle _ (by simp [hphase]) (by simp) rfl rfl
    · split
      · exact .quiet rfl rfl (by simp)
      · exact hidle _ (by simp [hphase]) (by simp) rfl rfl
  next batch hphase =>
    obtain hnext | ⟨retained, hnext, -⟩ := s.judgeBatch_cases batch nowUs
    · rw [hnext]
      exact hidle _ (by simp [hphase]) (by simp) rfl rfl
    · rw [hnext]
      exact hidle _ (by simp [hphase]) (by simp) rfl rfl
  next hphase =>
    exact hidle _ (by simp [hphase]) (by simp) rfl rfl
  · exact decodeOne_requests ‹_› turn
  · exact flushBacklog_requests ‹_›
  · exact recoverAtKeyframe_requests ‹_›
  next hphase =>
    refine .requested rfl ?_
    simp [askForKeyframe, pendingRequests, hphase]
  · exact .quiet rfl rfl (by simp)

theorem step_requests (s : VideoStream) (op : Int × DecodeOp) :
    RequestStep s (s.step op).1 op.1 (s.step op).2 := by
  obtain ⟨nowUs, op⟩ := op
  cases op with
  | frame data =>
    cases hidle : s.senderAsking with
    | true =>
      simp only [step, hidle, if_true]
      exact .quiet rfl rfl (by simp)
    | false =>
      simp only [step, hidle, Bool.false_eq_true, if_false]
      exact onVideoFrameReceived_requests hidle data
  | sendPli => exact sendPli_requests
  | decodeThread turn => exact decodeStep_requests turn
  | poll => exact streamAwaitingKeyframe_requests
  | stop => exact .quiet rfl rfl (List.forall_mem_nil _)

end VideoStream

/-! ### Runs -/

namespace VideoStream

open VideoDecodeStaleFlushTracker

structure Requests (s : VideoStream) (log : List DecodeEvent) : Prop where
  tracker : s.staleFlushes = Machine.run next {} (trackerCalls log)
  asked : Machine.AllSteps next AskedSuppressed {} (trackerCalls log)
  /-- A flush asks if the tracker has granted it the request. -/
  answered : log.filterMap DecodeEvent.flushAnswer? =
    ((VideoDecodeStaleFlushTracker.log {} (trackerCalls log)).filter (·.call.isFlush)).map
      (·.granted)
  accounted : log.count .requestKeyframe + s.pendingRequests = log.countP DecodeEvent.asks

theorem quiet_events {events : List DecodeEvent} (hquiet : ∀ e ∈ events, e.Quiet) :
    trackerCalls events = [] ∧ events.filterMap DecodeEvent.flushAnswer? = [] ∧
      events.count .requestKeyframe = 0 ∧ events.countP DecodeEvent.asks = 0 := by
  refine ⟨List.filterMap_eq_nil_iff.mpr fun e he => (hquiet e he).silent.1,
    List.filterMap_eq_nil_iff.mpr fun e he => (hquiet e he).silent.2.1,
    List.count_eq_zero.mpr fun he => (hquiet _ he).silent.2.2.1 rfl,
    List.countP_eq_zero.mpr fun e he => ?_⟩
  rw [(hquiet e he).silent.2.2.2]
  exact Bool.false_ne_true

/-- A step adds the calls it makes of the tracker, and settles what it owes. -/
theorem Requests.append {s' : VideoStream} {log events : List DecodeEvent} (h : Requests s log)
    {calls : List TrackerCall} (hcalls : trackerCalls events = calls)
    (htracker : s'.staleFlushes = Machine.run next s.staleFlushes calls)
    (hasked : Machine.AllSteps next AskedSuppressed s.staleFlushes calls)
    (hanswers : events.filterMap DecodeEvent.flushAnswer? =
      ((s.staleFlushes.log calls).filter (·.call.isFlush)).map (·.granted))
    (hsettled : events.count .requestKeyframe + s'.pendingRequests =
      s.pendingRequests + events.countP DecodeEvent.asks) : Requests s' (log ++ events) := by
  have hall : trackerCalls (log ++ events) = trackerCalls log ++ calls := by
    rw [trackerCalls_append, hcalls]
  refine ⟨?_, ?_, ?_, ?_⟩
  · rw [hall, Machine.run_append, ← h.tracker]
    exact htracker
  · rw [hall]
    exact Machine.allSteps_append.mpr ⟨h.asked, h.tracker ▸ hasked⟩
  · rw [hall, log_append, List.filterMap_append, List.filter_append, List.map_append, h.answered,
      hanswers, ← h.tracker]
  · rw [List.count_append, List.countP_append, ← h.accounted, Nat.add_assoc, hsettled,
      Nat.add_assoc]

theorem Requests.step {s' : VideoStream} {log events : List DecodeEvent} (h : Requests s log)
    (hstep : RequestStep s s' nowUs events) : Requests s' (log ++ events) := by
  cases hstep with
  | quiet htracker hpending hquiet =>
    obtain ⟨hcalls, hanswers, hcount, hasks⟩ := quiet_events hquiet
    refine h.append hcalls htracker trivial hanswers ?_
    rw [hcount, hasks, hpending, Nat.zero_add, Nat.add_zero]
  | @closed why events htracker hwhy hpending hquiet =>
    obtain ⟨hcalls, hanswers, hcount, hasks⟩ := quiet_events hquiet
    have hclosing : DecodeEvent.flushAnswer? (.gateClosed why) = none ∧
        DecodeEvent.asks (.gateClosed why) = true := by
      obtain rfl | rfl := hwhy <;> exact ⟨rfl, rfl⟩
    refine h.append hcalls htracker trivial ?_ ?_
    · rw [List.filterMap_cons, hclosing.1]
      exact hanswers
    · have hother : DecodeEvent.gateClosed why ≠ .requestKeyframe := nofun
      rw [List.count_cons_of_ne hother, List.countP_cons_of_pos hclosing.2, hcount, hasks,
        hpending, Nat.zero_add, Nat.zero_add]
  | flushed htracker hpending =>
    have hasks : ∀ granted, [.gateClosed (.staleFlush granted),
        .trackerCall (.staleFlush nowUs)].countP DecodeEvent.asks = granted.toNat := by
      intro granted
      cases granted <;> rfl
    refine h.append rfl htracker ⟨Bool.noConfusion, trivial⟩ rfl ?_
    rw [hasks, hpending]
    exact Nat.zero_add _
  | requested htracker hpending =>
    refine h.append rfl htracker trivial rfl ?_
    rw [← hpending]
    exact Nat.add_comm _ _
  | @called call events hflush hnow hasked htracker hpending hquiet =>
    obtain ⟨hcalls, hanswers, hcount, hasks⟩ := quiet_events hquiet
    have hcall : trackerCalls (events ++ [.trackerCall call]) = [call] := by
      rw [trackerCalls_append, hcalls]
      rfl
    have hother : (s.staleFlushes.event call).call.isFlush = false := hflush
    refine h.append hcall htracker ⟨hasked, trivial⟩ ?_ ?_
    · rw [List.filterMap_append, hanswers, VideoDecodeStaleFlushTracker.log, List.filter_cons,
        hother]
      rfl
    · rw [List.count_append, List.countP_append, hcount, hasks, hpending, Nat.add_comm]
      rfl

theorem requests_new (selfPreview : Bool) : Requests (new selfPreview) [] :=
  ⟨rfl, trivial, rfl, rfl⟩

theorem requests_run (selfPreview : Bool) (ops : List (Int × DecodeOp)) :
    Requests (run selfPreview ops).1 (run selfPreview ops).2 := by
  let Inv : VideoStream × List DecodeEvent → Prop := fun r => Requests r.1 r.2
  have hstep : ∀ r op, Inv r → Inv (Machine.logged VideoStream.step r op) :=
    fun r op hr => hr.step (r.1.step_requests op)
  exact Machine.run_preserves hstep (requests_new selfPreview) ops

/-- A step calls the tracker at most once, at its own time. -/
theorem RequestStep.times {s' : VideoStream} {events : List DecodeEvent}
    (h : RequestStep s s' nowUs events) :
    ((trackerCalls events).map TrackerCall.nowUs).Sublist [nowUs] := by
  cases h with
  | quiet htracker hpending hquiet =>
    rw [(quiet_events hquiet).1]
    exact List.nil_sublist _
  | closed htracker hwhy hpending hquiet =>
    have hcalls := (quiet_events hquiet).1
    rw [← List.singleton_append, trackerCalls_append, hcalls]
    exact List.nil_sublist _
  | flushed htracker hpending => exact List.Sublist.refl _
  | requested htracker hpending => exact List.nil_sublist _
  | called hflush hnow hasked htracker hpending hquiet =>
    have hcalls := (quiet_events hquiet).1
    rw [trackerCalls_append, hcalls, ← hnow]
    exact List.Sublist.refl _

/-- The tracker is called in the order of the steps. -/
theorem trackerCalls_times (selfPreview : Bool) (ops : List (Int × DecodeOp)) :
    ((trackerCalls (run selfPreview ops).2).map TrackerCall.nowUs).Sublist
      (ops.map Prod.fst) := by
  induction ops using List.reverseRecOn with
  | nil => exact List.Sublist.refl _
  | append_singleton ops op ih =>
    have hlog : (run selfPreview (ops ++ [op])).2 =
        (run selfPreview ops).2 ++ ((run selfPreview ops).1.step op).2 := by
      rw [run, Machine.run_append]
      rfl
    rw [hlog, trackerCalls_append, List.map_append, List.map_append]
    exact ih.append ((run selfPreview ops).1.step_requests op).times

/-- A run of flushes is no longer than their number. -/
theorem counted_of_few {calls : List TrackerCall}
    (hfew : calls.countP TrackerCall.isFlush < 2 ^ 32) :
    Machine.AllSteps next Counted {} calls ∧
      (Machine.run next {} calls).staleFlushesInARow.toNat ≤ calls.countP TrackerCall.isFlush := by
  induction calls using List.reverseRecOn with
  | nil => exact ⟨trivial, le_rfl⟩
  | append_singleton calls call ih =>
    rw [List.countP_append, List.countP_singleton] at hfew ⊢
    obtain ⟨hcounted, hcount⟩ := ih (by omega)
    rw [Machine.run_append]
    cases call with
    | staleFlush nowUs =>
      have hlt : (Machine.run next {} calls).staleFlushesInARow.toNat + 1 < 2 ^ 32 := by
        simp only [TrackerCall.isFlush, if_true] at hfew
        omega
      refine ⟨Machine.allSteps_append.mpr ⟨hcounted, fun _ => hlt, trivial⟩, ?_⟩
      rw [Machine.run_cons, Machine.run_nil, count_staleFlush nowUs hlt]
      simp only [TrackerCall.isFlush, if_true]
      omega
    | slowRequest nowUs =>
      refine ⟨Machine.allSteps_append.mpr ⟨hcounted, Bool.noConfusion, trivial⟩, ?_⟩
      rw [Machine.run_cons, Machine.run_nil, next_slowRequest_count]
      omega
    | frameDecoded nowUs recovery =>
      refine ⟨Machine.allSteps_append.mpr ⟨hcounted, Bool.noConfusion, trivial⟩, ?_⟩
      have hle : ∀ t : VideoDecodeStaleFlushTracker,
          (t.next (.frameDecoded nowUs recovery)).staleFlushesInARow.toNat ≤
            t.staleFlushesInARow.toNat := by
        intro t
        unfold next VideoDecodeStaleFlushTracker.step onFrameDecoded
        dsimp only
        split_ifs <;> simp
      exact (hle _).trans (by omega)

/-- The requests of a stream over a run. Of the requests that stale flushes ask for, at most two
belong to one run of flushes; those of the main thread keep the slow cadence. -/
structure RequestsLimited (s : VideoStream) (log : List DecodeEvent) : Prop where
  /-- Every closing of the gate that asks is followed by one request, and nothing else in the decoder
  of the stream asks: the receive router repeats the requests of its own reorder buffer at its ticks,
  and those are not in this log. -/
  accounted : log.count .requestKeyframe + s.pendingRequests = log.countP DecodeEvent.asks
  answered : log.filterMap DecodeEvent.flushAnswer? =
    ((VideoDecodeStaleFlushTracker.log {} (trackerCalls log)).filter (·.call.isFlush)).map
      (·.granted)
  antiFlap : AntiFlap (VideoDecodeStaleFlushTracker.log {} (trackerCalls log))

theorem requests_limited (selfPreview : Bool) (ops : List (Int × DecodeOp))
    (hclock : (ops.map Prod.fst).Pairwise (· ≤ ·))
    (hfew : (trackerCalls (run selfPreview ops).2).countP TrackerCall.isFlush < 2 ^ 32) :
    RequestsLimited (run selfPreview ops).1 (run selfPreview ops).2 := by
  have hrun := requests_run selfPreview ops
  have hsorted := hclock.sublist (trackerCalls_times selfPreview ops)
  rw [List.pairwise_map] at hsorted
  exact ⟨hrun.accounted, hrun.answered, antiFlap_of_counted hsorted hrun.asked (counted_of_few hfew).1⟩

/-- A keyframe that is decoded, and deltas that wait for half a second. -/
def staleRun : List (Int × DecodeOp) :=
  [(0, .frame (keyframeBytes 1 ++ [1])), (1, .decodeThread {}), (2, .decodeThread {}),
    (3, .decodeThread {}), (4, .decodeThread {}), (10, .frame (deltaFrameBytes 2 ++ [2])),
    (20, .decodeThread {}), (600000, .decodeThread {}), (600001, .decodeThread {}),
    (600002, .poll), (600003, .decodeThread {})]

theorem requests_limited_stale : RequestsLimited (run false staleRun).1 (run false staleRun).2 :=
  requests_limited false staleRun (by decide) (by decide)

end VideoStream

end Parties.Video

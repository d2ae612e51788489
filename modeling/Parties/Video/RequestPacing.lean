import Parties.Video.ReceiveRouter

/-!
# The pacing of keyframe requests

What the router does under its pacing mutex is one of five calls, and callers on several
threads may make them in any order. So the law is about every sequence of these calls:
the requests sent since the last reset of a stream decide when the next one may go. A run
of the router is such a sequence, and the requests it sends are those of the calls.
-/

namespace Parties.Video

/-- What happens under the pacing mutex. -/
inductive PacingCall where
  | openStream (stream : StreamId) (nowUs : Int)
  | close (stream : StreamId)
  | closeAll
  | keyframeArrived (stream : StreamId)
  | requestKeyframe (stream : StreamId) (nowUs : Int)
deriving DecidableEq, Repr

namespace VideoReceiveRouter

variable {φ : Type}

def pacingStep (r : VideoReceiveRouter φ) :
    PacingCall → VideoReceiveRouter φ × List (RouterEvent φ)
  | .openStream stream nowUs => (r.openStream stream nowUs, [])
  | .close stream => (r.close stream, [])
  | .closeAll => (r.closeAll, [])
  | .keyframeArrived stream => (r.keyframeArrived stream, [])
  | .requestKeyframe stream nowUs => r.requestKeyframe stream nowUs

/-- A request of a stream goes out. -/
def sends (r : VideoReceiveRouter φ) (stream : StreamId) (nowUs : Int) : Bool :=
  !(r.requestKeyframe stream nowUs).2.isEmpty

/-! ### The history of a stream -/

/-- What happened to a stream since its pacing was reset. -/
structure PacingHistory where
  /-- The time it was opened at, if it was opened at one. -/
  openedAt : Option Int := none
  /-- The requests sent, newest first. -/
  sentAt : List Int := []
deriving DecidableEq, Repr

def PacingHistory.next (stream : StreamId) (r : VideoReceiveRouter φ) (h : PacingHistory) :
    PacingCall → PacingHistory
  | .openStream other nowUs =>
    if other = stream then { openedAt := if nowUs ≠ 0 then some nowUs else none } else h
  | .close other | .keyframeArrived other => if other = stream then {} else h
  | .closeAll => {}
  | .requestKeyframe other nowUs =>
    if other = stream && r.sends stream nowUs then { h with sentAt := nowUs :: h.sentAt } else h

/-- A router with the history of one of its streams, one call on. -/
def recordedStep (stream : StreamId) (s : VideoReceiveRouter φ × PacingHistory)
    (call : PacingCall) : VideoReceiveRouter φ × PacingHistory :=
  ((s.1.pacingStep call).1, s.2.next stream s.1 call)

/-- A new router after the calls, with the history of a stream. -/
def recorded (cfg : VideoReceiveRouterConfig) (stream : StreamId) (calls : List PacingCall) :
    VideoReceiveRouter φ × PacingHistory :=
  Machine.run (recordedStep stream) (new cfg, {}) calls

end VideoReceiveRouter

/-! ### The law -/

/-- The distance from a request to the next one, with `n` requests sent before it. -/
def VideoReceiveRouterConfig.intervalUs (cfg : VideoReceiveRouterConfig) (n : Nat) : Int :=
  min (cfg.normalized.baseBackoffMs * 1000 * 2 ^ n) (cfg.normalized.maxBackoffMs * 1000)

namespace VideoReceiveRouter

variable {φ : Type}

/-- The time before which no request goes out. -/
def nextAllowed (cfg : VideoReceiveRouterConfig) (h : PacingHistory) : Int :=
  match h.sentAt with
  | last :: before => last + cfg.intervalUs before.length
  | [] =>
    match h.openedAt with
    | some openedAt => openedAt + cfg.normalized.baseBackoffMs * 1000
    | none => 0

theorem base_pos (cfg : VideoReceiveRouterConfig) : 0 < cfg.normalized.baseBackoffMs := by
  unfold VideoReceiveRouterConfig.normalized
  dsimp only
  split
  · exact Nat.one_pos
  next hpos =>
    exact Nat.pos_of_ne_zero hpos

theorem base_le_max (cfg : VideoReceiveRouterConfig) :
    cfg.normalized.baseBackoffMs ≤ cfg.normalized.maxBackoffMs := by
  unfold VideoReceiveRouterConfig.normalized
  dsimp only
  split
  next hzero =>
    split <;> omega
  · split <;> omega

theorem intervalUs_zero (cfg : VideoReceiveRouterConfig) :
    cfg.intervalUs 0 = cfg.normalized.baseBackoffMs * 1000 := by
  have hle := base_le_max cfg
  rw [VideoReceiveRouterConfig.intervalUs, pow_zero, mul_one]
  omega

theorem intervalUs_succ (cfg : VideoReceiveRouterConfig) (n : Nat) :
    cfg.intervalUs (n + 1) =
      min (cfg.intervalUs n * 2) (cfg.normalized.maxBackoffMs * 1000) := by
  rw [VideoReceiveRouterConfig.intervalUs, VideoReceiveRouterConfig.intervalUs, pow_succ,
    ← mul_assoc]
  generalize (cfg.normalized.baseBackoffMs : Int) * 1000 * 2 ^ n = backoff
  omega

theorem intervalUs_pos (cfg : VideoReceiveRouterConfig) (n : Nat) : 0 < cfg.intervalUs n := by
  have hbase := base_pos cfg
  have hle := base_le_max cfg
  apply lt_min
  · have hpow : (0 : Int) < 2 ^ n := Int.pow_pos (by decide)
    apply Int.mul_pos _ hpow
    omega
  · omega

/-- The pacing of a stream says what its history asks for. -/
structure Paced (cfg : VideoReceiveRouterConfig) (stream : StreamId)
    (s : VideoReceiveRouter φ × PacingHistory) : Prop where
  config : s.1.cfg = cfg.normalized
  nextUs : ((s.1.pacing stream).getD {}).nextUs = nextAllowed cfg s.2
  backoffUs : ((s.1.pacing stream).getD {}).backoffUs = cfg.intervalUs s.2.sentAt.length ∨
    ((s.1.pacing stream).getD {}).backoffUs = 0 ∧ s.2.sentAt = []
  opened : ∀ openedAt ∈ s.2.openedAt, ∀ sent ∈ s.2.sentAt,
    openedAt + cfg.normalized.baseBackoffMs * 1000 ≤ sent

/-! #### One call -/

/-- The pacing a request finds, with its backoff started. -/
def startPacing (r : VideoReceiveRouter φ) (stream : StreamId) : Pacing :=
  let p := (r.pacing stream).getD {}
  { p with backoffUs := if p.backoffUs = 0 then r.cfg.baseBackoffMs * 1000 else p.backoffUs }

theorem requestKeyframe_eq (r : VideoReceiveRouter φ) (stream : StreamId) (nowUs : Int) :
    r.requestKeyframe stream nowUs =
      let p := r.startPacing stream
      let s := r.pacingStats stream
      if nowUs < p.nextUs then
        ({ r with
          pacing := Function.update r.pacing stream (some p)
          pacingStats := Function.update r.pacingStats stream
            { s with requestsPaced := s.requestsPaced + 1 } }, [])
      else
        ({ r with
          pacing := Function.update r.pacing stream (some {
            nextUs := nowUs + p.backoffUs
            backoffUs := min (p.backoffUs * 2) (r.cfg.maxBackoffMs * 1000) })
          pacingStats := Function.update r.pacingStats stream
            { s with requestsSent := s.requestsSent + 1 } }, [.sendRequest stream]) := by
  have hstart : (if ((r.pacing stream).getD {}).backoffUs = 0 then
      { (r.pacing stream).getD {} with backoffUs := (r.cfg.baseBackoffMs : Int) * 1000 }
      else (r.pacing stream).getD {}) = r.startPacing stream := by
    by_cases hzero : ((r.pacing stream).getD {}).backoffUs = 0
    · simp [startPacing, hzero]
    · simp [startPacing, hzero]
  simp only [requestKeyframe, hstart]

theorem cfg_requestKeyframe (r : VideoReceiveRouter φ) (stream : StreamId) (nowUs : Int) :
    (r.requestKeyframe stream nowUs).1.cfg = r.cfg := by
  rw [requestKeyframe_eq]
  dsimp only
  split <;> rfl

theorem pacing_requestKeyframe_other (r : VideoReceiveRouter φ) {stream other : StreamId}
    (hother : stream ≠ other) (nowUs : Int) :
    (r.requestKeyframe other nowUs).1.pacing stream = r.pacing stream := by
  rw [requestKeyframe_eq]
  dsimp only
  split
  · exact Function.update_of_ne hother _ _
  · exact Function.update_of_ne hother _ _

/-- A request before its time. -/
theorem requestKeyframe_early {r : VideoReceiveRouter φ} {stream : StreamId} {nowUs : Int}
    (hearly : nowUs < (r.startPacing stream).nextUs) :
    (r.requestKeyframe stream nowUs).1.pacing stream = some (r.startPacing stream) ∧
      (r.requestKeyframe stream nowUs).2 = [] := by
  rw [requestKeyframe_eq]
  dsimp only
  rw [if_pos hearly]
  exact ⟨Function.update_self .., rfl⟩

/-- A request in time. -/
theorem requestKeyframe_due {r : VideoReceiveRouter φ} {stream : StreamId} {nowUs : Int}
    (hdue : ¬ nowUs < (r.startPacing stream).nextUs) :
    (r.requestKeyframe stream nowUs).1.pacing stream = some {
        nextUs := nowUs + (r.startPacing stream).backoffUs
        backoffUs := min ((r.startPacing stream).backoffUs * 2) (r.cfg.maxBackoffMs * 1000) } ∧
      (r.requestKeyframe stream nowUs).2 = [.sendRequest stream] := by
  rw [requestKeyframe_eq]
  dsimp only
  rw [if_neg hdue]
  exact ⟨Function.update_self .., rfl⟩

theorem Paced.startPacing {cfg : VideoReceiveRouterConfig} {stream : StreamId}
    {s : VideoReceiveRouter φ × PacingHistory} (h : Paced cfg stream s) :
    s.1.startPacing stream =
      { nextUs := nextAllowed cfg s.2, backoffUs := cfg.intervalUs s.2.sentAt.length } := by
  have hpos := intervalUs_pos cfg s.2.sentAt.length
  have hbackoff : (if ((s.1.pacing stream).getD {}).backoffUs = 0 then
      (s.1.cfg.baseBackoffMs * 1000 : Int) else ((s.1.pacing stream).getD {}).backoffUs) =
      cfg.intervalUs s.2.sentAt.length := by
    rcases h.backoffUs with heq | ⟨hzero, hnone⟩
    · rw [if_neg (by omega), heq]
    · rw [if_pos hzero, hnone, h.config]
      exact (intervalUs_zero cfg).symm
  rw [VideoReceiveRouter.startPacing, hbackoff, ← h.nextUs]

/-- A request goes out from the time on that the history asks for. -/
theorem Paced.sends {cfg : VideoReceiveRouterConfig} {stream : StreamId}
    {s : VideoReceiveRouter φ × PacingHistory} (h : Paced cfg stream s) (nowUs : Int) :
    s.1.sends stream nowUs = decide (nextAllowed cfg s.2 ≤ nowUs) := by
  rw [VideoReceiveRouter.sends]
  by_cases hearly : nowUs < nextAllowed cfg s.2
  · rw [(requestKeyframe_early (by rwa [h.startPacing])).2, decide_eq_false (not_le.mpr hearly)]
    rfl
  · rw [(requestKeyframe_due (by rwa [h.startPacing])).2, decide_eq_true (not_lt.mp hearly)]
    rfl

/-- The history of a stream that a call resets. -/
theorem Paced.reset {cfg : VideoReceiveRouterConfig} {stream : StreamId}
    {r : VideoReceiveRouter φ} (hcfg : r.cfg = cfg.normalized)
    (hnext : ((r.pacing stream).getD {}).nextUs = 0)
    (hbackoff : ((r.pacing stream).getD {}).backoffUs = cfg.intervalUs 0 ∨
      ((r.pacing stream).getD {}).backoffUs = 0) : Paced cfg stream (r, {}) where
  config := hcfg
  nextUs := hnext
  backoffUs := hbackoff.imp id fun hzero => ⟨hzero, rfl⟩
  opened openedAt hopened := by cases hopened

theorem Paced.request {cfg : VideoReceiveRouterConfig} {stream : StreamId}
    {s : VideoReceiveRouter φ × PacingHistory} (h : Paced cfg stream s) (nowUs : Int) :
    Paced cfg stream (recordedStep stream s (.requestKeyframe stream nowUs)) := by
  have hcfg : (s.1.requestKeyframe stream nowUs).1.cfg = cfg.normalized := by
    rw [cfg_requestKeyframe, h.config]
  have hstart := h.startPacing
  have hsends := h.sends nowUs
  by_cases hearly : nowUs < nextAllowed cfg s.2
  · have hpacing := (@requestKeyframe_early φ s.1 stream nowUs (by rwa [hstart])).1
    have hhistory : s.2.next stream s.1 (.requestKeyframe stream nowUs) = s.2 := by
      simp [PacingHistory.next, hsends, hearly]
    rw [hstart] at hpacing
    rw [recordedStep, hhistory]
    refine ⟨hcfg, ?_, .inl ?_, h.opened⟩
    · exact congrArg (fun p : Option Pacing => (p.getD {}).nextUs) hpacing
    · exact congrArg (fun p : Option Pacing => (p.getD {}).backoffUs) hpacing
  · have hpacing := (@requestKeyframe_due φ s.1 stream nowUs (by rwa [hstart])).1
    have hhistory : s.2.next stream s.1 (.requestKeyframe stream nowUs) =
        { s.2 with sentAt := nowUs :: s.2.sentAt } := by
      simp [PacingHistory.next, hsends, not_lt.mp hearly]
    rw [hstart, h.config] at hpacing
    rw [recordedStep, hhistory]
    refine ⟨hcfg, ?_, .inl ?_, fun openedAt hopened sent hsent => ?_⟩
    · exact congrArg (fun p : Option Pacing => (p.getD {}).nextUs) hpacing
    · rw [List.length_cons, intervalUs_succ]
      exact congrArg (fun p : Option Pacing => (p.getD {}).backoffUs) hpacing
    · rcases List.mem_cons.mp hsent with rfl | hbefore
      · -- the newest request is later than the one before, or than the opening
        have hdue := not_lt.mp hearly
        rw [nextAllowed] at hdue
        cases hsentAt : s.2.sentAt with
        | nil =>
            rw [hsentAt, Option.mem_def.mp hopened] at hdue
            exact hdue
        | cons last before =>
            rw [hsentAt] at hdue
            have hlast := h.opened openedAt hopened last (by rw [hsentAt]; exact List.mem_cons_self)
            have hpos := intervalUs_pos cfg before.length
            dsimp only at hdue
            omega
      · exact h.opened openedAt hopened sent hbefore

theorem Paced.step {cfg : VideoReceiveRouterConfig} {stream : StreamId}
    (s : VideoReceiveRouter φ × PacingHistory) (call : PacingCall) (h : Paced cfg stream s) :
    Paced cfg stream (recordedStep stream s call) := by
  have hunchanged : ∀ r : VideoReceiveRouter φ, r.cfg = s.1.cfg →
      r.pacing stream = s.1.pacing stream → Paced cfg stream (r, s.2) := by
    intro r hcfg hpacing
    exact ⟨hcfg.trans h.config, by rw [hpacing]; exact h.nextUs, by rw [hpacing]; exact h.backoffUs,
      h.opened⟩
  cases call with
  | openStream other nowUs =>
      by_cases hown : other = stream
      · subst hown
        by_cases hzero : nowUs = 0
        · have hhistory : s.2.next other s.1 (.openStream other nowUs) = {} := by
            simp [PacingHistory.next, hzero]
          have hpacing : (s.1.openStream other nowUs).pacing other = none := by
            simp [openStream, hzero]
          rw [recordedStep, hhistory]
          refine @Paced.reset φ cfg other (s.1.openStream other nowUs) h.config ?_ (.inr ?_)
          · exact congrArg (fun p : Option Pacing => (p.getD {}).nextUs) hpacing
          · exact congrArg (fun p : Option Pacing => (p.getD {}).backoffUs) hpacing
        · have hhistory : s.2.next other s.1 (.openStream other nowUs) =
              { openedAt := some nowUs } := by
            simp [PacingHistory.next, hzero]
          have hpacing : (s.1.openStream other nowUs).pacing other = some {
              backoffUs := s.1.cfg.baseBackoffMs * 1000
              nextUs := nowUs + s.1.cfg.baseBackoffMs * 1000 } := by
            simp [openStream, hzero]
          rw [h.config] at hpacing
          rw [recordedStep, hhistory]
          refine ⟨h.config, ?_, .inl ?_, fun _ _ sent hsent => by cases hsent⟩
          · exact congrArg (fun p : Option Pacing => (p.getD {}).nextUs) hpacing
          · rw [List.length_nil, intervalUs_zero]
            exact congrArg (fun p : Option Pacing => (p.getD {}).backoffUs) hpacing
      · have hhistory : s.2.next stream s.1 (.openStream other nowUs) = s.2 := if_neg hown
        rw [recordedStep, hhistory]
        apply hunchanged
        · rfl
        · exact Function.update_of_ne (Ne.symm hown) _ _
  | close other =>
      by_cases hown : other = stream
      · subst hown
        have hhistory : s.2.next other s.1 (.close other) = {} := if_pos rfl
        have hpacing : (s.1.close other).pacing other = none := Function.update_self ..
        rw [recordedStep, hhistory]
        refine @Paced.reset φ cfg other (s.1.close other) h.config ?_ (.inr ?_)
        · exact congrArg (fun p : Option Pacing => (p.getD {}).nextUs) hpacing
        · exact congrArg (fun p : Option Pacing => (p.getD {}).backoffUs) hpacing
      · have hhistory : s.2.next stream s.1 (.close other) = s.2 := if_neg hown
        rw [recordedStep, hhistory]
        apply hunchanged
        · rfl
        · exact Function.update_of_ne (Ne.symm hown) _ _
  | closeAll => exact Paced.reset h.config rfl (.inr rfl)
  | keyframeArrived other =>
      by_cases hown : other = stream
      · subst hown
        have hhistory : s.2.next other s.1 (.keyframeArrived other) = {} := if_pos rfl
        rw [recordedStep, hhistory]
        rw [pacingStep, keyframeArrived]
        cases hpacing : s.1.pacing other with
        | none =>
            refine @Paced.reset φ cfg other s.1 h.config ?_ (.inr ?_)
            · exact congrArg (fun p : Option Pacing => (p.getD {}).nextUs) hpacing
            · exact congrArg (fun p : Option Pacing => (p.getD {}).backoffUs) hpacing
        | some p =>
            refine @Paced.reset φ cfg other { s.1 with
              pacing := Function.update s.1.pacing other
                (some { nextUs := 0, backoffUs := s.1.cfg.baseBackoffMs * 1000 }) }
              h.config ?_ (.inl ?_)
            · simp
            · rw [intervalUs_zero, ← h.config]
              simp
      · have hhistory : s.2.next stream s.1 (.keyframeArrived other) = s.2 := if_neg hown
        rw [recordedStep, hhistory]
        simp only [pacingStep, keyframeArrived]
        cases hpacing : s.1.pacing other with
        | none => exact hunchanged _ rfl rfl
        | some p => exact hunchanged _ rfl (Function.update_of_ne (Ne.symm hown) _ _)
  | requestKeyframe other nowUs =>
      by_cases hown : other = stream
      · subst hown
        exact h.request nowUs
      · have hhistory : s.2.next stream s.1 (.requestKeyframe other nowUs) = s.2 := by
          simp [PacingHistory.next, hown]
        rw [recordedStep, hhistory]
        exact hunchanged _ (cfg_requestKeyframe ..)
          (pacing_requestKeyframe_other s.1 (Ne.symm hown) nowUs)

theorem paced_recorded (cfg : VideoReceiveRouterConfig) (stream : StreamId)
    (calls : List PacingCall) :
    Paced cfg stream (recorded cfg stream calls : VideoReceiveRouter φ × PacingHistory) :=
  Machine.run_preserves Paced.step (Paced.reset rfl rfl (.inr rfl)) calls

/-- A request goes out at least the interval of the requests before it after the last one,
    and not in the first interval of an opening. A refused one comes earlier than that, or
    at a time before the zero that stands for none. -/
theorem requests_paced (cfg : VideoReceiveRouterConfig) (stream : StreamId)
    (calls : List PacingCall) (nowUs : Int) :
    let s : VideoReceiveRouter φ × PacingHistory := recorded cfg stream calls
    (s.1.sends stream nowUs = true →
      (∀ last ∈ s.2.sentAt.head?, last + cfg.intervalUs (s.2.sentAt.length - 1) ≤ nowUs) ∧
      ∀ openedAt ∈ s.2.openedAt, openedAt + cfg.normalized.baseBackoffMs * 1000 ≤ nowUs) ∧
    (s.1.sends stream nowUs = false →
      (∃ last ∈ s.2.sentAt.head?, nowUs < last + cfg.intervalUs (s.2.sentAt.length - 1)) ∨
      (s.2.sentAt = [] ∧
        ∃ openedAt ∈ s.2.openedAt, nowUs < openedAt + cfg.normalized.baseBackoffMs * 1000) ∨
      (s.2 = {} ∧ nowUs < 0)) := by
  intro s
  have hpaced : Paced cfg stream s := paced_recorded cfg stream calls
  have hsends := hpaced.sends nowUs
  have hopened := hpaced.opened
  rw [hsends, decide_eq_true_eq, decide_eq_false_iff_not, not_le]
  generalize s.2 = history at hopened ⊢
  rcases history with ⟨opened, _ | ⟨last, before⟩⟩
  · cases opened with
    | none =>
        refine ⟨fun _ => ⟨nofun, nofun⟩, fun hearly => ?_⟩
        exact .inr (.inr ⟨rfl, hearly⟩)
    | some openedAt =>
        refine ⟨fun hdue => ⟨nofun, ?_⟩, fun hearly => ?_⟩
        · rintro _ ⟨⟩
          exact hdue
        · exact .inr (.inl ⟨rfl, openedAt, rfl, hearly⟩)
  · refine ⟨fun hdue => ⟨?_, fun openedAt hmem => ?_⟩, fun hearly => ?_⟩
    · rintro _ ⟨⟩
      exact hdue
    · have hlast := hopened openedAt hmem last List.mem_cons_self
      have hpos := intervalUs_pos cfg before.length
      rw [nextAllowed] at hdue
      dsimp only at hdue
      omega
    · exact .inl ⟨last, rfl, hearly⟩

/-- A new router refuses the first request of a stream that comes at a negative time. -/
theorem refused_before_zero :
    ¬ ∀ (cfg : VideoReceiveRouterConfig) (stream : StreamId) (calls : List PacingCall)
      (nowUs : Int),
      let s : VideoReceiveRouter (List UInt8) × PacingHistory := recorded cfg stream calls
      s.1.sends stream nowUs = false →
        (∃ last ∈ s.2.sentAt.head?, nowUs < last + cfg.intervalUs (s.2.sentAt.length - 1)) ∨
        ∃ openedAt ∈ s.2.openedAt,
          nowUs < openedAt + cfg.normalized.baseBackoffMs * 1000 := by
  intro hall
  rcases hall {} 0 [] (-1) rfl with ⟨_, hmem, _⟩ | ⟨_, hmem, _⟩
  · cases hmem
  · cases hmem

/-! ### The calls of the router -/

/-- The calls that the callbacks of one call of the buffer of `stream` make. -/
def bufferCalls (stream : StreamId) (nowUs : Int) (events : List (ReorderEvent φ)) :
    List PacingCall :=
  events.flatMap fun
    | .deliver hdr _ => if hdr.keyframe then [.keyframeArrived stream] else []
    | .lost _ => [.requestKeyframe stream nowUs]

def missingCalls (nowUs : Int) (decoderNeedsKeyframe : StreamId → Bool)
    (candidates : List Candidate) : List PacingCall :=
  (candidates.filter fun c => c.wants || (!c.keyArriving && decoderNeedsKeyframe c.stream)).map
    fun c => .requestKeyframe c.stream nowUs

variable [FrameBytes φ]

def pollCalls (nowUs : Int) : VideoReceiveRouter φ → List StreamId → List PacingCall
  | _, [] => []
  | r, stream :: order =>
    match r.streams stream with
    | none => pollCalls nowUs r order
    | some st =>
      bufferCalls stream nowUs (st.buffer.poll nowUs).2 ++
        pollCalls nowUs (r.putStream stream st (st.buffer.poll nowUs) nowUs).1 order

/-- What one call of the router does under the pacing mutex, in order. -/
def pacingCalls (r : VideoReceiveRouter φ) : RouterOp φ → List PacingCall
  | .openStream stream nowUs => [.openStream stream nowUs]
  | .close stream => [.close stream]
  | .closeAll => [.closeAll]
  | .onFrame stream frame nowUs =>
    match VideoFrameHeader.parse (FrameBytes.bytes frame), r.streams stream with
    | some hdr, some st => bufferCalls stream nowUs (st.buffer.onFrame hdr frame nowUs).2
    | _, _ => []
  | .onFrameAborted stream frameSeq nowUs =>
    match r.streams stream, frameSeq with
    | none, _ => []
    | some st, some seq => bufferCalls stream nowUs (st.buffer.onFrameAborted seq nowUs).2
    | some st, none =>
      if st.buffer.keyframeInFlight nowUs then [] else [.requestKeyframe stream nowUs]
  | .requestKeyframe stream nowUs => [.requestKeyframe stream nowUs]
  | .tick nowUs decoderNeedsKeyframe order =>
    pollCalls nowUs r order ++
      missingCalls nowUs decoderNeedsKeyframe (pollStreams nowUs r order).2.1
  | _ => []

omit [FrameBytes φ] in
/-- The keyframe requests among the callbacks. -/
def requestsOf (events : List (RouterEvent φ)) : List StreamId :=
  events.filterMap fun
    | .sendRequest stream => some stream
    | .deliver _ _ _ => none

omit [FrameBytes φ] in
@[simp] theorem requestsOf_append (xs ys : List (RouterEvent φ)) :
    requestsOf (xs ++ ys) = requestsOf xs ++ requestsOf ys := List.filterMap_append

omit [FrameBytes φ] in
/-- The routers pace requests alike. -/
def SamePacing (t r : VideoReceiveRouter φ) : Prop := t.cfg = r.cfg ∧ t.pacing = r.pacing

omit [FrameBytes φ] in
/-- The calls alone leave the pacing as `out` does and send the same requests. -/
def PerformedBy (calls : List PacingCall) (r : VideoReceiveRouter φ)
    (out : VideoReceiveRouter φ × List (RouterEvent φ)) : Prop :=
  ∀ t, SamePacing t r →
    SamePacing (Machine.run (Machine.logged pacingStep) (t, []) calls).1 out.1 ∧
      requestsOf (Machine.run (Machine.logged pacingStep) (t, []) calls).2 = requestsOf out.2

omit [FrameBytes φ] in
theorem SamePacing.requestKeyframe {t r : VideoReceiveRouter φ} (h : SamePacing t r)
    (stream : StreamId) (nowUs : Int) :
    SamePacing (t.requestKeyframe stream nowUs).1 (r.requestKeyframe stream nowUs).1 ∧
      requestsOf (t.requestKeyframe stream nowUs).2 =
        requestsOf (r.requestKeyframe stream nowUs).2 := by
  obtain ⟨hcfg, hpacing⟩ := h
  have hstart : t.startPacing stream = r.startPacing stream := by
    rw [startPacing, startPacing, hcfg, hpacing]
  rw [requestKeyframe_eq, requestKeyframe_eq, hstart]
  dsimp only
  split
  · exact ⟨⟨hcfg, by dsimp only; rw [hpacing]⟩, rfl⟩
  · exact ⟨⟨hcfg, by dsimp only; rw [hpacing, hcfg]⟩, rfl⟩

omit [FrameBytes φ] in
theorem SamePacing.keyframeArrived {t r : VideoReceiveRouter φ} (h : SamePacing t r)
    (stream : StreamId) : SamePacing (t.keyframeArrived stream) (r.keyframeArrived stream) := by
  obtain ⟨hcfg, hpacing⟩ := h
  rw [VideoReceiveRouter.keyframeArrived, VideoReceiveRouter.keyframeArrived, hpacing]
  cases r.pacing stream with
  | none => exact ⟨hcfg, hpacing⟩
  | some p => exact ⟨hcfg, by dsimp only; rw [hcfg]⟩

omit [FrameBytes φ] in
theorem performedBy_nil {r : VideoReceiveRouter φ}
    {out : VideoReceiveRouter φ × List (RouterEvent φ)} (hsame : SamePacing r out.1)
    (hquiet : requestsOf out.2 = []) : PerformedBy [] r out := by
  intro t ht
  exact ⟨⟨ht.1.trans hsame.1, ht.2.trans hsame.2⟩, hquiet.symm⟩

omit [FrameBytes φ] in
theorem performedBy_call (r : VideoReceiveRouter φ) (call : PacingCall) :
    PerformedBy [call] r (r.pacingStep call) := by
  intro t ht
  cases call with
  | openStream stream nowUs =>
      refine ⟨⟨ht.1, ?_⟩, rfl⟩
      simp only [Machine.run_cons, Machine.run_nil, Machine.logged, pacingStep, openStream,
        ht.1, ht.2]
  | close stream =>
      refine ⟨⟨ht.1, ?_⟩, rfl⟩
      simp only [Machine.run_cons, Machine.run_nil, Machine.logged, pacingStep, close, ht.2]
  | closeAll => exact ⟨⟨ht.1, rfl⟩, rfl⟩
  | keyframeArrived stream => exact ⟨ht.keyframeArrived stream, rfl⟩
  | requestKeyframe stream nowUs => exact ht.requestKeyframe stream nowUs

omit [FrameBytes φ] in
theorem PerformedBy.trans {xs ys : List PacingCall} {r : VideoReceiveRouter φ}
    {out out' : VideoReceiveRouter φ × List (RouterEvent φ)} (h : PerformedBy xs r out)
    (h' : PerformedBy ys out.1 out') : PerformedBy (xs ++ ys) r (out'.1, out.2 ++ out'.2) := by
  intro t ht
  obtain ⟨hsame, hrequests⟩ := h t ht
  obtain ⟨hsame', hrequests'⟩ := h' _ hsame
  rw [Machine.run_append]
  rw [← Prod.mk.eta (p := Machine.run (Machine.logged pacingStep) (t, []) xs), Machine.run_logged]
  exact ⟨hsame', by rw [requestsOf_append, requestsOf_append, hrequests, hrequests']⟩

omit [FrameBytes φ] in
/-- What does not touch the pacing may follow. -/
theorem PerformedBy.unpaced {calls : List PacingCall} {r : VideoReceiveRouter φ}
    {out out' : VideoReceiveRouter φ × List (RouterEvent φ)} (h : PerformedBy calls r out)
    (hsame : SamePacing out.1 out'.1) (hevents : requestsOf out'.2 = requestsOf out.2) :
    PerformedBy calls r out' := by
  intro t ht
  obtain ⟨hperformed, hrequests⟩ := h t ht
  exact ⟨⟨hperformed.1.trans hsame.1, hperformed.2.trans hsame.2⟩, hrequests.trans hevents.symm⟩

omit [FrameBytes φ] in
theorem onDeliver_performed (r : VideoReceiveRouter φ) (stream : StreamId) (st : StreamState φ)
    (hdr : VideoFrameHeader) (frame : φ) (nowUs : Int) :
    PerformedBy (if hdr.keyframe then [.keyframeArrived stream] else []) r
      ((r.onDeliver stream st hdr frame nowUs).1, (r.onDeliver stream st hdr frame nowUs).2.2) := by
  have harrived : PerformedBy (if hdr.keyframe then [.keyframeArrived stream] else []) r
      (if hdr.keyframe then r.keyframeArrived stream else r, []) := by
    cases hdr.keyframe with
    | false => exact performedBy_nil ⟨rfl, rfl⟩ rfl
    | true => exact performedBy_call r (.keyframeArrived stream)
  apply harrived.unpaced
  · rw [onDeliver]
    dsimp only
    generalize (if hdr.keyframe then r.keyframeArrived stream else r) = r'
    cases r'.cfg.playout with
    | false => exact ⟨rfl, rfl⟩
    | true => exact ⟨rfl, rfl⟩
  · rw [onDeliver]
    dsimp only
    generalize (if hdr.keyframe then r.keyframeArrived stream else r) = r'
    cases r'.cfg.playout with
    | false => rfl
    | true => rfl

omit [FrameBytes φ] in
theorem onBufferEvents_performed (stream : StreamId) (nowUs : Int) (events : List (ReorderEvent φ))
    (r : VideoReceiveRouter φ) (st : StreamState φ) :
    PerformedBy (bufferCalls stream nowUs events) r
      ((onBufferEvents stream nowUs r st events).1,
        (onBufferEvents stream nowUs r st events).2.2) := by
  induction events generalizing r st with
  | nil => exact performedBy_nil ⟨rfl, rfl⟩ rfl
  | cons event events ih =>
      cases event with
      | deliver hdr frame =>
          exact (onDeliver_performed r stream st hdr frame nowUs).trans (ih _ _)
      | lost first =>
          exact (performedBy_call r (.requestKeyframe stream nowUs)).trans (ih _ _)

omit [FrameBytes φ] in
theorem putStream_performed (r : VideoReceiveRouter φ) (stream : StreamId) (st : StreamState φ)
    (outcome : VideoFrameReorderBuffer φ × List (ReorderEvent φ)) (nowUs : Int) :
    PerformedBy (bufferCalls stream nowUs outcome.2) r (r.putStream stream st outcome nowUs) :=
  (onBufferEvents_performed stream nowUs outcome.2 r _).unpaced ⟨rfl, rfl⟩ rfl

theorem pollStreams_performed (nowUs : Int) (order : List StreamId) (r : VideoReceiveRouter φ) :
    PerformedBy (pollCalls nowUs r order) r
      ((pollStreams nowUs r order).1, (pollStreams nowUs r order).2.2) := by
  induction order generalizing r with
  | nil => exact performedBy_nil ⟨rfl, rfl⟩ rfl
  | cons stream order ih =>
      rw [pollCalls, pollStreams]
      cases hst : r.streams stream with
      | none => exact ih r
      | some st => exact (putStream_performed r stream st _ nowUs).trans (ih _)

omit [FrameBytes φ] in
theorem requestMissing_performed (nowUs : Int) (needs : StreamId → Bool)
    (candidates : List Candidate) (r : VideoReceiveRouter φ) :
    PerformedBy (missingCalls nowUs needs candidates) r
      (requestMissing nowUs needs r candidates) := by
  induction candidates generalizing r with
  | nil => exact performedBy_nil ⟨rfl, rfl⟩ rfl
  | cons c candidates ih =>
      rw [requestMissing, missingCalls, List.filter_cons]
      cases hwants : c.wants || (!c.keyArriving && needs c.stream) with
      | false => exact ih r
      | true => exact (performedBy_call r (.requestKeyframe c.stream nowUs)).trans (ih _)

omit [FrameBytes φ] in
theorem collect_samePacing (nowUs : Int) (order : List (StreamId × Nat))
    (r : VideoReceiveRouter φ) :
    (r.collect nowUs order).cfg = r.cfg ∧ (r.collect nowUs order).pacing = r.pacing := by
  induction order generalizing r with
  | nil => exact ⟨rfl, rfl⟩
  | cons entry order ih => exact ih _

/-- One call of the router paces requests as its calls under the mutex do. -/
theorem step_performed (r : VideoReceiveRouter φ) (op : RouterOp φ) :
    PerformedBy (r.pacingCalls op) r (r.step op) := by
  cases op with
  | openStream stream nowUs => exact performedBy_call r (.openStream stream nowUs)
  | close stream => exact performedBy_call r (.close stream)
  | closeAll => exact performedBy_call r .closeAll
  | setRtt rttUs => exact performedBy_nil ⟨rfl, rfl⟩ rfl
  | onFrameStarted stream hdr nowUs =>
      rw [step, onFrameStarted]
      cases r.streams stream with
      | none => exact performedBy_nil ⟨rfl, rfl⟩ rfl
      | some st => exact performedBy_nil ⟨rfl, rfl⟩ rfl
  | onFrame stream frame nowUs =>
      rw [step, pacingCalls, onFrame]
      cases VideoFrameHeader.parse (FrameBytes.bytes frame) with
      | none => exact performedBy_nil ⟨rfl, rfl⟩ rfl
      | some hdr =>
          cases r.streams stream with
          | none => exact performedBy_nil ⟨rfl, rfl⟩ rfl
          | some st => exact putStream_performed r stream st _ nowUs
  | onFrameAborted stream frameSeq nowUs =>
      simp only [step, pacingCalls, onFrameAborted]
      cases r.streams stream with
      | none => exact performedBy_nil ⟨rfl, rfl⟩ rfl
      | some st =>
          cases frameSeq with
          | some seq => exact putStream_performed r stream st _ nowUs
          | none =>
              dsimp only
              split
              · exact performedBy_nil ⟨rfl, rfl⟩ rfl
              · exact performedBy_call r (.requestKeyframe stream nowUs)
  | requestKeyframe stream nowUs => exact performedBy_call r (.requestKeyframe stream nowUs)
  | tick nowUs needs order =>
      exact (pollStreams_performed nowUs order r).trans (requestMissing_performed nowUs needs _ _)
  | collect nowUs order =>
      rw [step]
      split
      · obtain ⟨hcfg, hpacing⟩ := collect_samePacing nowUs order r
        exact performedBy_nil ⟨hcfg.symm, hpacing.symm⟩ rfl
      · exact performedBy_nil ⟨rfl, rfl⟩ rfl
  | deliverNext =>
      rw [step, deliverNext]
      cases r.due with
      | nil => exact performedBy_nil ⟨rfl, rfl⟩ rfl
      | cons entry due => exact performedBy_nil ⟨rfl, rfl⟩ rfl

/-- The calls under the pacing mutex in a run. -/
def runCalls : VideoReceiveRouter φ → List (RouterOp φ) → List PacingCall
  | _, [] => []
  | r, op :: ops => r.pacingCalls op ++ runCalls (r.step op).1 ops

/-- A run of the router paces requests as its calls under the mutex do. -/
theorem run_performed (r : VideoReceiveRouter φ) (ops : List (RouterOp φ)) :
    PerformedBy (r.runCalls ops) r (r.run ops) := by
  induction ops generalizing r with
  | nil => exact performedBy_nil ⟨rfl, rfl⟩ rfl
  | cons op ops ih =>
      rw [run_cons]
      exact (step_performed r op).trans (ih _)

end VideoReceiveRouter

end Parties.Video

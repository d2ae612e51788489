import Mathlib.Data.BitVec
import Mathlib.Data.List.DropRight
import Parties.Lib.Machine

/-!
# Keyframe requests of a decoder that falls behind

Mirror of `VideoDecodeStaleFlushTracker` (`client/video_decode_backlog.h`). A decoder that is
too slow flushes its backlog again and again; the tracker limits the keyframe requests of
such a run of flushes. Times are microseconds of a steady clock. The flushes of a run are counted
in 32 bits, and the count wraps.
-/

namespace Parties.Video

/-- `kVideoDecodeStaleFlushPliLimit`. -/
def STALE_FLUSH_PLI_LIMIT : BitVec 32 := 2

/-- `kVideoDecodeStaleFlushSlowPliUs`. -/
def STALE_FLUSH_SLOW_PLI_US : Int := 5000000

/-- `kVideoDecodeStaleFlushRecoveryUs`. -/
def STALE_FLUSH_RECOVERY_US : Int := 4000000

def shouldRequestKeyframeAfterStaleFlush (consecutiveFlushes : BitVec 32) : Bool :=
  consecutiveFlushes ≤ STALE_FLUSH_PLI_LIMIT

structure VideoDecodeStaleFlushTracker where
  staleFlushesInARow : BitVec 32 := 0
  /-- Decoding resumed after the last flush, at `resumedUs`. -/
  resumed : Bool := false
  resumedUs : Int := 0
  /-- The last keyframe request of this run. -/
  requestedUs : Int := 0
deriving DecidableEq, Repr

namespace VideoDecodeStaleFlushTracker

def onStaleFlush (t : VideoDecodeStaleFlushTracker) (nowUs : Int) :
    VideoDecodeStaleFlushTracker × Bool :=
  let t := { t with staleFlushesInARow := t.staleFlushesInARow + 1, resumed := false }
  let request := shouldRequestKeyframeAfterStaleFlush t.staleFlushesInARow
  (if request then { t with requestedUs := nowUs } else t, request)

def takeSlowRequest (t : VideoDecodeStaleFlushTracker) (nowUs : Int) :
    VideoDecodeStaleFlushTracker × Bool :=
  if nowUs - t.requestedUs < STALE_FLUSH_SLOW_PLI_US then (t, false)
  else ({ t with requestedUs := nowUs }, true)

def onFrameDecoded (t : VideoDecodeStaleFlushTracker) (nowUs : Int) (recovery : Bool) :
    VideoDecodeStaleFlushTracker :=
  if t.staleFlushesInARow = 0 then t
  else if recovery || !t.resumed then { t with resumed := true, resumedUs := nowUs }
  else if STALE_FLUSH_RECOVERY_US ≤ nowUs - t.resumedUs then
    { t with staleFlushesInARow := 0, resumed := false }
  else t

def suppressed (t : VideoDecodeStaleFlushTracker) : Bool :=
  !shouldRequestKeyframeAfterStaleFlush t.staleFlushesInARow

end VideoDecodeStaleFlushTracker

/-! ### Calls and what is seen of them -/

inductive TrackerCall where
  | staleFlush (nowUs : Int)
  | slowRequest (nowUs : Int)
  | frameDecoded (nowUs : Int) (recovery : Bool)
deriving DecidableEq, Repr

namespace TrackerCall

def nowUs : TrackerCall → Int
  | .staleFlush nowUs | .slowRequest nowUs | .frameDecoded nowUs _ => nowUs

def isFlush : TrackerCall → Bool
  | .staleFlush _ => true
  | _ => false

def isSlow : TrackerCall → Bool
  | .slowRequest _ => true
  | _ => false

/-- No flush and no recovery keyframe. -/
def keepsDecoding : TrackerCall → Bool
  | .staleFlush _ | .frameDecoded _ true => false
  | .slowRequest _ | .frameDecoded _ false => true

end TrackerCall

/-- A call, whether it may request a keyframe, and whether a run of flushes ended with it. -/
structure TrackerEvent where
  call : TrackerCall
  granted : Bool
  ended : Bool
deriving DecidableEq, Repr

namespace VideoDecodeStaleFlushTracker

def step (t : VideoDecodeStaleFlushTracker) : TrackerCall → VideoDecodeStaleFlushTracker × Bool
  | .staleFlush nowUs => t.onStaleFlush nowUs
  | .slowRequest nowUs => t.takeSlowRequest nowUs
  | .frameDecoded nowUs recovery => (t.onFrameDecoded nowUs recovery, false)

def next (t : VideoDecodeStaleFlushTracker) (call : TrackerCall) : VideoDecodeStaleFlushTracker :=
  (t.step call).1

def event (t : VideoDecodeStaleFlushTracker) (call : TrackerCall) : TrackerEvent where
  call := call
  granted := (t.step call).2
  ended := t.staleFlushesInARow ≠ 0 && (t.next call).staleFlushesInARow = 0

def log : VideoDecodeStaleFlushTracker → List TrackerCall → List TrackerEvent
  | _, [] => []
  | t, call :: calls => t.event call :: (t.next call).log calls

/-- The slow cadence is asked only while the requests are suppressed. -/
def AskedSuppressed (t : VideoDecodeStaleFlushTracker) (call : TrackerCall) : Prop :=
  call.isSlow = true → t.suppressed = true

instance (t : VideoDecodeStaleFlushTracker) (call : TrackerCall) :
    Decidable (t.AskedSuppressed call) := inferInstanceAs (Decidable (_ → _))

/-- The flush does not wrap the 32-bit count. -/
def Counted (t : VideoDecodeStaleFlushTracker) (call : TrackerCall) : Prop :=
  call.isFlush = true → t.staleFlushesInARow.toNat + 1 < 2 ^ 32

instance (t : VideoDecodeStaleFlushTracker) (call : TrackerCall) : Decidable (t.Counted call) :=
  inferInstanceAs (Decidable (_ → _))

end VideoDecodeStaleFlushTracker

/-! ### The law -/

/-- The events since the last run ended. -/
def currentRun (front : List TrackerEvent) : List TrackerEvent :=
  front.rtakeWhile fun e => !e.ended

/-- Decoding resumes behind `front` with a recovery keyframe, or with the first frame since a
flush. -/
def Resumes (front : List TrackerEvent) (recovery : Bool) : Prop :=
  recovery = true ∨ ∃ before flush slow, front = before ++ flush :: slow ∧
    flush.call.isFlush = true ∧ ∀ e ∈ slow, e.call.isSlow = true

/-- Behind `front`, decoding has gone on since `resumedUs`. -/
def DecodingSince (front : List TrackerEvent) (resumedUs : Int) : Prop :=
  ∃ before resume behind recovery, front = before ++ resume :: behind ∧
    resume.call = .frameDecoded resumedUs recovery ∧ Resumes before recovery ∧
    ∀ e ∈ behind, e.call.keepsDecoding = true

structure AntiFlap (log : List TrackerEvent) : Prop where
  /-- At most two flushes of a run may request a keyframe. -/
  flushes : ∀ front, front <+: log →
    (currentRun front).countP (fun e => e.granted && e.call.isFlush) ≤ 2
  /-- A request of the slow cadence keeps its distance from the others of the run. -/
  spaced : ∀ front e, front ++ [e] <+: log → e.granted = true →
    ∀ before ∈ currentRun front, before.granted = true →
      e.call.isSlow = true ∨ before.call.isSlow = true →
        STALE_FLUSH_SLOW_PLI_US ≤ e.call.nowUs - before.call.nowUs
  /-- A run ends with a frame that shows that the decoder keeps up. -/
  ends : ∀ front e, front ++ [e] <+: log → e.ended = true →
    ∃ nowUs resumedUs, e.call = .frameDecoded nowUs false ∧ DecodingSince front resumedUs ∧
      STALE_FLUSH_RECOVERY_US ≤ nowUs - resumedUs

/-! ### What the tracker knows of its run -/

variable {t : VideoDecodeStaleFlushTracker} {front : List TrackerEvent} {call : TrackerCall}

theorem currentRun_append (front : List TrackerEvent) (e : TrackerEvent) :
    currentRun (front ++ [e]) = if e.ended = true then [] else currentRun front ++ [e] := by
  rw [currentRun, List.rtakeWhile_concat]
  cases e.ended <;> rfl

theorem currentRun_open (front : List TrackerEvent) {e : TrackerEvent} (h : e.ended = false) :
    currentRun (front ++ [e]) = currentRun front ++ [e] := by
  rw [currentRun_append, h]
  rfl

theorem mem_of_mem_currentRun {e : TrackerEvent} (h : e ∈ currentRun front) : e ∈ front :=
  (List.rtakeWhile_suffix _ front).subset h

theorem Resumes.append {e : TrackerEvent} (h : Resumes front false)
    (he : e.call.isSlow = true) : Resumes (front ++ [e]) false := by
  obtain hnot | ⟨before, flush, slow, rfl, hflush, hslow⟩ := h
  · cases hnot
  · refine .inr ⟨before, flush, slow ++ [e], by simp, hflush, fun x hx => ?_⟩
    obtain hold | hnew := List.mem_append.mp hx
    · exact hslow x hold
    · obtain rfl := List.mem_singleton.mp hnew
      exact he

/-- The decoding goes on. -/
theorem DecodingSince.append {resumedUs : Int} {e : TrackerEvent}
    (h : DecodingSince front resumedUs) (he : e.call.keepsDecoding = true) :
    DecodingSince (front ++ [e]) resumedUs := by
  obtain ⟨before, resume, behind, recovery, rfl, hcall, hresumes, hbehind⟩ := h
  refine ⟨before, resume, behind ++ [e], recovery, by simp, hcall, hresumes, fun x hx => ?_⟩
  obtain hold | hnew := List.mem_append.mp hx
  · exact hbehind x hold
  · obtain rfl := List.mem_singleton.mp hnew
    exact he

namespace VideoDecodeStaleFlushTracker

structure Tracks (t : VideoDecodeStaleFlushTracker) (front : List TrackerEvent) : Prop where
  count : (currentRun front).countP (fun e => e.call.isFlush) = t.staleFlushesInARow.toNat
  flushes : (currentRun front).countP (fun e => e.granted && e.call.isFlush) =
    min t.staleFlushesInARow.toNat 2
  slow : ∀ e ∈ currentRun front, e.granted = true → e.call.isSlow = true →
    2 < t.staleFlushesInARow.toNat
  requested : ∀ e ∈ currentRun front, e.granted = true → e.call.nowUs ≤ t.requestedUs
  resumed : t.resumed = true → DecodingSince front t.resumedUs
  active : t.resumed = true → t.staleFlushesInARow ≠ 0
  waiting : t.resumed = false → t.staleFlushesInARow ≠ 0 → Resumes front false

theorem suppressed_iff : t.suppressed = true ↔ 2 < t.staleFlushesInARow.toNat := by
  rw [suppressed, shouldRequestKeyframeAfterStaleFlush, Bool.not_eq_true', decide_eq_false_iff_not,
    BitVec.le_def]
  exact Nat.not_le

theorem ne_zero_iff : t.staleFlushesInARow ≠ 0 ↔ 0 < t.staleFlushesInARow.toNat := by
  rw [Nat.pos_iff_ne_zero, ne_eq, ne_eq, ← BitVec.toNat_inj]
  rfl

/-- An event that grants nothing and is no flush leaves the counts alone. -/
theorem Tracks.unrequested {t' : VideoDecodeStaleFlushTracker} {e : TrackerEvent}
    (h : t.Tracks front) (hgranted : e.granted = false) (hflush : e.call.isFlush = false)
    (hended : e.ended = false) (hcount : t'.staleFlushesInARow = t.staleFlushesInARow)
    (hrequested : t'.requestedUs = t.requestedUs)
    (hresumed : t'.resumed = true → DecodingSince (front ++ [e]) t'.resumedUs ∧
      t'.staleFlushesInARow ≠ 0)
    (hwaiting : t'.resumed = false → t'.staleFlushesInARow ≠ 0 → Resumes (front ++ [e]) false) :
    t'.Tracks (front ++ [e]) := by
  have hrun := currentRun_open front hended
  have hmem : ∀ x ∈ currentRun (front ++ [e]), x.granted = true → x ∈ currentRun front := by
    intro x hx hx'
    rw [hrun] at hx
    obtain hold | hnew := List.mem_append.mp hx
    · exact hold
    · obtain rfl := List.mem_singleton.mp hnew
      rw [hgranted] at hx'
      cases hx'
  refine ⟨?_, ?_, fun x hx hx' => ?_, fun x hx hx' => ?_, fun hr => (hresumed hr).1,
    fun hr => (hresumed hr).2, hwaiting⟩
  · rw [hrun, List.countP_append, List.countP_singleton, hflush, hcount]
    exact h.count
  · rw [hrun, List.countP_append, List.countP_singleton, hgranted, hcount]
    exact h.flushes
  · rw [hcount]
    exact h.slow x (hmem x hx hx') hx'
  · rw [hrequested]
    exact h.requested x (hmem x hx hx') hx'

/-! ### One call -/

theorem next_staleFlush_count (nowUs : Int) :
    (t.next (.staleFlush nowUs)).staleFlushesInARow = t.staleFlushesInARow + 1 := by
  unfold next step onStaleFlush
  dsimp only
  split <;> rfl

theorem next_slowRequest_count (nowUs : Int) :
    (t.next (.slowRequest nowUs)).staleFlushesInARow = t.staleFlushesInARow := by
  unfold next step takeSlowRequest
  dsimp only
  split <;> rfl

/-- A call that leaves the count alone ends no run. -/
theorem ended_of_kept (h : (t.next call).staleFlushesInARow = t.staleFlushesInARow) :
    (t.event call).ended = false := by
  rw [event, h]
  simp

theorem count_staleFlush (nowUs : Int) (h : t.staleFlushesInARow.toNat + 1 < 2 ^ 32) :
    (t.next (.staleFlush nowUs)).staleFlushesInARow.toNat = t.staleFlushesInARow.toNat + 1 := by
  rw [next_staleFlush_count, BitVec.toNat_add]
  exact Nat.mod_eq_of_lt h

theorem granted_staleFlush (nowUs : Int) (h : t.staleFlushesInARow.toNat + 1 < 2 ^ 32) :
    (t.event (.staleFlush nowUs)).granted = decide (t.staleFlushesInARow.toNat < 2) := by
  have hsum : (t.staleFlushesInARow + 1).toNat = t.staleFlushesInARow.toNat + 1 := by
    rw [BitVec.toNat_add]
    exact Nat.mod_eq_of_lt h
  show decide (t.staleFlushesInARow + 1 ≤ STALE_FLUSH_PLI_LIMIT) = _
  have hlimit : STALE_FLUSH_PLI_LIMIT.toNat = 2 := rfl
  rw [decide_eq_decide, BitVec.le_def, hsum, hlimit]
  exact Nat.succ_le_iff

theorem requestedUs_staleFlush (nowUs : Int) :
    (t.next (.staleFlush nowUs)).requestedUs =
      if (t.event (.staleFlush nowUs)).granted = true then nowUs else t.requestedUs := by
  show (if shouldRequestKeyframeAfterStaleFlush (t.staleFlushesInARow + 1) = true then _ else _ :
    VideoDecodeStaleFlushTracker).requestedUs = if shouldRequestKeyframeAfterStaleFlush
      (t.staleFlushesInARow + 1) = true then _ else _
  split <;> rfl

theorem resumed_staleFlush (nowUs : Int) : (t.next (.staleFlush nowUs)).resumed = false := by
  unfold next step onStaleFlush
  dsimp only
  split <;> rfl

theorem Tracks.staleFlush (h : t.Tracks front) {nowUs : Int}
    (hcounted : t.staleFlushesInARow.toNat + 1 < 2 ^ 32)
    (hbefore : ∀ e ∈ front, e.call.nowUs ≤ nowUs) :
    (t.next (.staleFlush nowUs)).Tracks (front ++ [t.event (.staleFlush nowUs)]) := by
  have hcount := count_staleFlush nowUs hcounted
  have hgranted := granted_staleFlush nowUs hcounted
  have hended : (t.event (.staleFlush nowUs)).ended = false := by
    have hsome : (t.next (.staleFlush nowUs)).staleFlushesInARow ≠ 0 := by
      rw [ne_zero_iff, hcount]
      exact Nat.succ_pos _
    rw [event, decide_eq_false hsome, Bool.and_false]
  have hrun := currentRun_open front hended
  have hflush : (t.event (.staleFlush nowUs)).call.isFlush = true := rfl
  refine ⟨?_, ?_, fun e he hg hs => ?_, fun e he hg => ?_, fun hr => ?_, fun hr => ?_, fun _ _ => ?_⟩
  · rw [hrun, List.countP_append, List.countP_singleton, hflush, h.count, hcount]
    rfl
  · rw [hrun, List.countP_append, List.countP_singleton, hflush, h.flushes, hcount, hgranted,
      Bool.and_true]
    simp only [decide_eq_true_eq]
    split <;> omega
  · rw [hrun] at he
    obtain hold | hnew := List.mem_append.mp he
    · have hslow := h.slow e hold hg hs
      omega
    · obtain rfl := List.mem_singleton.mp hnew
      cases hs
  · rw [requestedUs_staleFlush]
    rw [hrun] at he
    obtain hold | hnew := List.mem_append.mp he
    · split
      · exact hbefore e (mem_of_mem_currentRun hold)
      · exact h.requested e hold hg
    · obtain rfl := List.mem_singleton.mp hnew
      rw [if_pos hg]
      exact le_rfl
  · rw [resumed_staleFlush] at hr
    cases hr
  · rw [resumed_staleFlush] at hr
    cases hr
  · exact .inr ⟨front, _, [], rfl, hflush, fun _ hin => absurd hin List.not_mem_nil⟩

theorem Tracks.slowRequest (h : t.Tracks front) {nowUs : Int} (hsuppressed : t.suppressed = true) :
    (t.next (.slowRequest nowUs)).Tracks (front ++ [t.event (.slowRequest nowUs)]) := by
  have hcount := suppressed_iff.mp hsuppressed
  have hresumes : t.resumed = true →
      DecodingSince (front ++ [t.event (.slowRequest nowUs)]) t.resumedUs ∧
        t.staleFlushesInARow ≠ 0 := fun hr => ⟨(h.resumed hr).append rfl, h.active hr⟩
  have hwaits : t.resumed = false → t.staleFlushesInARow ≠ 0 →
      Resumes (front ++ [t.event (.slowRequest nowUs)]) false :=
    fun hr hc => (h.waiting hr hc).append rfl
  have hended := ended_of_kept (next_slowRequest_count (t := t) nowUs)
  by_cases hearly : nowUs - t.requestedUs < STALE_FLUSH_SLOW_PLI_US
  · have hstep : t.step (.slowRequest nowUs) = (t, false) := if_pos hearly
    have hnext : t.next (.slowRequest nowUs) = t := congrArg Prod.fst hstep
    rw [hnext]
    exact h.unrequested (congrArg Prod.snd hstep) rfl hended rfl rfl hresumes hwaits
  · have hstep : t.step (.slowRequest nowUs) = ({ t with requestedUs := nowUs }, true) :=
      if_neg hearly
    have hnext : t.next (.slowRequest nowUs) = { t with requestedUs := nowUs } :=
      congrArg Prod.fst hstep
    have hrun := currentRun_open front hended
    have hflush : (t.event (.slowRequest nowUs)).call.isFlush = false := rfl
    unfold STALE_FLUSH_SLOW_PLI_US at hearly
    rw [hnext]
    refine ⟨?_, ?_, fun _ _ _ _ => hcount, fun e he hg => ?_, fun hr => (hresumes hr).1,
      h.active, hwaits⟩
    · rw [hrun, List.countP_append, List.countP_singleton, hflush]
      exact h.count
    · rw [hrun, List.countP_append, List.countP_singleton, hflush, Bool.and_false]
      exact h.flushes
    · rw [hrun] at he
      obtain hold | hnew := List.mem_append.mp he
      · have hearlier := h.requested e hold hg
        dsimp only
        omega
      · obtain rfl := List.mem_singleton.mp hnew
        exact le_rfl

theorem Tracks.frameDecoded (h : t.Tracks front) (nowUs : Int) (recovery : Bool) :
    (t.next (.frameDecoded nowUs recovery)).Tracks
      (front ++ [t.event (.frameDecoded nowUs recovery)]) := by
  have hkept : ∀ t', t.onFrameDecoded nowUs recovery = t' →
      t'.staleFlushesInARow = t.staleFlushesInARow →
      (t.event (.frameDecoded nowUs recovery)).ended = false := by
    rintro t' rfl hsame
    exact ended_of_kept hsame
  by_cases hnone : t.staleFlushesInARow = 0
  · have hnext : t.onFrameDecoded nowUs recovery = t := if_pos hnone
    have hidle : t.resumed = true → False := fun hr => h.active hr hnone
    rw [show t.next (.frameDecoded nowUs recovery) = t from hnext]
    exact h.unrequested rfl rfl (hkept t hnext rfl) rfl rfl (fun hr => (hidle hr).elim)
      fun _ hc => (hc hnone).elim
  · by_cases hresumes : (recovery || !t.resumed) = true
    · have hnext : t.onFrameDecoded nowUs recovery =
          { t with resumed := true, resumedUs := nowUs } := by
        rw [onFrameDecoded, if_neg hnone, if_pos hresumes]
      have hbehind : Resumes front recovery := by
        cases recovery with
        | true => exact .inl rfl
        | false =>
            rw [Bool.false_or, Bool.not_eq_true'] at hresumes
            exact h.waiting hresumes hnone
      rw [show t.next (.frameDecoded nowUs recovery) = _ from hnext]
      refine h.unrequested rfl rfl (hkept _ hnext rfl) rfl rfl (fun _ => ⟨?_, hnone⟩)
        fun hr => Bool.noConfusion hr
      exact ⟨front, _, [], recovery, rfl, rfl, hbehind, fun _ hin => absurd hin List.not_mem_nil⟩
    · rw [Bool.not_eq_true, Bool.or_eq_false_iff, Bool.not_eq_false'] at hresumes
      obtain ⟨rfl, hresumed⟩ := hresumes
      by_cases hlate : STALE_FLUSH_RECOVERY_US ≤ nowUs - t.resumedUs
      · have hnext : t.onFrameDecoded nowUs false =
            { t with staleFlushesInARow := 0, resumed := false } := by
          rw [onFrameDecoded, if_neg hnone, hresumed, if_neg (by decide), if_pos hlate]
        have hended : (t.event (.frameDecoded nowUs false)).ended = true := by
          show (decide (t.staleFlushesInARow ≠ 0) &&
            decide ((t.onFrameDecoded nowUs false).staleFlushesInARow = 0)) = true
          rw [hnext, decide_eq_true hnone]
          rfl
        have hrun : currentRun (front ++ [t.event (.frameDecoded nowUs false)]) = [] := by
          rw [currentRun_append, if_pos hended]
        rw [show t.next (.frameDecoded nowUs false) = _ from hnext]
        refine ⟨?_, ?_, fun e he => ?_, fun e he => ?_, Bool.noConfusion, Bool.noConfusion,
          fun _ hc => (hc rfl).elim⟩
        · rw [hrun]
          rfl
        · rw [hrun]
          rfl
        · rw [hrun] at he
          cases he
        · rw [hrun] at he
          cases he
      · have hnext : t.onFrameDecoded nowUs false = t := by
          rw [onFrameDecoded, if_neg hnone, hresumed, if_neg (by decide), if_neg hlate]
        rw [show t.next (.frameDecoded nowUs false) = t from hnext]
        refine h.unrequested rfl rfl (hkept t hnext rfl) rfl rfl
          (fun hr => ⟨(h.resumed hr).append rfl, hnone⟩) fun hr => ?_
        rw [hresumed] at hr
        cases hr

/-! ### Runs -/

variable {calls : List TrackerCall}

theorem log_concat (t : VideoDecodeStaleFlushTracker) (calls : List TrackerCall)
    (call : TrackerCall) :
    t.log (calls ++ [call]) = t.log calls ++ [(Machine.run next t calls).event call] := by
  induction calls generalizing t with
  | nil => rfl
  | cons first calls ih => exact congrArg (t.event first :: ·) (ih (t.next first))

theorem log_append (t : VideoDecodeStaleFlushTracker) (calls calls' : List TrackerCall) :
    t.log (calls ++ calls') = t.log calls ++ (Machine.run next t calls).log calls' := by
  induction calls generalizing t with
  | nil => rfl
  | cons first calls ih => exact congrArg (t.event first :: ·) (ih (t.next first))

/-- An event of the log is the one of a call. -/
theorem call_of_prefix {e : TrackerEvent} (h : front ++ [e] <+: t.log calls) :
    ∃ before call, before ++ [call] <+: calls ∧ front = t.log before ∧
      e = (Machine.run next t before).event call := by
  induction calls generalizing t front with
  | nil =>
      have hnil := List.prefix_nil.mp h
      simp at hnil
  | cons first calls ih =>
      cases front with
      | nil =>
          obtain ⟨he, -⟩ := List.cons_prefix_cons.mp h
          exact ⟨[], first, by simp, rfl, he⟩
      | cons f front =>
          obtain ⟨rfl, hrest⟩ := List.cons_prefix_cons.mp h
          obtain ⟨before, call, hbefore, rfl, rfl⟩ := ih hrest
          exact ⟨first :: before, call, List.cons_prefix_cons.mpr ⟨rfl, hbefore⟩, rfl, rfl⟩

theorem call_mem_of_log {e : TrackerEvent} (h : e ∈ t.log calls) : e.call ∈ calls := by
  induction calls generalizing t with
  | nil => cases h
  | cons first calls ih =>
      obtain rfl | hrest := List.mem_cons.mp h
      · exact List.mem_cons_self
      · exact List.mem_cons_of_mem _ (ih hrest)

theorem Tracks.next (h : t.Tracks front) (hbefore : ∀ e ∈ front, e.call.nowUs ≤ call.nowUs)
    (hasked : t.AskedSuppressed call) (hcounted : t.Counted call) :
    (t.next call).Tracks (front ++ [t.event call]) := by
  cases call with
  | staleFlush nowUs => exact h.staleFlush (hcounted rfl) hbefore
  | slowRequest nowUs => exact h.slowRequest (hasked rfl)
  | frameDecoded nowUs recovery => exact h.frameDecoded nowUs recovery

theorem tracks_new : Tracks {} [] := by
  refine ⟨rfl, rfl, fun e he => ?_, fun e he => ?_, Bool.noConfusion, Bool.noConfusion,
    fun _ hc => (hc rfl).elim⟩
  · cases he
  · cases he

/-- In every state of a run the tracker knows of its flushes. -/
theorem tracks_run (hsorted : calls.Pairwise fun a b => a.nowUs ≤ b.nowUs)
    (hasked : Machine.AllSteps next AskedSuppressed {} calls)
    (hcounted : Machine.AllSteps next Counted {} calls) :
    (Machine.run next {} calls).Tracks (log {} calls) := by
  induction calls using List.reverseRecOn with
  | nil => exact tracks_new
  | append_singleton calls call ih =>
      obtain ⟨hsorted', -, hbefore⟩ := List.pairwise_append.mp hsorted
      obtain ⟨hasked', hcall⟩ := Machine.allSteps_append.mp hasked
      obtain ⟨hcounted', hcall'⟩ := Machine.allSteps_append.mp hcounted
      rw [Machine.run_append, log_concat]
      refine (ih hsorted' hasked' hcounted').next (fun e he => ?_) hcall.1 hcall'.1
      exact hbefore e.call (call_mem_of_log he) call List.mem_cons_self

/-- A request keeps its distance. -/
theorem Tracks.spaced (h : t.Tracks front) (hcounted : t.Counted call)
    (hgranted : (t.event call).granted = true) {before : TrackerEvent}
    (hin : before ∈ currentRun front) (hbefore : before.granted = true)
    (hslow : call.isSlow = true ∨ before.call.isSlow = true) :
    STALE_FLUSH_SLOW_PLI_US ≤ call.nowUs - before.call.nowUs := by
  cases call with
  | staleFlush nowUs =>
      obtain hnot | hslow := hslow
      · cases hnot
      · have hmany := h.slow before hin hbefore hslow
        rw [granted_staleFlush nowUs (hcounted rfl), decide_eq_true_iff] at hgranted
        omega
  | slowRequest nowUs =>
      have hlast := h.requested before hin hbefore
      have hlate : ¬ nowUs - t.requestedUs < STALE_FLUSH_SLOW_PLI_US := by
        intro hearly
        have hstep : t.step (.slowRequest nowUs) = (t, false) := if_pos hearly
        rw [event, hstep] at hgranted
        cases hgranted
      show STALE_FLUSH_SLOW_PLI_US ≤ nowUs - before.call.nowUs
      omega
  | frameDecoded nowUs recovery => cases hgranted

/-- A run ends in time. -/
theorem Tracks.ends (h : t.Tracks front) (hcounted : t.Counted call)
    (hended : (t.event call).ended = true) :
    ∃ nowUs resumedUs, call = .frameDecoded nowUs false ∧ DecodingSince front resumedUs ∧
      STALE_FLUSH_RECOVERY_US ≤ nowUs - resumedUs := by
  have hends : t.staleFlushesInARow ≠ 0 ∧ (t.next call).staleFlushesInARow = 0 := by
    rw [event, Bool.and_eq_true, decide_eq_true_iff, decide_eq_true_iff] at hended
    exact hended
  cases call with
  | staleFlush nowUs =>
      have hcount := count_staleFlush nowUs (hcounted rfl)
      rw [hends.2] at hcount
      cases hcount
  | slowRequest nowUs =>
      exact absurd ((next_slowRequest_count nowUs).symm.trans hends.2) hends.1
  | frameDecoded nowUs recovery =>
      have hnext : (t.onFrameDecoded nowUs recovery).staleFlushesInARow = 0 := hends.2
      rw [onFrameDecoded, if_neg hends.1] at hnext
      split at hnext
      · exact absurd hnext hends.1
      next hresumes =>
        rw [Bool.not_eq_true, Bool.or_eq_false_iff, Bool.not_eq_false'] at hresumes
        obtain ⟨rfl, hresumed⟩ := hresumes
        split at hnext
        next hlate =>
          exact ⟨nowUs, t.resumedUs, rfl, h.resumed hresumed, hlate⟩
        · exact absurd hnext hends.1

/-- A flush that wraps the count ends the run. -/
theorem ended_of_wrap {nowUs : Int} (h : ¬ t.staleFlushesInARow.toNat + 1 < 2 ^ 32) :
    (t.event (.staleFlush nowUs)).ended = true := by
  have hlt := t.staleFlushesInARow.isLt
  have hsome : t.staleFlushesInARow ≠ 0 := by
    rw [ne_zero_iff]
    omega
  have hwrap : (t.next (.staleFlush nowUs)).staleFlushesInARow = 0 := by
    rw [next_staleFlush_count]
    apply BitVec.eq_of_toNat_eq
    rw [BitVec.toNat_add]
    show (t.staleFlushesInARow.toNat + 1) % 2 ^ 32 = 0
    omega
  rw [event, decide_eq_true hsome, decide_eq_true hwrap]
  rfl

theorem counted_of_ends
    (h : ∀ e ∈ t.log calls, e.ended = true → e.call.isFlush = false) :
    Machine.AllSteps next Counted t calls := by
  induction calls generalizing t with
  | nil => trivial
  | cons call calls ih =>
      obtain ⟨hfirst, hrest⟩ := List.forall_mem_cons.mp h
      refine ⟨fun hflush => ?_, ih hrest⟩
      by_contra hwrap
      cases call with
      | staleFlush nowUs => exact Bool.noConfusion (hfirst (ended_of_wrap hwrap))
      | slowRequest nowUs => cases hflush
      | frameDecoded nowUs recovery => cases hflush

theorem antiFlap_of_counted (hsorted : calls.Pairwise fun a b => a.nowUs ≤ b.nowUs)
    (hasked : Machine.AllSteps next AskedSuppressed {} calls)
    (hcounted : Machine.AllSteps next Counted {} calls) : AntiFlap (log {} calls) := by
  -- the tracker in front of every call, and behind it
  have hcalls : ∀ front e, front ++ [e] <+: log {} calls → ∃ (t : VideoDecodeStaleFlushTracker)
      (call : TrackerCall), e = t.event call ∧ t.Tracks front ∧ t.Counted call ∧
        (t.next call).Tracks (front ++ [e]) := by
    intro front e hpre
    obtain ⟨before, call, ⟨after, rfl⟩, rfl, rfl⟩ := call_of_prefix hpre
    have hsorted' := (List.pairwise_append.mp hsorted).1
    have hasked' := (Machine.allSteps_append.mp hasked).1
    have hcounted' := (Machine.allSteps_append.mp hcounted).1
    have hbehind := tracks_run hsorted' hasked' hcounted'
    rw [Machine.run_append, log_concat] at hbehind
    obtain ⟨hfront, hcall⟩ := Machine.allSteps_append.mp hcounted'
    exact ⟨_, call, rfl, tracks_run (List.pairwise_append.mp hsorted').1
      (Machine.allSteps_append.mp hasked').1 hfront, hcall.1, hbehind⟩
  refine ⟨fun front hpre => ?_, fun front e hpre hgranted before hin hbefore hslow => ?_,
    fun front e hpre hended => ?_⟩
  · obtain rfl | ⟨front, e, rfl⟩ := List.eq_nil_or_concat front
    · exact Nat.zero_le 2
    · rw [List.concat_eq_append] at hpre ⊢
      obtain ⟨t, call, -, -, -, hbehind⟩ := hcalls front e hpre
      rw [hbehind.flushes]
      exact Nat.min_le_right _ _
  · obtain ⟨t, call, rfl, htracks, hcounted, -⟩ := hcalls front e hpre
    exact htracks.spaced hcounted hgranted hin hbefore hslow
  · obtain ⟨t, call, rfl, htracks, hcounted, -⟩ := hcalls front e hpre
    exact htracks.ends hcounted hended

/-- The law holds in exactly the runs in which no flush wraps the count. -/
theorem antiFlap_iff_counted (hsorted : calls.Pairwise fun a b => a.nowUs ≤ b.nowUs)
    (hasked : Machine.AllSteps next AskedSuppressed {} calls) :
    AntiFlap (log {} calls) ↔ Machine.AllSteps next Counted {} calls := by
  refine ⟨fun h => counted_of_ends fun e he hended => ?_, antiFlap_of_counted hsorted hasked⟩
  obtain ⟨front, after, hsplit⟩ := List.append_of_mem he
  have hpre : front ++ [e] <+: log {} calls :=
    ⟨after, by rw [List.append_assoc, hsplit, List.singleton_append]⟩
  obtain ⟨nowUs, resumedUs, hcall, -, -⟩ := h.ends front e hpre hended
  rw [hcall]
  rfl

/-- Three flushes, a request of the slow cadence, and a decoder that keeps up for four seconds. -/
theorem antiFlap_iff_counted_recovery : AntiFlap (log {}
    [.staleFlush 0, .staleFlush 1000000, .staleFlush 2000000, .slowRequest 6000000,
      .frameDecoded 7000000 true, .frameDecoded 11000000 false]) :=
  (antiFlap_iff_counted (by decide) (by decide)).mpr (by decide)

theorem count_replicate (n : Nat) :
    (Machine.run next {} (List.replicate n (.staleFlush 0))).staleFlushesInARow =
      BitVec.ofNat 32 n := by
  induction n with
  | zero => rfl
  | succ n ih =>
      rw [List.replicate_succ', Machine.run_append, Machine.run_cons, Machine.run_nil,
        next_staleFlush_count, ih]
      exact (BitVec.ofNat_add ..).symm

/-- The flush number 2^32 is granted as the first of a run. -/
theorem not_antiFlap : ¬ ∀ calls : List TrackerCall,
    (calls.Pairwise fun a b => a.nowUs ≤ b.nowUs) →
      Machine.AllSteps next AskedSuppressed {} calls → AntiFlap (log {} calls) := by
  intro hall
  have hsorted : ∀ n, (List.replicate n (TrackerCall.staleFlush 0)).Pairwise
      fun a b => a.nowUs ≤ b.nowUs := fun n => List.pairwise_replicate.mpr (.inr le_rfl)
  have hasked : ∀ n, Machine.AllSteps next AskedSuppressed {}
      (List.replicate n (.staleFlush 0)) := by
    intro n
    refine Machine.allSteps_of_forall fun _ call hcall hslow => ?_
    obtain rfl := List.eq_of_mem_replicate hcall
    cases hslow
  obtain ⟨last, hlast⟩ : ∃ last, last + 1 = 2 ^ 32 := ⟨2 ^ 32 - 1, rfl⟩
  have hlaw := hall _ (hsorted (last + 1)) (hasked (last + 1))
  have hwrap : ¬ (Machine.run next {}
      (List.replicate last (.staleFlush 0))).staleFlushesInARow.toNat + 1 < 2 ^ 32 := by
    rw [count_replicate, BitVec.toNat_ofNat]
    omega
  rw [List.replicate_succ', log_concat] at hlaw
  obtain ⟨nowUs, resumedUs, hcall, -, -⟩ :=
    hlaw.ends _ _ (List.prefix_refl _) (ended_of_wrap hwrap)
  cases hcall

end VideoDecodeStaleFlushTracker

end Parties.Video

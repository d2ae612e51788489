import Parties.Video.FrameReorderDelivery
import Parties.Video.LossReports

/-!
# Frames that were reported aborted

A frame reported aborted ahead of the chain is outstanding until the chain reaches or
passes it. The buffer remembers the outstanding frames, up to `MAX_ABORTED_TRACKED` of
them, so that it never waits for one: when an outstanding frame is next, it awaits a
keyframe. `reset` forgets them with everything else.
-/

namespace Parties.Video

variable {φ : Type}

namespace VideoFrameReorderBuffer

/-! ### Outstanding frames -/

/-- A frame with this number is held. -/
def holds (b : VideoFrameReorderBuffer φ) (seq : BitVec 32) : Bool :=
  b.held.entries.any fun e => decide (e.2.hdr.frameSeq = seq)

/-- The outstanding frames after the report of `seq`. -/
def withAborted (b : VideoFrameReorderBuffer φ) (outstanding : List (BitVec 32))
    (seq : BitVec 32) : List (BitVec 32) :=
  if b.haveLast && videoSeqNewer seq b.lastDelivered && !b.holds seq && !outstanding.contains seq
  then outstanding ++ [seq] else outstanding

variable [FrameBytes φ]

/-- The frames reported aborted ahead of the chain, neither delivered nor passed since. -/
def nextOutstanding (b : VideoFrameReorderBuffer φ) (outstanding : List (BitVec 32))
    (op : ReorderOp φ) : List (BitVec 32) :=
  let kept := outstanding.filter fun seq => videoSeqNewer seq (b.step op).1.lastDelivered
  match op with
  | .frameAborted seq _ => b.withAborted kept seq
  | .reset => []
  | _ => kept

/-- A buffer and its outstanding frames, one call on. -/
def outstandingStep (s : VideoFrameReorderBuffer φ × List (BitVec 32)) (op : ReorderOp φ) :
    VideoFrameReorderBuffer φ × List (BitVec 32) :=
  ((s.1.step op).1, s.1.nextOutstanding s.2 op)

variable {b b' : VideoFrameReorderBuffer φ} {a : BitVec 32} {nowUs : Int}

/-! ### The chain only moves ahead -/

omit [FrameBytes φ] in
/-- What holds of the held frames between calls. -/
structure Keyed (b : VideoFrameReorderBuffer φ) : Prop where
  key : ∀ e ∈ b.held.entries, e.1 = videoSeqDistance e.2.hdr.frameSeq b.lastDelivered
  ahead : b.haveLast = true → ∀ e ∈ b.held.entries, 2 ≤ e.1

omit [FrameBytes φ] in
theorem HeldAhead.settled (h : HeldAhead b a)
    (hstop : ∀ e, b.held.front? = some e → e.2.hdr.frameSeq ≠ b.lastDelivered + 1) :
    Keyed b.settled := by
  constructor
  · exact fun e he => (mem_rekeyHeld h.key he).1
  · intro _ e he
    obtain ⟨hkey, e', he', heq⟩ := mem_rekeyHeld h.key he
    rw [hkey, ← heq]
    exact h.two_ahead hstop e' he'

/-- A resumed chain: the last number moved ahead, the numbers it passed are forgotten, and
    an aborted next frame makes the buffer await a keyframe. -/
structure Resumed (b r : VideoFrameReorderBuffer φ) (a : BitVec 32) : Prop where
  keyed : Keyed r
  haveLast : r.haveLast = b.haveLast
  moved : videoSeqDistance b.lastDelivered a ≤ videoSeqDistance r.lastDelivered a
  aborted : r.aborted = b.aborted.filter fun seq => videoSeqNewer seq r.lastDelivered
  next : r.lastDelivered + 1 ∈ r.aborted → r.awaitingKeyframe = true

omit [FrameBytes φ] in
theorem requireKeyframe_awaits (b : VideoFrameReorderBuffer φ) (nowUs : Int) :
    (b.requireKeyframe nowUs).1.awaitingKeyframe = true := by
  rw [requireKeyframe]
  cases hawaiting : b.awaitingKeyframe with
  | true => exact hawaiting
  | false =>
      rw [if_neg (by decide)]
      dsimp only
      split
      · rfl
      · rw [reportLoss]
        split
        · rfl
        · rfl

theorem resumeAt_resumed (h : HeldAhead b a) (hdr : VideoFrameHeader) (frame : φ) :
    Resumed b (b.resumeAt hdr frame nowUs).1 a := by
  obtain ⟨taken, m, hdrains, hresume⟩ := resumeAt_drains b hdr frame nowUs
  have hforget := forgetInflightThrough_eq b hdr.frameSeq
  rw [hforget] at hdrains
  have hstart : HeldAhead { b with
      inflightKey := b.inflightKey && videoSeqNewer b.inflightKeySeq hdr.frameSeq } a :=
    ⟨h.key, h.base, h.ahead⟩
  obtain ⟨hahead, hmoved⟩ := hstart.drains hdrains
  have hframe := hdrains.frame
  have hhave : m.haveLast = b.haveLast := by rw [hframe]
  have haborted : m.aborted = b.aborted := by rw [hframe]
  have hkeyed := hahead.settled hdrains.stopped
  obtain ⟨awaiting, reported, hstate⟩ := (checkNext_recoveryOnly m.settled nowUs).state
  have hlast : (b.resumeAt hdr frame nowUs).1 = (m.settled.checkNext nowUs).1 := by rw [hresume]
  rw [hlast]
  have hnext : (m.settled.checkNext nowUs).1.lastDelivered + 1 ∈
      (m.settled.checkNext nowUs).1.aborted →
      (m.settled.checkNext nowUs).1.awaitingKeyframe = true := by
    intro hin
    have hsettled : m.settled.nextIsAborted = true := by
      rw [nextIsAborted, List.contains_iff_mem]
      rw [hstate] at hin
      exact hin
    rw [checkNext, if_pos hsettled]
    exact requireKeyframe_awaits m.settled nowUs
  refine ⟨?_, ?_, ?_, ?_, hnext⟩
  · rw [hstate]
    exact ⟨hkeyed.key, hkeyed.ahead⟩
  · rw [hstate]
    exact hhave
  · rw [hstate]
    exact hmoved
  · rw [hstate, ← haborted]
    rfl

/-! ### What is tracked -/

/-- The buffer knows its outstanding frames. -/
structure AbortsTracked (b : VideoFrameReorderBuffer φ) (outstanding : List (BitVec 32)) :
    Prop where
  keyed : Keyed b
  unstarted : b.haveLast = false → outstanding = []
  newer : ∀ seq ∈ outstanding, videoSeqNewer seq b.lastDelivered = true
  known : ∀ seq ∈ outstanding, seq ∈ b.aborted ∨ seq = b.lastDelivered + 1
  next : b.lastDelivered + 1 ∈ outstanding → b.awaitingKeyframe = true
  nodup : b.haveLast = true → b.aborted.Nodup
  aborted : b.haveLast = true → ∀ seq ∈ b.aborted, seq ∈ outstanding

variable {outstanding : List (BitVec 32)}

omit [FrameBytes φ] in
/-- A call that does not move the chain. -/
theorem AbortsTracked.still (h : AbortsTracked b outstanding) (hkeyed : Keyed b')
    (hhave : b'.haveLast = b.haveLast) (hlast : b.haveLast = true → b'.lastDelivered = b.lastDelivered)
    (haborted : b'.aborted = b.aborted)
    (hawaiting : b.awaitingKeyframe = true → b'.awaitingKeyframe = true) :
    AbortsTracked b' (outstanding.filter fun seq => videoSeqNewer seq b'.lastDelivered) := by
  cases hstarted : b.haveLast with
  | false =>
      rw [h.unstarted hstarted]
      refine ⟨hkeyed, fun _ => rfl, nofun, nofun, nofun, fun hyes => ?_, fun hyes => ?_⟩
      · rw [hhave, hstarted] at hyes
        cases hyes
      · rw [hhave, hstarted] at hyes
        cases hyes
  | true =>
      have hkept : outstanding.filter (fun seq => videoSeqNewer seq b'.lastDelivered) =
          outstanding := by
        rw [List.filter_eq_self, hlast hstarted]
        exact h.newer
      rw [hkept]
      refine ⟨hkeyed, fun hno => ?_, ?_, ?_, fun hin => ?_, fun _ => ?_, fun _ => ?_⟩
      · exact h.unstarted (hhave.symm.trans hno)
      · rw [hlast hstarted]
        exact h.newer
      · rw [hlast hstarted, haborted]
        exact h.known
      · rw [hlast hstarted] at hin
        exact hawaiting (h.next hin)
      · rw [haborted]
        exact h.nodup hstarted
      · rw [haborted]
        exact h.aborted hstarted

omit [FrameBytes φ] in
/-- Once the chain moved, the frame that was next is passed. -/
theorem not_newer_of_moved {last last' : BitVec 32} (hmoved : 0 < videoSeqDistance last' last) :
    videoSeqNewer (last + 1) last' = false := by
  have hone : videoSeqDistance (last + 1) last = 1 := videoSeqDistance_succ last
  have hrebase := @videoSeqDistance_rebase (last + 1) last last' (by omega) (by omega)
  rw [Bool.eq_false_iff, ne_eq, videoSeqNewer_iff, hrebase]
  omega

omit [FrameBytes φ] in
/-- A call that delivers frames and drains. -/
theorem AbortsTracked.resumed {r : VideoFrameReorderBuffer φ} (h : AbortsTracked b outstanding)
    (hhave : b.haveLast = true) (hr : Resumed b' r b.lastDelivered)
    (hhave' : b'.haveLast = true) (haborted : b'.aborted = b.aborted)
    (hmoved : 0 < videoSeqDistance b'.lastDelivered b.lastDelivered) :
    AbortsTracked r (outstanding.filter fun seq => videoSeqNewer seq r.lastDelivered) := by
  have hpassed := not_newer_of_moved (hmoved.trans_le hr.moved)
  have hyes : r.haveLast = true := hr.haveLast.trans hhave'
  have hfilter := hr.aborted
  rw [haborted] at hfilter
  have hknown : ∀ seq ∈ outstanding.filter (fun seq => videoSeqNewer seq r.lastDelivered),
      seq ∈ r.aborted := by
    intro seq hin
    obtain ⟨hout, hnewer⟩ := List.mem_filter.mp hin
    rw [hfilter]
    rcases h.known seq hout with haborted' | rfl
    · exact List.mem_filter.mpr ⟨haborted', hnewer⟩
    · rw [hpassed] at hnewer
      cases hnewer
  refine ⟨hr.keyed, fun hno => ?_, fun seq hin => (List.mem_filter.mp hin).2,
    fun seq hin => .inl (hknown seq hin), fun hin => hr.next (hknown _ hin), fun _ => ?_,
    fun _ seq hin => ?_⟩
  · rw [hyes] at hno
    cases hno
  · rw [hfilter]
    exact (h.nodup hhave).filter _
  · rw [hfilter] at hin
    obtain ⟨haborted', hnewer⟩ := List.mem_filter.mp hin
    exact List.mem_filter.mpr ⟨h.aborted hhave seq haborted', hnewer⟩

/-! ### The calls -/

theorem Keyed.evicts (h : Keyed b) (he : Evicts b b') : Keyed b' := by
  have hmem := fun e => he.entries.mem (a := e)
  rw [he.frame]
  exact ⟨fun e hin => h.key e (hmem e hin), fun hhave e hin => h.ahead hhave e (hmem e hin)⟩

theorem Keyed.boundHeld (h : Keyed b) : Keyed b.boundHeld := by
  obtain ⟨hkey, hahead⟩ := h.evicts (boundHeldLoop_evicts b.held.size b)
  exact ⟨hkey, hahead⟩

omit [FrameBytes φ] in
theorem Keyed.recovery {r : VideoFrameReorderBuffer φ × List (ReorderEvent φ)} (h : Keyed b)
    (hr : RecoveryOnly b r) : Keyed r.1 := by
  obtain ⟨awaiting, reported, hstate⟩ := hr.state
  rw [hstate]
  exact ⟨h.key, h.ahead⟩

theorem Keyed.hold {hdr : VideoFrameHeader} (h : Keyed b)
    (hfree : b.held.contains (b.keyFor hdr.frameSeq) = false)
    (hahead : b.haveLast = true → 2 ≤ videoSeqDistance hdr.frameSeq b.lastDelivered) (frame : φ)
    (nowUs : Int) : Keyed (b.hold hdr frame nowUs) := by
  constructor
  · intro e he
    rcases (OrderedMap.mem_emplace hfree).mp he with rfl | he
    · rfl
    · exact h.key e he
  · intro hhave e he
    rcases (OrderedMap.mem_emplace hfree).mp he with rfl | he
    · exact hahead hhave
    · exact h.ahead hhave e he

omit [FrameBytes φ] in
theorem reportLoss_awaiting (b : VideoFrameReorderBuffer φ) :
    b.reportLoss.1.awaitingKeyframe = b.awaitingKeyframe := by
  rw [reportLoss]
  split
  · rfl
  · rfl

theorem onStartupDelta_tracked (h : AbortsTracked b outstanding) (hhave : b.haveLast = false)
    (hdr : VideoFrameHeader) (frame : φ) :
    AbortsTracked (b.onStartupDelta hdr frame nowUs)
      (outstanding.filter fun seq =>
        videoSeqNewer seq (b.onStartupDelta hdr frame nowUs).lastDelivered) := by
  have hnever : b.haveLast = true →
      (b.onStartupDelta hdr frame nowUs).lastDelivered = b.lastDelivered := by
    intro hyes
    rw [hhave] at hyes
    cases hyes
  obtain ⟨b₀, hb₀⟩ : ∃ b₀, b₀ = if b.held.isEmpty then { b with lastDelivered := hdr.frameSeq }
    else b := ⟨_, rfl⟩
  -- with nothing held the base is free
  have hstart : Keyed b₀ ∧ b₀.haveLast = b.haveLast ∧ b₀.aborted = b.aborted ∧
      b₀.awaitingKeyframe = b.awaitingKeyframe := by
    rw [hb₀]
    split
    next hempty =>
      have hnil := OrderedMap.isEmpty_iff.mp hempty
      refine ⟨⟨?_, ?_⟩, rfl, rfl, rfl⟩
      · simp [hnil]
      · simp [hnil]
    · exact ⟨h.keyed, rfl, rfl, rfl⟩
  obtain ⟨hkeyed, hhave₀, haborted₀, hawaiting₀⟩ := hstart
  have hdelta : b.onStartupDelta hdr frame nowUs =
      if b₀.held.contains (b₀.keyFor hdr.frameSeq) then b₀
      else (b₀.hold hdr frame nowUs).boundHeld := by
    rw [onStartupDelta, ← hb₀]
  cases hfree : b₀.held.contains (b₀.keyFor hdr.frameSeq) with
  | true =>
      rw [hfree, if_pos rfl] at hdelta
      rw [hdelta] at hnever ⊢
      exact h.still hkeyed hhave₀ hnever haborted₀ fun hyes => hawaiting₀.trans hyes
  | false =>
      rw [hfree, if_neg (by decide)] at hdelta
      rw [hdelta] at hnever ⊢
      have hheld : Keyed (b₀.hold hdr frame nowUs) :=
        hkeyed.hold hfree (fun hyes => by rw [hhave₀, hhave] at hyes; cases hyes) frame nowUs
      have hframe := boundHeld_frame (b₀.hold hdr frame nowUs)
      apply h.still hheld.boundHeld
      · rw [hframe]
        exact hhave₀
      · exact hnever
      · rw [hframe]
        exact haborted₀
      · intro hyes
        rw [hframe]
        exact hawaiting₀.trans hyes

theorem onFirstKeyframe_tracked (h : AbortsTracked b outstanding) (hhave : b.haveLast = false)
    (hdr : VideoFrameHeader) (frame : φ) :
    AbortsTracked (b.onFirstKeyframe hdr frame nowUs).1
      (outstanding.filter fun seq =>
        videoSeqNewer seq (b.onFirstKeyframe hdr frame nowUs).1.lastDelivered) := by
  have hevicts := dropHeld_evicts b fun e => videoSeqNewer e.2.hdr.frameSeq hdr.frameSeq
  have hkept := h.keyed.evicts hevicts
  obtain ⟨b', hb'⟩ : ∃ b', b' = { b.dropHeld (fun e => videoSeqNewer e.2.hdr.frameSeq hdr.frameSeq) with
      haveLast := true
      awaitingKeyframe := false
      lossReported := false
      lastDelivered := hdr.frameSeq
      aborted := []
      held := rekeyHeld (b.dropHeld fun e => videoSeqNewer e.2.hdr.frameSeq hdr.frameSeq).held
        hdr.frameSeq } := ⟨_, rfl⟩
  have hahead : HeldAhead b' hdr.frameSeq := by
    rw [hb']
    refine ⟨fun e he => (mem_rekeyHeld hkept.key he).1, ?_, fun e he => ?_⟩
    · dsimp only
      rw [videoSeqDistance_self]
    · obtain ⟨hkey, e', he', heq⟩ := mem_rekeyHeld hkept.key he
      have hnewer := videoSeqNewer_iff.mp (List.mem_filter.mp he').2
      dsimp only
      rw [videoSeqDistance_self, hkey, ← heq]
      exact hnewer
  have hresume : b.onFirstKeyframe hdr frame nowUs = b'.resumeAt hdr frame nowUs := by
    rw [hb']
    rfl
  have hr : Resumed b' (b.onFirstKeyframe hdr frame nowUs).1 hdr.frameSeq := by
    rw [hresume]
    exact resumeAt_resumed hahead hdr frame
  have hnone : (b.onFirstKeyframe hdr frame nowUs).1.aborted = [] := by
    rw [hr.aborted, hb']
    rfl
  rw [h.unstarted hhave]
  refine ⟨hr.keyed, fun _ => rfl, nofun, nofun, nofun, fun _ => ?_, fun _ seq hin => ?_⟩
  · rw [hnone]
    exact List.nodup_nil
  · rw [hnone] at hin
    cases hin

theorem onNextFrame_tracked (h : AbortsTracked b outstanding) (hhave : b.haveLast = true)
    {hdr : VideoFrameHeader} (hnext : hdr.frameSeq = b.lastDelivered + 1) (frame : φ) :
    AbortsTracked (b.onNextFrame hdr frame nowUs).1
      (outstanding.filter fun seq =>
        videoSeqNewer seq (b.onNextFrame hdr frame nowUs).1.lastDelivered) := by
  have hone := videoSeqDistance_eq_one_iff.mpr hnext
  have hahead : HeldAhead { b with
      awaitingKeyframe := false
      lossReported := false
      lastDelivered := hdr.frameSeq } b.lastDelivered := by
    refine ⟨h.keyed.key, ?_, fun e he => ?_⟩
    · dsimp only
      omega
    · have htwo := h.keyed.ahead hhave e he
      dsimp only
      omega
  exact h.resumed hhave (resumeAt_resumed hahead hdr frame) hhave rfl (by dsimp only; omega)

theorem onKeyframeJump_tracked (h : AbortsTracked b outstanding) (hhave : b.haveLast = true)
    {hdr : VideoFrameHeader} (hnewer : videoSeqNewer hdr.frameSeq b.lastDelivered = true)
    (frame : φ) :
    AbortsTracked (b.onKeyframeJump hdr frame nowUs).1
      (outstanding.filter fun seq =>
        videoSeqNewer seq (b.onKeyframeJump hdr frame nowUs).1.lastDelivered) := by
  have hpos := videoSeqNewer_iff.mp hnewer
  have hevicts := dropHeld_evicts b fun e => decide (b.keyFor hdr.frameSeq < e.1)
  have hahead : HeldAhead { b.dropHeld fun e => decide (b.keyFor hdr.frameSeq < e.1) with
      awaitingKeyframe := false
      lossReported := false
      lastDelivered := hdr.frameSeq } b.lastDelivered := by
    refine ⟨fun e he => h.keyed.key e (hevicts.entries.mem he), hpos.le, fun e he => ?_⟩
    exact decide_eq_true_eq.mp (List.mem_filter.mp he).2
  exact h.resumed hhave (resumeAt_resumed hahead hdr frame) hhave rfl hpos

theorem onGapDelta_tracked (h : AbortsTracked b outstanding) {hdr : VideoFrameHeader}
    (hahead : 2 ≤ videoSeqDistance hdr.frameSeq b.lastDelivered) (frame : φ) :
    AbortsTracked (b.onGapDelta hdr frame nowUs).1
      (outstanding.filter fun seq =>
        videoSeqNewer seq (b.onGapDelta hdr frame nowUs).1.lastDelivered) := by
  cases hfree : b.held.contains (b.keyFor hdr.frameSeq) with
  | true =>
      have hsame : b.onGapDelta hdr frame nowUs = (b, []) := by rw [onGapDelta, hfree, if_pos rfl]
      rw [hsame]
      exact h.still h.keyed rfl (fun _ => rfl) rfl id
  | false =>
      obtain ⟨b₀, hb₀⟩ : ∃ b₀, b₀ = (if b.held.isEmpty then { b with gapSinceUs := nowUs } else b).hold
          hdr frame nowUs := ⟨_, rfl⟩
      have hstart : Keyed b₀ ∧ b₀.haveLast = b.haveLast ∧ b₀.lastDelivered = b.lastDelivered ∧
          b₀.aborted = b.aborted ∧ b₀.awaitingKeyframe = b.awaitingKeyframe := by
        obtain ⟨hkey, hheld⟩ := h.keyed.hold hfree (fun _ => hahead) frame nowUs
        rw [hb₀]
        split
        · exact ⟨⟨hkey, hheld⟩, rfl, rfl, rfl, rfl⟩
        · exact ⟨⟨hkey, hheld⟩, rfl, rfl, rfl, rfl⟩
      obtain ⟨hkeyed₀, hhave₀, hlast₀, haborted₀, hawaiting₀⟩ := hstart
      have hrecovery := requireKeyframe_recoveryOnly b₀ nowUs
      have hrequired : Keyed (b₀.requireKeyframe nowUs).1 := hkeyed₀.recovery hrecovery
      obtain ⟨_, _, hstate⟩ := hrecovery.state
      have hfield : (b₀.requireKeyframe nowUs).1.haveLast = b.haveLast ∧
          (b₀.requireKeyframe nowUs).1.lastDelivered = b.lastDelivered ∧
          (b₀.requireKeyframe nowUs).1.aborted = b.aborted := by
        rw [hstate]
        exact ⟨hhave₀, hlast₀, haborted₀⟩
      obtain ⟨hhave₁, hlast₁, haborted₁⟩ := hfield
      have hawaits := requireKeyframe_awaits b₀ nowUs
      rw [onGapDelta, hfree, if_neg (by decide)]
      dsimp only
      rw [← hb₀]
      split
      · have hframe := boundHeld_frame (b₀.requireKeyframe nowUs).1
        apply h.still hrequired.boundHeld
        · rw [hframe]
          exact hhave₁
        · intro _
          rw [hframe]
          exact hlast₁
        · rw [hframe]
          exact haborted₁
        · intro _
          rw [hframe]
          exact hawaits
      · split
        · exact h.still hrequired hhave₁ (fun _ => hlast₁) haborted₁ fun _ => hawaits
        · exact h.still hkeyed₀ hhave₀ (fun _ => hlast₀) haborted₀ fun hyes => hawaiting₀.trans hyes

theorem onFrame_tracked (h : AbortsTracked b outstanding) (hdr : VideoFrameHeader) (frame : φ) :
    AbortsTracked (b.onFrame hdr frame nowUs).1
      (outstanding.filter fun seq =>
        videoSeqNewer seq (b.onFrame hdr frame nowUs).1.lastDelivered) := by
  rw [onFrame]
  split
  · exact h.still h.keyed rfl (fun _ => rfl) rfl id
  next hstale =>
    cases hhave : b.haveLast with
    | false =>
        cases hdr.keyframe with
        | false => exact onStartupDelta_tracked h hhave hdr frame
        | true => exact onFirstKeyframe_tracked h hhave hdr frame
    | true =>
        rw [hhave, Bool.true_and, Bool.not_eq_true', Bool.not_eq_false] at hstale
        have hpos := videoSeqNewer_iff.mp hstale
        simp only [Bool.not_true, Bool.false_eq_true, if_false]
        split
        next hnext =>
          exact onNextFrame_tracked h hhave hnext frame
        next hgap =>
          split
          · exact onKeyframeJump_tracked h hhave hstale frame
          · have hone : videoSeqDistance hdr.frameSeq b.lastDelivered ≠ 1 :=
              fun heq => hgap (videoSeqDistance_eq_one_iff.mp heq)
            exact onGapDelta_tracked h (by omega) frame

theorem poll_tracked (h : AbortsTracked b outstanding) :
    AbortsTracked (b.poll nowUs).1
      (outstanding.filter fun seq => videoSeqNewer seq (b.poll nowUs).1.lastDelivered) := by
  have hrecovered : ∀ r : VideoFrameReorderBuffer φ × List (ReorderEvent φ), RecoveryOnly b r →
      (b.awaitingKeyframe = true → r.1.awaitingKeyframe = true) →
      AbortsTracked r.1 (outstanding.filter fun seq => videoSeqNewer seq r.1.lastDelivered) := by
    intro r hr hawaits
    have hkeyed := h.keyed.recovery hr
    obtain ⟨_, _, hstate⟩ := hr.state
    apply h.still hkeyed
    · rw [hstate]
    · intro _
      rw [hstate]
    · rw [hstate]
    · exact hawaits
  rw [poll]
  cases hhave : b.haveLast with
  | false =>
      obtain ⟨hkey, hahead⟩ := h.keyed.evicts
        (dropHeld_evicts b fun e => decide (nowUs - e.2.arrivedUs < b.holdUs))
      exact h.still ⟨hkey, hahead⟩ rfl (fun _ => rfl) rfl id
  | true =>
      simp only [Bool.not_true, Bool.false_eq_true, if_false]
      split
      · split
        · exact hrecovered _ (reportLoss_recoveryOnly b) (reportLoss_awaiting b).trans
        · exact hrecovered _ (.refl b) id
      · split
        · exact hrecovered _ (requireKeyframe_recoveryOnly b nowUs) fun _ =>
            requireKeyframe_awaits b nowUs
        · exact hrecovered _ (.refl b) id

omit [FrameBytes φ] in
/-- A frame joins the outstanding ones: it is next and a keyframe is awaited, or it is
    remembered. -/
theorem AbortsTracked.reported (h : AbortsTracked b outstanding) (hhave : b.haveLast = true)
    (hkeyed : Keyed b') (hhave' : b'.haveLast = true) (hlast : b'.lastDelivered = b.lastDelivered)
    {seq : BitVec 32} (hnewer : videoSeqNewer seq b.lastDelivered = true)
    (hjoins : (b'.aborted = b.aborted ∧ seq = b.lastDelivered + 1 ∧ b'.awaitingKeyframe = true) ∨
      (b'.aborted = b.aborted ++ [seq] ∧ seq ∉ b.aborted ∧ seq ≠ b.lastDelivered + 1 ∧
        (b.awaitingKeyframe = true → b'.awaitingKeyframe = true))) :
    AbortsTracked b' (outstanding ++ [seq]) := by
  have hnewer' : ∀ s ∈ outstanding ++ [seq], videoSeqNewer s b.lastDelivered = true := by
    intro s hs
    rcases List.mem_append.mp hs with hbefore | hnew
    · exact h.newer s hbefore
    · rw [List.mem_singleton.mp hnew]
      exact hnewer
  have hno : b'.haveLast = false → outstanding ++ [seq] = [] := by
    intro hno
    rw [hhave'] at hno
    cases hno
  rcases hjoins with ⟨haborted, rfl, hawaits⟩ | ⟨haborted, hfresh, hnotNext, hawaits⟩
  · refine ⟨hkeyed, hno, ?_, fun s hs => ?_, fun _ => hawaits, fun _ => ?_, fun _ s hs => ?_⟩
    · rw [hlast]
      exact hnewer'
    · rw [haborted, hlast]
      rcases List.mem_append.mp hs with hbefore | hnew
      · exact h.known s hbefore
      · exact .inr (List.mem_singleton.mp hnew)
    · rw [haborted]
      exact h.nodup hhave
    · rw [haborted] at hs
      exact List.mem_append_left _ (h.aborted hhave s hs)
  · refine ⟨hkeyed, hno, ?_, fun s hs => ?_, fun hs => ?_, fun _ => ?_, fun _ s hs => ?_⟩
    · rw [hlast]
      exact hnewer'
    · rw [haborted, hlast]
      rcases List.mem_append.mp hs with hbefore | hnew
      · exact (h.known s hbefore).imp_left (List.mem_append_left _)
      · exact .inl (List.mem_append_right _ hnew)
    · rw [hlast] at hs
      rcases List.mem_append.mp hs with hbefore | hnew
      · exact hawaits (h.next hbefore)
      · exact absurd (List.mem_singleton.mp hnew).symm hnotNext
    · rw [haborted]
      apply (h.nodup hhave).append (List.nodup_singleton _)
      rw [List.disjoint_singleton]
      exact hfresh
    · rw [haborted] at hs
      rcases List.mem_append.mp hs with hbefore | hnew
      · exact List.mem_append_left _ (h.aborted hhave s hbefore)
      · exact List.mem_append_right _ hnew

omit [FrameBytes φ] in
theorem Keyed.find?_holds (h : Keyed b) {seq : BitVec 32} :
    (∃ victim, b.held.find? (b.keyFor seq) = some victim) ↔ b.holds seq = true := by
  rw [holds, List.any_eq_true]
  constructor
  · rintro ⟨victim, hfind⟩
    have hin := OrderedMap.find?_eq_some_iff.mp hfind
    have hkey := h.key _ hin
    exact ⟨_, hin, decide_eq_true (videoSeqDistance_inj.mp hkey).symm⟩
  · rintro ⟨e, hin, hseq⟩
    have hkey := h.key e hin
    rw [of_decide_eq_true hseq] at hkey
    refine ⟨e.2, OrderedMap.find?_eq_some_iff.mpr ?_⟩
    rw [keyFor, ← hkey]
    exact hin

/-- A frame ahead of the next one is reported. With room for it, it is remembered. -/
theorem noteAborted_tracked (h : AbortsTracked b outstanding) (hhave : b.haveLast = true)
    {seq : BitVec 32} (hnewer : videoSeqNewer seq b.lastDelivered = true)
    (hnotNext : seq ≠ b.lastDelivered + 1)
    (hroom : (b.withAborted outstanding seq).length ≤ MAX_ABORTED_TRACKED) :
    AbortsTracked (b.noteAborted seq) (b.withAborted outstanding seq) := by
  rw [withAborted, hhave, hnewer, Bool.true_and, Bool.true_and] at hroom ⊢
  have hkept : outstanding.filter (fun s => videoSeqNewer s b.lastDelivered) = outstanding :=
    List.filter_eq_self.mpr h.newer
  cases hfind : b.held.find? (b.keyFor seq) with
  | some victim =>
      have hholds : b.holds seq = true := h.keyed.find?_holds.mp ⟨victim, hfind⟩
      have hnote : b.noteAborted seq = { b with
          heldBytes := b.heldBytes - victim.size
          held := b.held.erase (b.keyFor seq)
          gapSinceUs := earliestArrival (b.held.erase (b.keyFor seq)) } := by
        rw [noteAborted, hfind]
      have hkeyed : Keyed (b.noteAborted seq) := by
        rw [hnote]
        exact ⟨fun e he => h.keyed.key e (OrderedMap.mem_erase.mp he).1,
          fun _ e he => h.keyed.ahead hhave e (OrderedMap.mem_erase.mp he).1⟩
      have hstill : AbortsTracked (b.noteAborted seq) (outstanding.filter fun s =>
          videoSeqNewer s (b.noteAborted seq).lastDelivered) := by
        apply h.still hkeyed
        · rw [hnote]
        · rw [hnote]
          exact fun _ => rfl
        · rw [hnote]
        · rw [hnote]
          exact id
      have hlast : (b.noteAborted seq).lastDelivered = b.lastDelivered := by rw [hnote]
      rw [hlast, hkept] at hstill
      rw [hholds]
      exact hstill
  | none =>
      have hholds : b.holds seq = false := by
        rw [Bool.eq_false_iff]
        intro hyes
        obtain ⟨victim, hsome⟩ := h.keyed.find?_holds.mpr hyes
        rw [hfind] at hsome
        cases hsome
      rw [hholds, Bool.not_false, Bool.true_and] at hroom ⊢
      by_cases hin : seq ∈ b.aborted
      · have hout := h.aborted hhave seq hin
        have hnote : b.noteAborted seq = b := by
          rw [noteAborted, hfind]
          dsimp only
          rw [if_pos (List.contains_iff_mem.mpr hin)]
        rw [hnote, if_neg (by simp [hout])]
        exact h
      · have hout : seq ∉ outstanding := by
          intro hout
          rcases h.known seq hout with haborted | hnext
          · exact hin haborted
          · exact hnotNext hnext
        rw [if_pos (by simp [hout]), List.length_append, List.length_singleton] at hroom
        -- the list of the buffer is no longer than that of the outstanding frames
        have hlength := (List.subperm_of_subset (h.nodup hhave) (h.aborted hhave)).length_le
        have hnote : b.noteAborted seq = { b with aborted := b.aborted ++ [seq] } := by
          rw [noteAborted, hfind]
          dsimp only
          rw [if_neg (by simpa using hin), if_neg (by omega)]
        rw [if_pos (by simp [hout])]
        have hkeyed : Keyed (b.noteAborted seq) := by
          rw [hnote]
          exact ⟨h.keyed.key, h.keyed.ahead⟩
        apply h.reported hhave hkeyed
        · rw [hnote]
          exact hhave
        · rw [hnote]
        · exact hnewer
        · rw [hnote]
          exact .inr ⟨rfl, hin, hnotNext, id⟩

omit [FrameBytes φ] in
/-- A call that touches the recovery flags only. -/
theorem AbortsTracked.recovered (h : AbortsTracked b outstanding)
    {r : VideoFrameReorderBuffer φ × List (ReorderEvent φ)} (hr : RecoveryOnly b r)
    (hawaits : b.awaitingKeyframe = true → r.1.awaitingKeyframe = true) :
    AbortsTracked r.1 outstanding := by
  have hkeyed := h.keyed.recovery hr
  obtain ⟨_, _, hstate⟩ := hr.state
  have hlast : r.1.lastDelivered = b.lastDelivered := by rw [hstate]
  have hstill := @AbortsTracked.still φ b r.1 outstanding h hkeyed (by rw [hstate])
    (fun _ => hlast) (by rw [hstate]) hawaits
  rw [hlast, List.filter_eq_self.mpr h.newer] at hstill
  exact hstill

omit [FrameBytes φ] in
/-- The next frame is reported: a keyframe is awaited. -/
theorem AbortsTracked.awaited (h : AbortsTracked b outstanding) (hhave : b.haveLast = true)
    {r : VideoFrameReorderBuffer φ × List (ReorderEvent φ)} (hr : RecoveryOnly b r)
    (hawaits : r.1.awaitingKeyframe = true) :
    AbortsTracked r.1 (b.withAborted outstanding (b.lastDelivered + 1)) := by
  rw [withAborted]
  split
  · obtain ⟨_, _, hstate⟩ := hr.state
    apply h.reported hhave (h.keyed.recovery hr)
    · rw [hstate]
      exact hhave
    · rw [hstate]
    · have hone := videoSeqDistance_eq_one_iff.mpr (rfl : b.lastDelivered + 1 = b.lastDelivered + 1)
      exact videoSeqNewer_iff.mpr (by omega)
    · refine .inl ⟨?_, rfl, hawaits⟩
      rw [hstate]
  · exact h.recovered hr fun _ => hawaits

theorem onFrameAborted_tracked (h : AbortsTracked b outstanding) (seq : BitVec 32)
    (hroom : (b.withAborted outstanding seq).length ≤ MAX_ABORTED_TRACKED) :
    AbortsTracked (b.onFrameAborted seq nowUs).1 (b.withAborted outstanding seq) := by
  obtain ⟨died, hdied⟩ : ∃ died, died = (b.inflightKey && decide (seq = b.inflightKeySeq)) :=
    ⟨_, rfl⟩
  obtain ⟨b₀, hb₀⟩ : ∃ b₀, b₀ = if died then { b with inflightKey := false } else b := ⟨_, rfl⟩
  have hstart : AbortsTracked b₀ outstanding ∧
      b₀.withAborted outstanding seq = b.withAborted outstanding seq := by
    rw [hb₀]
    split
    · exact ⟨⟨⟨h.keyed.key, h.keyed.ahead⟩, h.unstarted, h.newer, h.known, h.next, h.nodup,
        h.aborted⟩, rfl⟩
    · exact ⟨h, rfl⟩
  obtain ⟨h₀, hsame⟩ := hstart
  rw [← hsame] at hroom ⊢
  rw [onFrameAborted]
  dsimp only
  rw [← hdied, ← hb₀]
  cases hhave : b₀.haveLast with
  | false =>
      rw [withAborted, hhave]
      exact h₀
  | true =>
      simp only [Bool.not_true, Bool.false_eq_true, if_false]
      split
      next hnext =>
        have hrequire := requireKeyframe_recoveryOnly b₀ nowUs
        have hawaits := requireKeyframe_awaits b₀ nowUs
        subst hnext
        split
        · have hboth : RecoveryOnly b₀ ((b₀.requireKeyframe nowUs).1.reportLoss.1,
              (b₀.requireKeyframe nowUs).2 ++ (b₀.requireKeyframe nowUs).1.reportLoss.2) :=
            hrequire.trans (reportLoss_recoveryOnly _)
          exact h₀.awaited hhave hboth ((reportLoss_awaiting _).trans hawaits)
        · exact h₀.awaited hhave hrequire hawaits
      next hnotNext =>
        split
        next hpassed =>
          rw [Bool.not_eq_true'] at hpassed
          rw [withAborted, hpassed, Bool.and_false]
          exact h₀
        next hnewer =>
          rw [Bool.not_eq_true', Bool.not_eq_false] at hnewer
          have hnote : ∀ r : VideoFrameReorderBuffer φ × List (ReorderEvent φ), RecoveryOnly b₀ r →
              (b₀.awaitingKeyframe = true → r.1.awaitingKeyframe = true) →
              AbortsTracked (r.1.noteAborted seq) (b₀.withAborted outstanding seq) := by
            intro r hr hawaits
            have hrecovered := h₀.recovered hr hawaits
            obtain ⟨_, _, hstate⟩ := hr.state
            have hwith : b₀.withAborted outstanding seq = r.1.withAborted outstanding seq := by
              rw [hstate]
              rfl
            rw [hwith] at hroom ⊢
            apply noteAborted_tracked hrecovered
            · rw [hstate]
              exact hhave
            · rw [hstate]
              exact hnewer
            · rw [hstate]
              exact hnotNext
            · exact hroom
          split
          · exact hnote _ (reportLoss_recoveryOnly b₀) (reportLoss_awaiting b₀).trans
          · exact hnote _ (.refl b₀) id

/-! ### Runs -/

omit [FrameBytes φ] in
/-- A buffer that waits for its first frame has nothing outstanding. -/
theorem tracked_empty (cfg : VideoFrameReorderConfig) (rttUs : Nat) :
    AbortsTracked ({ cfg := cfg, rttUs := rttUs } : VideoFrameReorderBuffer φ) [] := by
  refine ⟨⟨fun e he => ?_, fun hhave => ?_⟩, fun _ => rfl, fun seq hin => ?_, fun seq hin => ?_,
    fun hin => ?_, fun hhave => ?_, fun hhave => ?_⟩
  · cases he
  · cases hhave
  · cases hin
  · cases hin
  · cases hin
  · cases hhave
  · cases hhave

theorem step_tracked (s : VideoFrameReorderBuffer φ × List (BitVec 32)) (op : ReorderOp φ)
    (h : AbortsTracked s.1 s.2) (hroom : (outstandingStep s op).2.length ≤ MAX_ABORTED_TRACKED) :
    AbortsTracked (outstandingStep s op).1 (outstandingStep s op).2 := by
  obtain ⟨b, outstanding⟩ := s
  cases op with
  | frameStarted hdr nowUs =>
      have hflags : ∀ b' : VideoFrameReorderBuffer φ, b' = { b with
          inflightKey := b'.inflightKey
          inflightKeySeq := b'.inflightKeySeq
          inflightKeySinceUs := b'.inflightKeySinceUs } →
          AbortsTracked b' (outstanding.filter fun seq => videoSeqNewer seq b'.lastDelivered) := by
        intro b' hb'
        have hkeyed : Keyed b' := by
          rw [hb']
          exact ⟨h.keyed.key, h.keyed.ahead⟩
        apply h.still hkeyed
        · rw [hb']
        · rw [hb']
          exact fun _ => rfl
        · rw [hb']
        · rw [hb']
          exact id
      apply hflags
      rw [outstandingStep, step, onFrameStarted]
      split
      · rfl
      · split
        · rfl
        · split
          · rfl
          · rfl
  | frame hdr frame nowUs => exact onFrame_tracked h hdr frame
  | frameAborted seq nowUs =>
      have hlast : ((outstandingStep (b, outstanding) (.frameAborted seq nowUs)).1).lastDelivered =
          b.lastDelivered := (onFrameAborted_silent b seq nowUs).lastDelivered
      have hkept : b.nextOutstanding outstanding (.frameAborted seq nowUs) =
          b.withAborted outstanding seq := by
        have hfilter := List.filter_eq_self.mpr h.newer
        rw [← hlast] at hfilter
        exact congrArg (fun kept => b.withAborted kept seq) hfilter
      rw [outstandingStep, hkept] at hroom ⊢
      exact onFrameAborted_tracked h seq hroom
  | poll nowUs => exact poll_tracked h
  | setRtt rttUs =>
      have hkeyed : Keyed (b.setRtt rttUs) := ⟨h.keyed.key, h.keyed.ahead⟩
      exact h.still hkeyed rfl (fun _ => rfl) rfl id
  | reset => exact tracked_empty b.cfg b.rttUs

/-- Every call leaves no more outstanding frames than the buffer remembers. -/
def FewAborted (s : VideoFrameReorderBuffer φ × List (BitVec 32)) (op : ReorderOp φ) : Prop :=
  (outstandingStep s op).2.length ≤ MAX_ABORTED_TRACKED

instance (s : VideoFrameReorderBuffer φ × List (BitVec 32)) (op : ReorderOp φ) :
    Decidable (FewAborted s op) :=
  inferInstanceAs (Decidable (_ ≤ _))

/-- A frame reported aborted since the last reset, and neither delivered nor passed since, is
    never waited for: when it is next, a keyframe is awaited. -/
theorem aborted_never_awaited (cfg : VideoFrameReorderConfig) (ops : List (ReorderOp φ))
    (hfew : Machine.AllSteps outstandingStep FewAborted
      ((new cfg : VideoFrameReorderBuffer φ), []) ops) :
    let s := Machine.run outstandingStep ((new cfg : VideoFrameReorderBuffer φ), []) ops
    ∀ seq ∈ s.2, s.1.lastDelivered + 1 = seq → s.1.awaitingKeyframe = true := by
  have hstart : AbortsTracked (new cfg : VideoFrameReorderBuffer φ) [] :=
    tracked_empty cfg.normalized 0
  have hrun := @Machine.run_invariant _ _ outstandingStep FewAborted
    (fun s => AbortsTracked s.1 s.2) step_tracked (new cfg, []) ops hstart hfew
  rintro s seq hout rfl
  exact hrun.next hout

/-- Frame 0 dies before the frame in front of it is there; reached, it is not waited for. -/
theorem aborted_never_awaited_drained :
    let key : VideoFrameHeader := { frameSeq := 0xFFFFFFFE, flags := 1 }
    let delta : VideoFrameHeader := { frameSeq := 0xFFFFFFFF }
    let ops : List (ReorderOp Bytes) := [.frame key [1] 10, .frameAborted 0 20, .frame delta [2] 30]
    (Machine.run outstandingStep ((new {} : VideoFrameReorderBuffer Bytes), []) ops).1.awaitingKeyframe =
      true := by
  intro key delta ops
  exact aborted_never_awaited {} ops (by decide) 0 (by decide) (by decide)

/-- A report from before a reset is forgotten, so the frame that it was about is waited for. -/
theorem awaited_across_reset :
    ¬ ∀ (cfg : VideoFrameReorderConfig) (pre post : List (ReorderOp Bytes)) (seq : BitVec 32)
        (nowUs : Int),
      let b := ((new cfg : VideoFrameReorderBuffer Bytes).run pre).1
      let after := fun ops => (b.run (.frameAborted seq nowUs :: ops)).1
      (∀ s t, .frameAborted s t ∉ pre ++ post) →
      b.haveLast = true → videoSeqNewer seq b.lastDelivered = true → b.holds seq = false →
      (∀ mid, mid <+: post → videoSeqNewer seq (after mid).lastDelivered = true) →
      (after post).lastDelivered + 1 = seq → (after post).awaitingKeyframe = true := by
  intro hall
  have hahead : ∀ mid : List (ReorderOp Bytes),
      mid <+: [.reset, .frame { frameSeq := 19, flags := 1 } [2] 30] →
      videoSeqNewer 20 ((((new {} : VideoFrameReorderBuffer Bytes).run
        [.frame { frameSeq := 10, flags := 1 } [1] 10]).1.run
          (.frameAborted 20 20 :: mid)).1.lastDelivered) = true := by
    intro mid hmid
    simp only [List.prefix_cons_iff, List.prefix_nil] at hmid
    rcases hmid with rfl | ⟨_, rfl, rfl | ⟨_, rfl, rfl⟩⟩
    · decide
    · decide
    · decide
  have hawaits := hall {} [.frame { frameSeq := 10, flags := 1 } [1] 10]
    [.reset, .frame { frameSeq := 19, flags := 1 } [2] 30] 20 20 (by simp) (by decide) (by decide)
    (by decide) hahead (by decide)
  revert hawaits
  decide

end VideoFrameReorderBuffer

end Parties.Video

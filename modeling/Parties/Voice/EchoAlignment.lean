import Parties.Voice.EchoCanceller

/-!
# The pairs of the echo canceller

What the playback callback queues mirrors what was played, and every pair of the
capture side takes the next complete frame of the epoch from the ring, no sooner
than the reference delay after anything that broke the alignment.
-/

namespace Parties.Voice

namespace EchoNote

/-- The alignment starts anew. -/
def restarts : EchoNote → Bool
  | .reset | .aligned | .starved | .overran => true
  | .rejected | .unseen | .held | .paired .. => false

/-- A capture frame passes unprocessed while its reference is queued. -/
def isHeld : EchoNote → Bool
  | .held => true
  | _ => false

def sequence? : EchoNote → Option Nat
  | .paired sequence .. => some sequence
  | _ => none

end EchoNote

namespace EchoCanceller

variable {F : Type} (floatToS16 : F → BitVec 16)

/-- What was played behind `ops`. -/
def playback (c : EchoCanceller) (ops : List (EchoOp F)) : Playback F :=
  Machine.run Playback.step { enabled := c.enabled } ops

/-- The microphone frame of `op` is paired with frame `sequence` of the playback, which is
complete, of the current epoch and not yet overwritten. -/
structure Pairs (p : Playback F) (op : EchoOp F) (sequence : Nat) (microphone : List (BitVec 16))
    (reference : List (BitVec 16 × BitVec 16)) : Prop where
  captured : ∃ mono, op = .processCapture (some mono) ∧ mono.length = FRAME_SIZE ∧
    microphone = mono.map floatToS16
  played : ∃ k, sequence = p.earlier + k ∧ (k + 1) * FRAME_SIZE ≤ p.samples.length ∧
    reference = (p.frame k).map fun sample => (floatToS16 sample.1, floatToS16 sample.2)
  queued : p.written < sequence + QUEUE_CAPACITY_FRAMES

/-- The law of the pairs of a run. -/
structure Aligned (c : EchoCanceller) (ops : List (EchoOp F)) : Prop where
  pairs : ∀ before op after, ops = before ++ op :: after → ∀ sequence microphone reference,
    .paired sequence microphone reference ∈
        (step floatToS16 (Machine.run (next floatToS16) c before) op).2 →
      Pairs floatToS16 (c.playback before) op sequence microphone reference
  ordered : ((trace floatToS16 c ops).filterMap EchoNote.sequence?).Pairwise (· < ·)
  delayed : ∀ front note between sequence microphone reference,
    front ++ note :: between ++ [.paired sequence microphone reference] <+:
        trace floatToS16 c ops →
      note.restarts = true → REFERENCE_DELAY_FRAMES ≤ between.countP EchoNote.isHeld

/-! ### The playback side mirrors what was played -/

def packSample (sample : F × F) : BitVec 32 :=
  packStereo (floatToS16 sample.1) (floatToS16 sample.2)

/-- The capture side is aligned in the current epoch. -/
def Tracking (c : EchoCanceller) : Prop :=
  c.captureEpoch = c.resetEpoch ∧ c.captureSynchronized = true

instance (c : EchoCanceller) : Decidable c.Tracking := inferInstanceAs (Decidable (_ ∧ _))

/-- The canceller agrees with what was played: in full once the playback callback entered the
epoch, and until then nothing of the epoch was played. -/
structure Mirrors (c : EchoCanceller) (p : Playback F) : Prop where
  enabled : c.enabled = p.enabled
  written : c.writtenFrames = p.written
  seen : c.playbackSeenEpoch = c.playbackEpoch
  entered : c.playbackEpoch = c.resetEpoch →
    c.epochFirstFrame = p.earlier ∧ c.playbackFrame = p.rest.map (packSample floatToS16)
  unplayed : c.playbackEpoch ≠ c.resetEpoch → p.samples = []
  queue : RingSlots.Holds c.referenceQueue p.earlier p.frames
    fun k => (p.frame k).map (packSample floatToS16)
  playbackEpoch_le : c.playbackEpoch ≤ c.resetEpoch
  captureEpoch_le : c.captureEpoch ≤ c.resetEpoch
  unsynchronized : c.captureSynchronized = false → c.referenceStarved = true
  tracking : c.Tracking → c.playbackEpoch = c.resetEpoch ∧ p.earlier ≤ c.readFrame ∧
    c.readFrame ≤ p.written

variable {floatToS16} {c : EchoCanceller} {p : Playback F}

theorem mirrors_init (c : EchoCanceller) :
    Mirrors floatToS16 c.init ({ enabled := c.enabled } : Playback F) where
  enabled := rfl
  written := by
    rw [Playback.written_of_nil rfl]
    rfl
  seen := rfl
  entered _ := ⟨rfl, by rw [Playback.rest_of_nil rfl]; rfl⟩
  unplayed _ := rfl
  queue := by
    rw [Playback.frames_of_nil rfl]
    exact RingSlots.holds_zero _ _ _
  playbackEpoch_le := Nat.zero_le _
  captureEpoch_le := Nat.zero_le _
  unsynchronized _ := rfl
  tracking h := by cases h.2

theorem Mirrors.reset (h : Mirrors floatToS16 c p) (enabled : Bool) :
    Mirrors floatToS16 { c with enabled }.requestReset { p.reset with enabled } where
  enabled := rfl
  written := by
    rw [Playback.written_of_nil rfl]
    exact h.written
  seen := h.seen
  entered heq := absurd heq (Nat.ne_of_lt (Nat.lt_succ_of_le h.playbackEpoch_le))
  unplayed _ := rfl
  queue := by
    rw [Playback.frames_of_nil rfl]
    exact RingSlots.holds_zero _ _ _
  playbackEpoch_le := Nat.le_succ_of_le h.playbackEpoch_le
  captureEpoch_le := Nat.le_succ_of_le h.captureEpoch_le
  unsynchronized := h.unsynchronized
  tracking htracking :=
    absurd htracking.1 (Nat.ne_of_lt (Nat.lt_succ_of_le h.captureEpoch_le))

theorem Mirrors.enterEpoch (h : Mirrors floatToS16 c p) : Mirrors floatToS16 c.enterEpoch p := by
  unfold EchoCanceller.enterEpoch
  split
  next hne =>
    have hsamples := h.unplayed hne
    exact { h with
      seen := rfl
      entered := fun _ => ⟨h.written.trans (Playback.written_of_nil hsamples), by
        rw [Playback.rest_of_nil hsamples]
        rfl⟩
      unplayed := fun hnot => absurd rfl hnot
      playbackEpoch_le := le_rfl
      tracking := fun htracking => ⟨rfl, (h.tracking htracking).2⟩ }
  next => exact h

theorem enterEpoch_entered (c : EchoCanceller) :
    c.enterEpoch.playbackEpoch = c.enterEpoch.resetEpoch := by
  unfold EchoCanceller.enterEpoch
  split
  next => rfl
  next heq => exact not_not.mp heq

theorem pushSample_epochs (c : EchoCanceller) (sample : F × F) :
    (pushSample floatToS16 c sample).playbackEpoch = c.playbackEpoch ∧
      (pushSample floatToS16 c sample).resetEpoch = c.resetEpoch := by
  unfold pushSample
  dsimp only
  split <;> exact ⟨rfl, rfl⟩

theorem Mirrors.pushSample (h : Mirrors floatToS16 c p)
    (hentered : c.playbackEpoch = c.resetEpoch) (sample : F × F) :
    Mirrors floatToS16 (pushSample floatToS16 c sample) (p.push [sample]) := by
  obtain ⟨hfirst, hframe⟩ := h.entered hentered
  have hlength : (c.playbackFrame ++ [packSample floatToS16 sample]).length =
      p.rest.length + 1 := by
    rw [hframe, List.length_append, List.length_map, List.length_singleton]
  have happend : c.playbackFrame ++ [packSample floatToS16 sample] =
      (p.rest ++ [sample]).map (packSample floatToS16) := by
    rw [hframe, List.map_append, List.map_singleton]
  unfold EchoCanceller.pushSample
  dsimp only
  split
  next hfull =>
    obtain ⟨hframes, hrest, hnew⟩ := Playback.push_complete sample (hlength.symm.trans hfull)
    have hwritten : (p.push [sample]).written = p.written + 1 := by
      rw [Playback.written, hframes]
      rfl
    refine { h with
      written := hwritten ▸ congrArg (· + 1) h.written
      entered := fun _ => ⟨hfirst, by rw [hrest]; rfl⟩
      unplayed := fun hnot => absurd hentered hnot
      queue := ?_
      tracking := fun htracking => ?_ }
    · have hqueue : RingSlots.Holds c.referenceQueue p.earlier p.frames fun k =>
          ((p.push [sample]).frame k).map (packSample floatToS16) :=
        h.queue.congr fun k hk => by rw [Playback.frame_push _ hk]
      have hslot : c.writtenFrames = p.earlier + p.frames := h.written
      have hstored := hqueue.store
      rw [hnew, ← happend, ← hslot] at hstored
      rw [hframes]
      exact hstored
    · obtain ⟨hepoch, hfrom, hto⟩ := h.tracking htracking
      exact ⟨hepoch, hfrom, hwritten ▸ Nat.le_succ_of_le hto⟩
  next hopen =>
    obtain ⟨hframes, hrest⟩ :=
      Playback.push_open sample fun heq => hopen (hlength.trans heq)
    have hwritten : (p.push [sample]).written = p.written := by
      rw [Playback.written, hframes]
      rfl
    exact { h with
      written := h.written.trans hwritten.symm
      entered := fun _ => ⟨hfirst, by rw [hrest]; exact happend⟩
      unplayed := fun hnot => absurd hentered hnot
      queue := by
        rw [hframes]
        exact h.queue.congr fun k hk => by rw [Playback.frame_push _ hk]
      tracking := fun htracking => hwritten ▸ h.tracking htracking }

theorem Mirrors.pushSamples (samples : List (F × F)) (h : Mirrors floatToS16 c p)
    (hentered : c.playbackEpoch = c.resetEpoch) :
    Mirrors floatToS16 (samples.foldl (EchoCanceller.pushSample floatToS16) c)
      (p.push samples) := by
  induction samples generalizing c p with
  | nil =>
      rw [Playback.push, List.append_nil]
      exact h
  | cons sample samples ih =>
      rw [Playback.push_cons]
      refine ih (h.pushSample hentered sample) ?_
      rw [(pushSample_epochs c sample).1, (pushSample_epochs c sample).2, hentered]

theorem Mirrors.pushPlayback (h : Mirrors floatToS16 c p) (stereo : Option (List (F × F))) :
    Mirrors floatToS16 (pushPlayback floatToS16 c stereo) (p.step (.pushPlayback stereo)) := by
  cases stereo with
  | none => exact h
  | some stereo =>
      unfold EchoCanceller.pushPlayback Playback.step
      dsimp only
      rw [← h.enabled]
      split
      next => exact h.enterEpoch.pushSamples stereo (enterEpoch_entered c)
      next => exact h

/-! ### The capture side -/

/-- How `pairCapture` ends. -/
inductive PairStep (floatToS16 : F → BitVec 16) (c : EchoCanceller) (mono : List F) :
    EchoCanceller → EchoNote → Prop where
  | starved (delay : Nat) :
      PairStep floatToS16 c mono
        { c with referenceStarved := true, delayFramesRemaining := delay } .starved
  | held (delay : Nat) (hdelay : c.establishDelay.delayFramesRemaining = delay + 1) :
      PairStep floatToS16 c mono
        { c with referenceStarved := false, delayFramesRemaining := delay } .held
  | overran (hread : c.readFrame < c.writtenFrames) :
      PairStep floatToS16 c mono (c.dropQueue c.writtenFrames) .overran
  | paired (hfresh : c.referenceStarved = false) (hdelay : c.delayFramesRemaining = 0)
      (hread : c.readFrame < c.writtenFrames)
      (hlap : c.writtenFrames < c.readFrame + QUEUE_CAPACITY_FRAMES) :
      PairStep floatToS16 c mono { c with readFrame := c.readFrame + 1 }
        (.paired c.readFrame (mono.map floatToS16)
          ((c.referenceQueue (RingSlots.slot QUEUE_CAPACITY_FRAMES c.readFrame)).map unpackStereo))

theorem establishDelay_starved (h : c.referenceStarved = true) : c.establishDelay =
    { c with referenceStarved := false, delayFramesRemaining := REFERENCE_DELAY_FRAMES } :=
  if_pos h

theorem establishDelay_fresh (h : c.referenceStarved = false) : c.establishDelay = c :=
  if_neg (by rw [h]; exact Bool.false_ne_true)

theorem pairCapture_step (floatToS16 : F → BitVec 16) (c : EchoCanceller) (mono : List F) :
    PairStep floatToS16 c mono (pairCapture floatToS16 c mono).1
      (pairCapture floatToS16 c mono).2 := by
  unfold pairCapture
  dsimp only
  split
  next hread =>
    split
    next => exact .starved 0
    next hstarved =>
      have hstarved : c.referenceStarved = true := by simpa using hstarved
      have hsame : { c with
          referenceStarved := true
          delayFramesRemaining := c.delayFramesRemaining } = c := by
        rw [← hstarved]
      exact hsame ▸ PairStep.starved c.delayFramesRemaining
  next hread =>
    have hread : c.readFrame < c.writtenFrames := Nat.lt_of_not_le hread
    split
    next hdelay =>
      have hheld : { c.establishDelay with
          delayFramesRemaining := c.establishDelay.delayFramesRemaining - 1 } =
          { c with
            referenceStarved := false
            delayFramesRemaining := c.establishDelay.delayFramesRemaining - 1 } := by
        cases hstarved : c.referenceStarved with
        | true => rw [establishDelay_starved hstarved]
        | false => rw [establishDelay_fresh hstarved, ← hstarved]
      rw [hheld]
      exact .held _ (Nat.sub_add_cancel hdelay).symm
    next hdelay =>
      have hfresh : c.referenceStarved = false := by
        by_contra hstarved
        rw [establishDelay_starved (by simpa using hstarved)] at hdelay
        exact hdelay Nat.two_pos
      rw [establishDelay_fresh hfresh] at hdelay ⊢
      split
      next => exact .overran hread
      next hlap =>
        exact .paired hfresh (by omega) hread (by omega)

theorem processCapture_cases (floatToS16 : F → BitVec 16) (c : EchoCanceller)
    (mono : Option (List F)) :
    processCapture floatToS16 c mono = (c, [.rejected]) ∨
    processCapture floatToS16 c mono = (c.rebase, [.unseen]) ∨
    ∃ frame, mono = some frame ∧ frame.length = FRAME_SIZE ∧
      c.rebase.playbackSeenEpoch = c.rebase.resetEpoch ∧
      processCapture floatToS16 c mono =
        ((pairCapture floatToS16 c.rebase.synchronize.1 frame).1,
          c.rebase.synchronize.2 ++ [(pairCapture floatToS16 c.rebase.synchronize.1 frame).2]) := by
  cases mono with
  | none => exact .inl rfl
  | some frame =>
      unfold processCapture
      dsimp only
      split
      next => exact .inl rfl
      next htaken =>
        split
        next => exact .inr (.inl rfl)
        next hseen =>
          have hlength : frame.length = FRAME_SIZE := by
            by_contra hne
            exact htaken (by simp [hne])
          exact .inr (.inr ⟨frame, rfl, hlength, not_not.mp hseen, rfl⟩)

/-! ### What a run keeps -/

/-- The capture frames that still pass before the next pair. -/
def pending (c : EchoCanceller) : Nat :=
  if c.captureEpoch ≠ c.resetEpoch then REFERENCE_DELAY_FRAMES
  else c.establishDelay.delayFramesRemaining

/-- The playback frames below are not paired any more. -/
def floor (c : EchoCanceller) (p : Playback F) : Nat :=
  if c.Tracking then c.readFrame else p.earlier

/-- The invariant of a run that left `t` behind it. -/
structure Kept (floatToS16 : F → BitVec 16) (c : EchoCanceller) (p : Playback F)
    (t : List EchoNote) : Prop where
  mirrors : Mirrors floatToS16 c p
  ordered : (t.filterMap EchoNote.sequence?).Pairwise (· < ·)
  below : ∀ sequence ∈ t.filterMap EchoNote.sequence?, sequence < c.floor p
  waits : ∀ front note between, t = front ++ note :: between → note.restarts = true →
    REFERENCE_DELAY_FRAMES ≤ between.countP EchoNote.isHeld + c.pending
  waited : ∀ front note between sequence microphone reference,
    front ++ note :: between ++ [.paired sequence microphone reference] <+: t →
      note.restarts = true → REFERENCE_DELAY_FRAMES ≤ between.countP EchoNote.isHeld

variable {c' : EchoCanceller} {p' : Playback F} {t : List EchoNote}

theorem kept_init (c : EchoCanceller) :
    Kept floatToS16 c.init ({ enabled := c.enabled } : Playback F) [] where
  mirrors := mirrors_init c
  ordered := .nil
  below _ h := by cases h
  waits front note between h := by cases front <;> cases h
  waited front note between sequence microphone reference h := by
    have hnil := List.prefix_nil.mp h
    rw [List.append_assoc] at hnil
    cases front <;> cases hnil

/-- A step that notes nothing. -/
theorem Kept.silent (h : Kept floatToS16 c p t) (hmirrors : Mirrors floatToS16 c' p')
    (hfloor : c.floor p ≤ c'.floor p') (hpending : c.pending ≤ c'.pending) :
    Kept floatToS16 c' p' t where
  mirrors := hmirrors
  ordered := h.ordered
  below sequence hin := Nat.lt_of_lt_of_le (h.below sequence hin) hfloor
  waits front note between heq hrestarts :=
    Nat.le_trans (h.waits front note between heq hrestarts) (Nat.add_le_add_left hpending _)
  waited := h.waited

/-- A step with one note: the delay stands anew, or the alignment goes on and only a held frame
counts against the delay. A pair takes the next frame, with no delay before it. -/
theorem Kept.note {note : EchoNote} (h : Kept floatToS16 c p t)
    (hmirrors : Mirrors floatToS16 c' p') (hfloor : c.floor p ≤ c'.floor p')
    (hpending : REFERENCE_DELAY_FRAMES ≤ c'.pending ∨
      note.restarts = false ∧ c.pending ≤ [note].countP EchoNote.isHeld + c'.pending)
    (hpair : ∀ sequence ∈ note.sequence?, sequence = c.floor p ∧ sequence < c'.floor p' ∧
      c.pending = 0) :
    Kept floatToS16 c' p' (t ++ [note]) := by
  have hsequences : (t ++ [note]).filterMap EchoNote.sequence? =
      t.filterMap EchoNote.sequence? ++ note.sequence?.toList := by
    rw [List.filterMap_append, List.filterMap_cons, List.filterMap_nil]
    cases note.sequence? <;> rfl
  have hlast : note.sequence?.toList.Pairwise (· < ·) := by
    cases note.sequence? with
    | none => exact .nil
    | some sequence => exact List.pairwise_singleton ..
  have hwaits : ∀ front note' between, t ++ [note] = front ++ note' :: between →
      note'.restarts = true →
      REFERENCE_DELAY_FRAMES ≤ between.countP EchoNote.isHeld + c'.pending := by
    intro front note' between heq hrestarts
    obtain hanew | ⟨hgoeson, hdelay⟩ := hpending
    · exact Nat.le_trans hanew (Nat.le_add_left ..)
    · obtain rfl | ⟨between, last, rfl⟩ := List.eq_nil_or_concat between
      · obtain ⟨-, rfl⟩ := List.append_singleton_inj.mp heq
        rw [hrestarts] at hgoeson
        cases hgoeson
      · rw [List.concat_eq_append] at heq ⊢
        rw [← List.cons_append, ← List.append_assoc] at heq
        obtain ⟨ht, rfl⟩ := List.append_singleton_inj.mp heq
        have hbefore := h.waits front note' between ht hrestarts
        rw [List.countP_append]
        omega
  refine ⟨hmirrors, ?_, ?_, hwaits, ?_⟩
  · rw [hsequences, List.pairwise_append]
    refine ⟨h.ordered, hlast, fun sequence hin last hmem => ?_⟩
    obtain ⟨rfl, -, -⟩ := hpair last (Option.mem_toList.mp hmem)
    exact h.below sequence hin
  · intro sequence hin
    rw [hsequences] at hin
    obtain hin | hin := List.mem_append.mp hin
    · exact Nat.lt_of_lt_of_le (h.below sequence hin) hfloor
    · exact (hpair sequence (Option.mem_toList.mp hin)).2.1
  · intro front note' between sequence microphone reference hprefix hrestarts
    obtain heq | hprefix := List.prefix_concat_iff.mp hprefix
    · obtain ⟨ht, rfl⟩ := List.append_singleton_inj.mp heq
      obtain ⟨-, -, hnone⟩ := hpair sequence rfl
      have hbefore := h.waits front note' between ht.symm hrestarts
      omega
    · exact h.waited front note' between sequence microphone reference hprefix hrestarts

/-! ### One step -/

theorem floor_tracking (h : c.Tracking) : c.floor p = c.readFrame := if_pos h

theorem floor_untracked (h : ¬ c.Tracking) : c.floor p = p.earlier := if_neg h

theorem pending_stale (h : c.captureEpoch ≠ c.resetEpoch) :
    c.pending = REFERENCE_DELAY_FRAMES := if_pos h

theorem pending_current (h : c.captureEpoch = c.resetEpoch) :
    c.pending = c.establishDelay.delayFramesRemaining := if_neg (not_not.mpr h)

theorem pending_starved (h : c.referenceStarved = true) : c.pending = REFERENCE_DELAY_FRAMES := by
  by_cases hepoch : c.captureEpoch = c.resetEpoch
  · rw [pending_current hepoch, establishDelay_starved h]
  · exact pending_stale hepoch

theorem Mirrors.floor_le (h : Mirrors floatToS16 c p) : c.floor p ≤ p.written := by
  by_cases htracking : c.Tracking
  · rw [floor_tracking htracking]
    exact (h.tracking htracking).2.2
  · rw [floor_untracked htracking]
    exact Nat.le_add_right ..

theorem Kept.reset (h : Kept floatToS16 c p t) (enabled : Bool) :
    Kept floatToS16 { c with enabled }.requestReset { p.reset with enabled } (t ++ [.reset]) := by
  have hstale : { c with enabled }.requestReset.captureEpoch ≠
      { c with enabled }.requestReset.resetEpoch :=
    Nat.ne_of_lt (Nat.lt_succ_of_le h.mirrors.captureEpoch_le)
  refine h.note (h.mirrors.reset enabled) ?_ (.inl (pending_stale hstale).ge) nofun
  rw [floor_untracked fun htracking => hstale htracking.1]
  exact h.mirrors.floor_le

theorem Kept.rebase (h : Kept floatToS16 c p t) : Kept floatToS16 c.rebase p t := by
  unfold EchoCanceller.rebase
  split
  next hstale =>
    have huntracked : ¬ (c.rebaseCaptureTiming c.resetEpoch).Tracking :=
      fun htracking => Bool.noConfusion htracking.2
    refine h.silent { h.mirrors with
      captureEpoch_le := le_rfl
      unsynchronized := fun _ => rfl
      tracking := fun htracking => absurd htracking huntracked } ?_ ?_
    · rw [floor_untracked huntracked, floor_untracked fun htracking => hstale htracking.1]
    · rw [pending_stale hstale, pending_starved rfl]
  next => exact h

theorem rebase_current (c : EchoCanceller) : c.rebase.captureEpoch = c.rebase.resetEpoch := by
  unfold EchoCanceller.rebase
  split
  next => rfl
  next heq => exact not_not.mp heq

theorem Kept.synchronize (h : Kept floatToS16 c p t) (hepoch : c.captureEpoch = c.resetEpoch)
    (hseen : c.playbackSeenEpoch = c.resetEpoch) :
    Kept floatToS16 c.synchronize.1 p (t ++ c.synchronize.2) ∧ c.synchronize.1.Tracking := by
  have hplayback : c.playbackEpoch = c.resetEpoch := h.mirrors.seen.symm.trans hseen
  obtain ⟨hfirst, -⟩ := h.mirrors.entered hplayback
  cases hsynchronized : c.captureSynchronized with
  | false =>
      have hstarved := h.mirrors.unsynchronized hsynchronized
      have huntracked : ¬ c.Tracking := fun htracking =>
        Bool.noConfusion (hsynchronized.symm.trans htracking.2)
      have hsynchronize : c.synchronize = (c.alignReader, [.aligned]) := by
        rw [EchoCanceller.synchronize, hsynchronized]
        rfl
      have htracking : c.alignReader.Tracking := ⟨hepoch, rfl⟩
      have hstanding : c.alignReader.pending = REFERENCE_DELAY_FRAMES := pending_starved hstarved
      rw [hsynchronize]
      refine ⟨h.note { h.mirrors with
        unsynchronized := nofun
        tracking := fun _ => ⟨hplayback, hfirst.ge, hfirst.le.trans (Nat.le_add_right ..)⟩ }
        ?_ (.inl hstanding.ge) nofun, htracking⟩
      rw [floor_tracking htracking, floor_untracked huntracked]
      exact hfirst.ge
  | true =>
      have hsynchronize : c.synchronize = (c, []) := by
        rw [EchoCanceller.synchronize, hsynchronized]
        rfl
      rw [hsynchronize, List.append_nil]
      exact ⟨h, hepoch, hsynchronized⟩

theorem Kept.pairStep {mono : List F} {note : EchoNote} (h : Kept floatToS16 c p t)
    (htracking : c.Tracking) (hstep : PairStep floatToS16 c mono c' note) :
    Kept floatToS16 c' p (t ++ [note]) := by
  obtain ⟨hplayback, hfrom, hto⟩ := h.mirrors.tracking htracking
  have hfloor : c.floor p = c.readFrame := floor_tracking htracking
  have hpending := pending_current htracking.1
  have hsynchronized : c.captureSynchronized ≠ false := by
    rw [htracking.2]
    exact Bool.noConfusion
  cases hstep with
  | starved delay =>
      exact h.note { h.mirrors with unsynchronized := fun _ => rfl } le_rfl
        (.inl (pending_starved rfl).ge) nofun
  | held delay hdelay =>
      have hleft : pending { c with referenceStarved := false, delayFramesRemaining := delay } =
          delay := by
        rw [pending_current (by exact htracking.1), establishDelay_fresh rfl]
      refine h.note { h.mirrors with
        unsynchronized := fun hnot => absurd hnot hsynchronized } le_rfl
        (.inr ⟨rfl, ?_⟩) nofun
      rw [hpending, hdelay, hleft]
      exact (Nat.add_comm ..).le
  | overran hread =>
      have hbehind : floor (c.dropQueue c.writtenFrames) p = c.writtenFrames :=
        floor_tracking htracking
      refine h.note { h.mirrors with
        unsynchronized := fun _ => rfl
        tracking := fun _ => ⟨hplayback, hfrom.trans hread.le, h.mirrors.written.le⟩ } ?_
        (.inl (pending_starved rfl).ge) nofun
      rw [hfloor, hbehind]
      exact hread.le
  | paired hfresh hdelay hread hlap =>
      have hnone : c.pending = 0 := by
        rw [hpending, establishDelay_fresh hfresh, hdelay]
      have hbehind : floor { c with readFrame := c.readFrame + 1 } p = c.readFrame + 1 :=
        floor_tracking htracking
      refine h.note { h.mirrors with
        tracking := fun _ =>
          ⟨hplayback, Nat.le_succ_of_le hfrom, Nat.le_trans hread h.mirrors.written.le⟩ } ?_
        (.inr ⟨rfl, hnone.le.trans (Nat.zero_le _)⟩) fun sequence hsequence => ?_
      · rw [hfloor, hbehind]
        exact Nat.le_succ _
      · obtain rfl := Option.some_inj.mp hsequence
        exact ⟨hfloor.symm, hbehind.symm ▸ Nat.lt_succ_self c.readFrame, hnone⟩

/-- The fields of the capture side, and the epoch. -/
def captureSide (c : EchoCanceller) : Nat × Nat × Nat × Nat × Bool × Bool :=
  (c.resetEpoch, c.captureEpoch, c.readFrame, c.delayFramesRemaining, c.captureSynchronized,
    c.referenceStarved)

theorem pushSample_captureSide (c : EchoCanceller) (sample : F × F) :
    (pushSample floatToS16 c sample).captureSide = c.captureSide := by
  unfold pushSample
  dsimp only
  split <;> rfl

theorem pushSamples_captureSide (samples : List (F × F)) (c : EchoCanceller) :
    (samples.foldl (pushSample floatToS16) c).captureSide = c.captureSide := by
  induction samples generalizing c with
  | nil => rfl
  | cons sample samples ih => exact (ih _).trans (pushSample_captureSide c sample)

theorem enterEpoch_captureSide (c : EchoCanceller) : c.enterEpoch.captureSide = c.captureSide := by
  unfold enterEpoch
  split <;> rfl

theorem pushPlayback_captureSide (c : EchoCanceller) (stereo : Option (List (F × F))) :
    (pushPlayback floatToS16 c stereo).captureSide = c.captureSide := by
  unfold pushPlayback
  split
  next => rfl
  next stereo =>
    split
    next => exact (pushSamples_captureSide stereo _).trans (enterEpoch_captureSide c)
    next => rfl

theorem pending_congr (h : c'.captureSide = c.captureSide) : c'.pending = c.pending := by
  simp only [captureSide, Prod.mk.injEq] at h
  obtain ⟨hreset, hcapture, -, hdelay, -, hstarved⟩ := h
  by_cases hepoch : c.captureEpoch = c.resetEpoch
  · have hepoch' : c'.captureEpoch = c'.resetEpoch := by rw [hcapture, hreset, hepoch]
    rw [pending_current hepoch, pending_current hepoch', establishDelay, establishDelay, hstarved]
    split
    next => rfl
    next => exact hdelay
  · have hepoch' : c'.captureEpoch ≠ c'.resetEpoch := by rwa [hcapture, hreset]
    rw [pending_stale hepoch, pending_stale hepoch']

theorem floor_congr (h : c'.captureSide = c.captureSide) (hearlier : p'.earlier = p.earlier) :
    c'.floor p' = c.floor p := by
  simp only [captureSide, Prod.mk.injEq] at h
  obtain ⟨hreset, hcapture, hread, -, hsynchronized, -⟩ := h
  have htracking : c'.Tracking ↔ c.Tracking := by
    rw [Tracking, Tracking, hreset, hcapture, hsynchronized]
  rw [floor, floor, hread, hearlier]
  exact if_congr htracking rfl rfl

/-! ### Runs -/

theorem Kept.processCapture (h : Kept floatToS16 c p t) (mono : Option (List F)) :
    Kept floatToS16 (EchoCanceller.processCapture floatToS16 c mono).1 p
      (t ++ (EchoCanceller.processCapture floatToS16 c mono).2) := by
  obtain heq | heq | ⟨frame, -, -, hseen, heq⟩ :=
    processCapture_cases floatToS16 c mono
  · rw [heq]
    exact h.note h.mirrors le_rfl (.inr ⟨rfl, Nat.le_add_left ..⟩) nofun
  · rw [heq]
    exact h.rebase.note h.rebase.mirrors le_rfl (.inr ⟨rfl, Nat.le_add_left ..⟩) nofun
  · obtain ⟨haligned, htracking⟩ := h.rebase.synchronize (rebase_current c) hseen
    rw [heq, ← List.append_assoc]
    exact haligned.pairStep htracking (pairCapture_step floatToS16 _ frame)

theorem Kept.step (h : Kept floatToS16 c p t) (op : EchoOp F) :
    Kept floatToS16 (next floatToS16 c op) (p.step op)
      (t ++ (EchoCanceller.step floatToS16 c op).2) := by
  cases op with
  | pushPlayback stereo =>
      have hside : (next floatToS16 c (.pushPlayback stereo)).captureSide = c.captureSide :=
        pushPlayback_captureSide c stereo
      have hearlier := p.earlier_pushPlayback stereo
      rw [EchoCanceller.step, List.append_nil]
      exact h.silent (h.mirrors.pushPlayback stereo) (floor_congr hside hearlier).ge
        (pending_congr hside).ge
  | processCapture mono => exact h.processCapture mono
  | requestReset =>
      have henabled : { p.reset with enabled := c.enabled } = p.reset := by
        rw [h.mirrors.enabled]
        rfl
      have hreset := h.reset c.enabled
      rw [henabled] at hreset
      exact hreset
  | setEnabled enabled =>
      rw [next, EchoCanceller.step, EchoCanceller.setEnabled, Playback.step, ← h.mirrors.enabled]
      split
      next => exact h.reset enabled
      next =>
        rw [List.append_nil]
        exact h

theorem kept_run (ops : List (EchoOp F)) (h : Kept floatToS16 c p t) :
    Kept floatToS16 (Machine.run (next floatToS16) c ops) (Machine.run Playback.step p ops)
      (t ++ trace floatToS16 c ops) := by
  induction ops generalizing c p t with
  | nil =>
      rw [trace, List.append_nil]
      exact h
  | cons op ops ih =>
      rw [trace, ← List.append_assoc]
      exact ih (h.step op)

theorem kept_playback (c : EchoCanceller) (ops : List (EchoOp F)) :
    Kept floatToS16 (Machine.run (next floatToS16) c.init ops) (c.init.playback ops)
      (trace floatToS16 c.init ops) := kept_run ops (kept_init c)

/-- What `pairCapture` hands over is what was played. -/
theorem Kept.pairs_frame {frame : List F} {sequence : Nat} {microphone : List (BitVec 16)}
    {reference : List (BitVec 16 × BitVec 16)} (h : Kept floatToS16 c p t)
    (htracking : c.Tracking) (hlength : frame.length = FRAME_SIZE)
    (hstep : PairStep floatToS16 c frame c' (.paired sequence microphone reference)) :
    Pairs floatToS16 p (.processCapture (some frame)) sequence microphone reference := by
  obtain ⟨-, hfrom, -⟩ := h.mirrors.tracking htracking
  have hwritten := h.mirrors.written
  obtain ⟨k, hk⟩ : ∃ k, c.readFrame = p.earlier + k := ⟨_, (Nat.add_sub_cancel' hfrom).symm⟩
  cases hstep with
  | paired hfresh hdelay hread hlap =>
      have hcomplete : k < p.frames := by
        rw [Playback.written] at hwritten
        omega
      have hnear : p.frames ≤ k + QUEUE_CAPACITY_FRAMES := by
        rw [Playback.written] at hwritten
        omega
      refine ⟨⟨frame, rfl, hlength, rfl⟩, ⟨k, hk, ?_, ?_⟩, hwritten ▸ hlap⟩
      · exact (Nat.mul_le_mul_right _ hcomplete).trans (Nat.div_mul_le_self ..)
      · rw [hk, h.mirrors.queue k hcomplete hnear, List.map_map]
        exact List.map_congr_left fun sample _ => unpackStereo_packStereo ..

theorem pairs_of_paired {op : EchoOp F} {sequence : Nat} {microphone : List (BitVec 16)}
    {reference : List (BitVec 16 × BitVec 16)} (h : Kept floatToS16 c p t)
    (hpaired : .paired sequence microphone reference ∈ (step floatToS16 c op).2) :
    Pairs floatToS16 p op sequence microphone reference := by
  cases op with
  | pushPlayback stereo => cases hpaired
  | requestReset => cases hpaired with | tail _ hin => cases hin
  | setEnabled enabled =>
      unfold step setEnabled at hpaired
      dsimp only at hpaired
      split at hpaired
      next => cases hpaired with | tail _ hin => cases hin
      next => cases hpaired
  | processCapture mono =>
      unfold step at hpaired
      dsimp only at hpaired
      obtain heq | heq | ⟨frame, rfl, hlength, hseen, heq⟩ :=
        processCapture_cases floatToS16 c mono
      · rw [heq] at hpaired
        cases hpaired with | tail _ hin => cases hin
      · rw [heq] at hpaired
        cases hpaired with | tail _ hin => cases hin
      · obtain ⟨haligned, htracking⟩ := h.rebase.synchronize (rebase_current c) hseen
        have hstep := pairCapture_step floatToS16 c.rebase.synchronize.1 frame
        rw [heq] at hpaired
        obtain hin | hin := List.mem_append.mp hpaired
        · unfold synchronize at hin
          split at hin
          next => cases hin with | tail _ hin => cases hin
          next => cases hin
        · rw [← List.mem_singleton.mp hin] at hstep
          exact haligned.pairs_frame htracking hlength hstep

/-- Every pair of a run takes the next complete frame of the epoch from the ring, after the
reference delay. -/
theorem reference_aligned (c : EchoCanceller) (ops : List (EchoOp F)) :
    Aligned floatToS16 c.init ops where
  pairs before _ _ _ _ _ _ hpaired := pairs_of_paired (kept_playback c before) hpaired
  ordered := (kept_playback c ops).ordered
  delayed := (kept_playback c ops).waited

end EchoCanceller

end Parties.Voice

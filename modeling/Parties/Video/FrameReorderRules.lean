import Mathlib.Algebra.BigOperators.Group.List.Basic
import Parties.Video.FrameReorder

/-!
# What the parts of the reorder buffer do

One rule for each private member function that the results about the buffer
cite instead of unfolding it: what a call may change, and how the loop of
`drain` and the loop of `bound_held` end.
-/

namespace Parties.Video

variable {φ : Type}

/-- The bytes of held entries. -/
def entriesSize [FrameBytes φ] (entries : List (Int × Held φ)) : Nat :=
  (entries.map fun e => e.2.size).sum

@[simp] theorem entriesSize_nil [FrameBytes φ] :
    entriesSize ([] : List (Int × Held φ)) = 0 := rfl

@[simp] theorem entriesSize_cons [FrameBytes φ] (e : Int × Held φ)
    (entries : List (Int × Held φ)) :
    entriesSize (e :: entries) = e.2.size + entriesSize entries := rfl

@[simp] theorem entriesSize_append [FrameBytes φ] (xs ys : List (Int × Held φ)) :
    entriesSize (xs ++ ys) = entriesSize xs + entriesSize ys := by
  simp [entriesSize]

theorem entriesSize_perm [FrameBytes φ] {xs ys : List (Int × Held φ)} (h : xs.Perm ys) :
    entriesSize xs = entriesSize ys :=
  (h.map _).sum_eq

theorem entriesSize_filter_add [FrameBytes φ] (keep : Int × Held φ → Bool)
    (entries : List (Int × Held φ)) :
    entriesSize (entries.filter keep) + entriesSize (entries.filter fun e => !keep e) =
      entriesSize entries := by
  rw [← entriesSize_append]
  exact entriesSize_perm (List.filter_append_perm keep entries)

/-- The callback that hands on a held frame. -/
def deliverHeld (e : Int × Held φ) : ReorderEvent φ := .deliver e.2.hdr e.2.frame

@[simp] theorem deliveredFrames_map_deliverHeld (taken : List (Int × Held φ)) :
    deliveredFrames (taken.map deliverHeld) = taken.map fun e => (e.2.hdr, e.2.frame) := by
  induction taken with
  | nil => rfl
  | cons e taken ih => simp [deliverHeld, ih]

namespace VideoFrameReorderBuffer

theorem forgetInflightThrough_eq (b : VideoFrameReorderBuffer φ) (seq : BitVec 32) :
    b.forgetInflightThrough seq =
      { b with inflightKey := b.inflightKey && videoSeqNewer b.inflightKeySeq seq } := by
  unfold forgetInflightThrough
  cases hkey : b.inflightKey <;> cases hnewer : videoSeqNewer b.inflightKeySeq seq <;>
    simp [← hkey]

/-! ### Recovery -/

/-- A call that touched the recovery flags of `b` and nothing else, and that
never reports a loss while no keyframe is awaited. -/
structure RecoveryOnly (b : VideoFrameReorderBuffer φ)
    (r : VideoFrameReorderBuffer φ × List (ReorderEvent φ)) : Prop where
  state : ∃ awaiting reported,
    r.1 = { b with awaitingKeyframe := awaiting, lossReported := reported }
  delivered : deliveredFrames r.2 = []
  loss : (b.lossReported = true → b.awaitingKeyframe = true) →
    r.1.lossReported = true → r.1.awaitingKeyframe = true

theorem RecoveryOnly.refl (b : VideoFrameReorderBuffer φ) : RecoveryOnly b (b, []) :=
  ⟨⟨_, _, rfl⟩, rfl, fun h => h⟩

theorem RecoveryOnly.trans {b : VideoFrameReorderBuffer φ}
    {r r' : VideoFrameReorderBuffer φ × List (ReorderEvent φ)} (h : RecoveryOnly b r)
    (h' : RecoveryOnly r.1 r') : RecoveryOnly b (r'.1, r.2 ++ r'.2) := by
  obtain ⟨⟨_, _, hstate⟩, hdelivered, hloss⟩ := h
  obtain ⟨⟨awaiting, reported, hstate'⟩, hdelivered', hloss'⟩ := h'
  refine ⟨⟨awaiting, reported, ?_⟩, ?_, fun hb => hloss' (hloss hb)⟩
  · rw [hstate', hstate]
  · rw [deliveredFrames_append, hdelivered, hdelivered', List.append_nil]

theorem reportLoss_recoveryOnly (b : VideoFrameReorderBuffer φ) :
    RecoveryOnly b b.reportLoss := by
  unfold reportLoss
  split
  · exact .refl b
  next h =>
    refine ⟨⟨_, _, rfl⟩, rfl, fun _ _ => ?_⟩
    simp only [Bool.or_eq_true, Bool.not_eq_true', not_or, Bool.not_eq_false] at h
    exact h.2

theorem requireKeyframe_recoveryOnly (b : VideoFrameReorderBuffer φ) (nowUs : Int) :
    RecoveryOnly b (b.requireKeyframe nowUs) := by
  unfold requireKeyframe
  split
  · exact .refl b
  · dsimp only
    split
    · exact ⟨⟨_, _, rfl⟩, rfl, fun _ _ => rfl⟩
    · obtain ⟨⟨awaiting, reported, hstate⟩, hdelivered, hloss⟩ :=
        reportLoss_recoveryOnly { b with awaitingKeyframe := true, lossReported := false }
      exact ⟨⟨awaiting, reported, hstate⟩, hdelivered, fun _ => hloss fun _ => rfl⟩

variable [FrameBytes φ]

/-! ### The loop of drain -/

/-- The buffer after one turn of the loop of `drain`. -/
def takeFront (b : VideoFrameReorderBuffer φ) (e : Int × Held φ) : VideoFrameReorderBuffer φ :=
  { b with
    held := b.held.popFront
    heldBytes := b.heldBytes - e.2.size
    lastDelivered := e.2.hdr.frameSeq
    inflightKey := b.inflightKey && videoSeqNewer b.inflightKeySeq e.2.hdr.frameSeq }

/-- The loop of `drain` takes the entries `taken` from `b` and leaves `b'`. -/
inductive Drains : VideoFrameReorderBuffer φ → List (Int × Held φ) →
    VideoFrameReorderBuffer φ → Prop
  | stop {b : VideoFrameReorderBuffer φ}
      (hstop : ∀ e, b.held.front? = some e → e.2.hdr.frameSeq ≠ b.lastDelivered + 1) :
      Drains b [] b
  | take {b b' : VideoFrameReorderBuffer φ} {e : Int × Held φ} {taken : List (Int × Held φ)}
      (hfront : b.held.front? = some e) (hnext : e.2.hdr.frameSeq = b.lastDelivered + 1)
      (hrest : Drains (b.takeFront e) taken b') : Drains b (e :: taken) b'

theorem drainLoop_drains (fuel : Nat) (b : VideoFrameReorderBuffer φ)
    (hfuel : b.held.size ≤ fuel) :
    ∃ taken, Drains b taken (b.drainLoop fuel).1 ∧
      (b.drainLoop fuel).2 = taken.map deliverHeld := by
  induction fuel generalizing b with
  | zero =>
      refine ⟨[], .stop fun e hfront => ?_, rfl⟩
      have hempty : b.held.entries = [] := List.eq_nil_of_length_eq_zero (by
        simpa [OrderedMap.size] using hfuel)
      simp [OrderedMap.front?, hempty] at hfront
  | succ fuel ih =>
      unfold drainLoop
      split
      next hnone =>
        exact ⟨[], .stop fun e hfront => by simp [hnone] at hfront, rfl⟩
      next key h hfront =>
        split
        next hne =>
          refine ⟨[], .stop fun e he => ?_, rfl⟩
          obtain rfl : (key, h) = e := Option.some.inj (hfront.symm.trans he)
          exact hne
        next hnext =>
          have hsize : (b.takeFront (key, h)).held.size ≤ fuel := by
            simp only [OrderedMap.size] at hfuel ⊢
            simp only [takeFront, OrderedMap.entries_popFront, List.length_tail]
            omega
          obtain ⟨taken, hdrains, hevents⟩ := ih _ hsize
          refine ⟨(key, h) :: taken, ?_, ?_⟩
          · simp only [deliverOne, forgetInflightThrough_eq]
            exact .take hfront (not_not.mp hnext) hdrains
          · simp only [deliverOne, forgetInflightThrough_eq]
            simp only [takeFront] at hevents
            simp [hevents, deliverHeld]

/-- The loop changes the held frames, the last number and the in-flight mark. -/
theorem Drains.frame {b b' : VideoFrameReorderBuffer φ} {taken : List (Int × Held φ)}
    (h : Drains b taken b') :
    b' = { b with
      held := b'.held
      heldBytes := b'.heldBytes
      lastDelivered := b'.lastDelivered
      inflightKey := b'.inflightKey } := by
  induction h with
  | stop => rfl
  | take hfront hnext hrest ih => simpa [takeFront] using ih

/-- It takes a prefix of the held entries. -/
theorem Drains.entries {b b' : VideoFrameReorderBuffer φ} {taken : List (Int × Held φ)}
    (h : Drains b taken b') : b.held.entries = taken ++ b'.held.entries := by
  induction h with
  | stop => rfl
  | @take b b' e taken hfront hnext hrest ih =>
      obtain ⟨rest, hentries⟩ := List.head?_eq_some_iff.mp hfront
      simpa [takeFront, hentries] using ih

theorem Drains.heldBytes {b b' : VideoFrameReorderBuffer φ} {taken : List (Int × Held φ)}
    (h : Drains b taken b') : b'.heldBytes = b.heldBytes - entriesSize taken := by
  induction h with
  | stop => simp
  | take hfront hnext hrest ih => simp [ih, takeFront, Nat.sub_sub]

/-- The loop leaves no frame that could be delivered. -/
theorem Drains.stopped {b b' : VideoFrameReorderBuffer φ} {taken : List (Int × Held φ)}
    (h : Drains b taken b') :
    ∀ e, b'.held.front? = some e → e.2.hdr.frameSeq ≠ b'.lastDelivered + 1 := by
  induction h with
  | stop hstop => exact hstop
  | take hfront hnext hrest ih => exact ih

theorem Drains.inflight {b b' : VideoFrameReorderBuffer φ} {taken : List (Int × Held φ)}
    (h : Drains b taken b')
    (hb : b.inflightKey = true → videoSeqNewer b.inflightKeySeq b.lastDelivered = true) :
    b'.inflightKey = true → videoSeqNewer b'.inflightKeySeq b'.lastDelivered = true := by
  induction h with
  | stop => exact hb
  | take hfront hnext hrest ih =>
      refine ih fun hkey => ?_
      simp only [takeFront, Bool.and_eq_true] at hkey ⊢
      exact hkey.2

/-- What `drain` does once its loop is over. -/
def settled (b : VideoFrameReorderBuffer φ) : VideoFrameReorderBuffer φ :=
  { b with
    held := rekeyHeld b.held b.lastDelivered
    gapSinceUs := earliestArrival (rekeyHeld b.held b.lastDelivered)
    aborted := b.aborted.filter fun seq => videoSeqNewer seq b.lastDelivered }

/-- The outcome `r` of delivering a frame from `b` and then draining: the loop
takes `taken`, the rest is settled, and at most the recovery flags change. -/
structure Resumes (b : VideoFrameReorderBuffer φ) (hdr : VideoFrameHeader) (frame : φ)
    (taken : List (Int × Held φ)) (b' : VideoFrameReorderBuffer φ)
    (r : VideoFrameReorderBuffer φ × List (ReorderEvent φ)) : Prop where
  drains : Drains (b.forgetInflightThrough hdr.frameSeq) taken b'
  recovery : ∃ losses, RecoveryOnly b'.settled (r.1, losses)
  delivered : deliveredFrames r.2 = (hdr, frame) :: taken.map fun e => (e.2.hdr, e.2.frame)

/-- The check that ends `drain`. -/
def checkNext (b : VideoFrameReorderBuffer φ) (nowUs : Int) :
    VideoFrameReorderBuffer φ × List (ReorderEvent φ) :=
  if b.nextIsAborted then b.requireKeyframe nowUs else (b, [])

omit [FrameBytes φ] in
theorem checkNext_recoveryOnly (b : VideoFrameReorderBuffer φ) (nowUs : Int) :
    RecoveryOnly b (b.checkNext nowUs) := by
  unfold checkNext
  split
  · exact requireKeyframe_recoveryOnly b nowUs
  · exact .refl b

/-- Delivering a frame: the loop of `drain` follows, then its check. -/
theorem resumeAt_drains (b : VideoFrameReorderBuffer φ) (hdr : VideoFrameHeader) (frame : φ)
    (nowUs : Int) : ∃ taken b', Drains (b.forgetInflightThrough hdr.frameSeq) taken b' ∧
      b.resumeAt hdr frame nowUs = ((b'.settled.checkNext nowUs).1,
        .deliver hdr frame :: (taken.map deliverHeld ++ (b'.settled.checkNext nowUs).2)) := by
  obtain ⟨taken, hdrains, hevents⟩ :=
    drainLoop_drains _ (b.forgetInflightThrough hdr.frameSeq) le_rfl
  refine ⟨taken, _, hdrains, ?_⟩
  rw [← hevents]
  have hresume : b.resumeAt hdr frame nowUs =
      (((b.forgetInflightThrough hdr.frameSeq).drain nowUs).1,
        .deliver hdr frame :: ((b.forgetInflightThrough hdr.frameSeq).drain nowUs).2) := rfl
  rw [hresume]
  generalize hloop : (b.forgetInflightThrough hdr.frameSeq).drainLoop
    (b.forgetInflightThrough hdr.frameSeq).held.size = loop
  have hdrain : (b.forgetInflightThrough hdr.frameSeq).drain nowUs =
      ((loop.1.settled.checkNext nowUs).1, loop.2 ++ (loop.1.settled.checkNext nowUs).2) := by
    simp only [drain, hloop, checkNext]
    by_cases hnext : loop.1.settled.nextIsAborted = true
    · rw [if_pos hnext]
      exact if_pos hnext
    · rw [if_neg hnext, List.append_nil]
      exact if_neg hnext
  rw [hdrain]

theorem resumeAt_resumes (b : VideoFrameReorderBuffer φ) (hdr : VideoFrameHeader) (frame : φ)
    (nowUs : Int) : ∃ taken b', Resumes b hdr frame taken b' (b.resumeAt hdr frame nowUs) := by
  obtain ⟨taken, b', hdrains, hresume⟩ := resumeAt_drains b hdr frame nowUs
  have hrecovery := checkNext_recoveryOnly b'.settled nowUs
  refine ⟨taken, b', hdrains, ?_, ?_⟩
  · rw [hresume]
    exact ⟨_, hrecovery⟩
  · rw [hresume]
    simp [hrecovery.delivered]

/-! ### Evictions -/

omit [FrameBytes φ] in
theorem overBounds_eq_false {b : VideoFrameReorderBuffer φ} :
    b.overBounds = false ↔ b.held.size ≤ b.cfg.maxHeldFrames ∧ b.heldBytes ≤ b.cfg.maxBytes := by
  simp [overBounds]

/-- `b'` is `b` with some held entries evicted and their bytes accounted for. -/
structure Evicts (b b' : VideoFrameReorderBuffer φ) : Prop where
  frame : b' = { b with held := b'.held, heldBytes := b'.heldBytes }
  entries : b'.held.entries.Sublist b.held.entries
  le : b'.heldBytes ≤ b.heldBytes
  heldBytes : b.heldBytes = entriesSize b.held.entries →
    b'.heldBytes = entriesSize b'.held.entries

theorem Evicts.refl (b : VideoFrameReorderBuffer φ) : Evicts b b :=
  ⟨rfl, List.Sublist.refl _, le_rfl, fun h => h⟩

theorem Evicts.trans {b b' b'' : VideoFrameReorderBuffer φ} (h : Evicts b b')
    (h' : Evicts b' b'') : Evicts b b'' := by
  refine ⟨?_, h'.entries.trans h.entries, h'.le.trans h.le,
    fun hbytes => h'.heldBytes (h.heldBytes hbytes)⟩
  rw [h'.frame, h.frame]

/-- Dropping what fails a test evicts. -/
theorem dropHeld_evicts (b : VideoFrameReorderBuffer φ) (keep : Int × Held φ → Bool) :
    Evicts b (b.dropHeld keep) := by
  refine ⟨rfl, List.filter_sublist, Nat.sub_le _ _, fun hbytes => ?_⟩
  have hsplit := entriesSize_filter_add keep b.held.entries
  simp only [dropHeld, OrderedMap.entries_filter, hbytes]
  simp only [entriesSize] at hsplit ⊢
  omega

/-- One turn of the loop: the victim goes, with its bytes. -/
theorem evicts_victim {b : VideoFrameReorderBuffer φ} {e : Int × Held φ}
    (hvictim : (if b.haveLast then b.held.back? else b.held.front?) = some e) :
    Evicts b { b with
      heldBytes := b.heldBytes - e.2.size
      held := if b.haveLast then b.held.popBack else b.held.popFront } ∧
    (if b.haveLast then b.held.popBack else b.held.popFront).size + 1 = b.held.size := by
  split at hvictim
  next hlast =>
    rw [if_pos hlast]
    obtain ⟨rest, hentries⟩ := List.getLast?_eq_some_iff.mp hvictim
    refine ⟨⟨rfl, List.dropLast_sublist _, Nat.sub_le _ _, fun hbytes => ?_⟩, ?_⟩
    · simp [hbytes, hentries]
    · simp [OrderedMap.size, hentries]
  next hlast =>
    rw [if_neg hlast]
    obtain ⟨rest, hentries⟩ := List.head?_eq_some_iff.mp hvictim
    refine ⟨⟨rfl, List.tail_sublist _, Nat.sub_le _ _, fun hbytes => ?_⟩, ?_⟩
    · simp [hbytes, hentries]
    · simp [OrderedMap.size, hentries]

theorem boundHeldLoop_evicts (fuel : Nat) (b : VideoFrameReorderBuffer φ) :
    Evicts b (b.boundHeldLoop fuel) := by
  induction fuel generalizing b with
  | zero => exact .refl b
  | succ fuel ih =>
      unfold boundHeldLoop
      split
      · exact .refl b
      · split
        · exact .refl b
        next key victim hvictim =>
          exact (evicts_victim hvictim).1.trans (ih _)

theorem overBounds_of_empty {b : VideoFrameReorderBuffer φ}
    (hbytes : b.heldBytes = entriesSize b.held.entries) (hempty : b.held.entries = []) :
    b.overBounds = false := by
  simp [overBounds_eq_false, OrderedMap.size, hbytes, hempty]

/-- The loop stops within the bounds. -/
theorem boundHeldLoop_bounded (fuel : Nat) (b : VideoFrameReorderBuffer φ)
    (hfuel : b.held.size ≤ fuel) (hbytes : b.heldBytes = entriesSize b.held.entries) :
    (b.boundHeldLoop fuel).overBounds = false := by
  induction fuel generalizing b with
  | zero => exact overBounds_of_empty hbytes (List.eq_nil_of_length_eq_zero (Nat.le_zero.mp hfuel))
  | succ fuel ih =>
      unfold boundHeldLoop
      split
      next hover =>
        simpa using hover
      · split
        next hnone =>
          refine overBounds_of_empty hbytes ?_
          split at hnone
          · exact List.getLast?_eq_none_iff.mp hnone
          · exact List.head?_eq_none_iff.mp hnone
        next key victim hvictim =>
          obtain ⟨hevicts, hsize⟩ := evicts_victim hvictim
          exact ih _ (by dsimp only at hsize ⊢; omega) (hevicts.heldBytes hbytes)

/-- Nothing is evicted within the bounds. -/
theorem boundHeldLoop_of_bounded {b : VideoFrameReorderBuffer φ} (h : b.overBounds = false)
    (fuel : Nat) : b.boundHeldLoop fuel = b := by
  cases fuel with
  | zero => rfl
  | succ fuel => simp [boundHeldLoop, h]

end VideoFrameReorderBuffer

end Parties.Video

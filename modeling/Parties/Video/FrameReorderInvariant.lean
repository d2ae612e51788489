import Parties.Video.FrameReorderRules

/-!
# The representation invariant of the reorder buffer

The invariants the source states for the time between two calls, and the proof
that every operation keeps them. The calls that insert a frame break the bounds
and the gap clock and restore them with `bound_held`; the calls that deliver
leave stale keys and restore them with `rekey_held`. `Core` is the part that
holds in between, `Ready` is what a delivery starts from.
-/

namespace Parties.Video

variable {φ : Type}

/-- `t` is the earliest arrival among the entries, 0 when there are none. -/
structure IsEarliest (t : Int) (entries : List (Int × Held φ)) : Prop where
  empty : entries = [] → t = 0
  attained : entries ≠ [] → ∃ e ∈ entries, e.2.arrivedUs = t
  least : ∀ e ∈ entries, t ≤ e.2.arrivedUs

/-- All entries arrived at positive times, none after `t`. -/
def ArrivedBy (t : Int) (entries : List (Int × Held φ)) : Prop :=
  ∀ e ∈ entries, 0 < e.2.arrivedUs ∧ e.2.arrivedUs ≤ t

theorem ArrivedBy.mono {entries : List (Int × Held φ)} {t t' : Int} (h : ArrivedBy t entries)
    (hle : t ≤ t') : ArrivedBy t' entries :=
  fun e he => ⟨(h e he).1, (h e he).2.trans hle⟩

private theorem foldl_earliest (vs : List (Held φ)) (acc : Int) (hacc : 0 < acc)
    (hpos : ∀ h ∈ vs, 0 < h.arrivedUs) :
    let t := vs.foldl (fun earliest h =>
      if earliest = 0 ∨ h.arrivedUs < earliest then h.arrivedUs else earliest) acc
    (t = acc ∨ ∃ h ∈ vs, h.arrivedUs = t) ∧ t ≤ acc ∧ ∀ h ∈ vs, t ≤ h.arrivedUs := by
  induction vs generalizing acc with
  | nil => simp
  | cons v vs ih =>
      have hv := hpos v (by simp)
      have hvs : ∀ h ∈ vs, 0 < h.arrivedUs := fun h hh => hpos h (by simp [hh])
      simp only [List.foldl_cons]
      by_cases hless : acc = 0 ∨ v.arrivedUs < acc
      · rw [if_pos hless]
        obtain ⟨hfrom, hle, hleast⟩ := ih v.arrivedUs hv hvs
        refine ⟨Or.inr ?_, by omega, ?_⟩
        · rcases hfrom with heq | ⟨h, hh, heq⟩
          · exact ⟨v, by simp, heq.symm⟩
          · exact ⟨h, by simp [hh], heq⟩
        · intro h hh
          rcases List.mem_cons.mp hh with rfl | hh
          · exact hle
          · exact hleast h hh
      · rw [if_neg hless]
        obtain ⟨hfrom, hle, hleast⟩ := ih acc hacc hvs
        refine ⟨?_, hle, ?_⟩
        · rcases hfrom with heq | ⟨h, hh, heq⟩
          · exact Or.inl heq
          · exact Or.inr ⟨h, by simp [hh], heq⟩
        · intro h hh
          rcases List.mem_cons.mp hh with rfl | hh
          · omega
          · exact hleast h hh

/-- The source starts its minimum at 0, which positive times make right. -/
theorem earliestArrival_isEarliest {held : OrderedMap Int (Held φ)}
    (hpos : ∀ e ∈ held.entries, 0 < e.2.arrivedUs) :
    IsEarliest (earliestArrival held) held.entries := by
  unfold earliestArrival OrderedMap.values
  cases hentries : held.entries with
  | nil => exact ⟨fun _ => rfl, fun h => absurd rfl h, by simp⟩
  | cons e rest =>
      rw [hentries] at hpos
      have hrest : ∀ h ∈ rest.map Prod.snd, 0 < h.arrivedUs := by
        intro h hh
        obtain ⟨e', he', rfl⟩ := List.mem_map.mp hh
        exact hpos e' (by simp [he'])
      obtain ⟨hfrom, hle, hleast⟩ :=
        foldl_earliest (rest.map Prod.snd) e.2.arrivedUs (hpos e (by simp)) hrest
      simp only [List.map_cons, List.foldl_cons, true_or, if_true]
      refine ⟨by simp, fun _ => ?_, fun e' he' => ?_⟩
      · rcases hfrom with heq | ⟨h, hh, heq⟩
        · exact ⟨e, by simp, heq.symm⟩
        · obtain ⟨e', he', rfl⟩ := List.mem_map.mp hh
          exact ⟨e', by simp [he'], heq⟩
      · rcases List.mem_cons.mp he' with rfl | he'
        · exact hle
        · exact hleast e'.2 (List.mem_map.mpr ⟨e', he', rfl⟩)

/-- Entries under distinct distances hold distinct frames, so rekeying keeps
them all. -/
theorem rekeyHeld_perm {held : OrderedMap Int (Held φ)} {a : BitVec 32}
    (hkey : ∀ e ∈ held.entries, e.1 = videoSeqDistance e.2.hdr.frameSeq a) (base : BitVec 32) :
    (rekeyHeld held base).entries.Perm
      (held.entries.map fun e => (videoSeqDistance e.2.hdr.frameSeq base, e.2)) := by
  have hdistinct : held.values.Pairwise fun h h' =>
      videoSeqDistance h.hdr.frameSeq base ≠ videoSeqDistance h'.hdr.frameSeq base := by
    refine List.pairwise_map.mpr (held.sorted.imp_of_mem fun {e e'} he he' hlt heq => ?_)
    have hseq := videoSeqDistance_inj.mp heq
    rw [hkey e he, hkey e' he', hseq] at hlt
    exact lt_irrefl _ hlt
  have hperm := OrderedMap.entries_rekey_perm hdistinct
  simpa [rekeyHeld, OrderedMap.values, Function.comp_def] using hperm

section Rekeyed

variable {held : OrderedMap Int (Held φ)} {a base : BitVec 32}

theorem mem_rekeyHeld (hkey : ∀ e ∈ held.entries, e.1 = videoSeqDistance e.2.hdr.frameSeq a)
    {e : Int × Held φ} (he : e ∈ (rekeyHeld held base).entries) :
    e.1 = videoSeqDistance e.2.hdr.frameSeq base ∧ ∃ e' ∈ held.entries, e'.2 = e.2 := by
  obtain ⟨e', he', rfl⟩ := List.mem_map.mp ((rekeyHeld_perm hkey base).mem_iff.mp he)
  exact ⟨rfl, e', he', rfl⟩

theorem entriesSize_rekeyHeld [FrameBytes φ]
    (hkey : ∀ e ∈ held.entries, e.1 = videoSeqDistance e.2.hdr.frameSeq a) :
    entriesSize (rekeyHeld held base).entries = entriesSize held.entries := by
  rw [entriesSize_perm (rekeyHeld_perm hkey base)]
  simp [entriesSize, Function.comp_def]

theorem size_rekeyHeld (hkey : ∀ e ∈ held.entries, e.1 = videoSeqDistance e.2.hdr.frameSeq a) :
    (rekeyHeld held base).size = held.size := by
  simpa [OrderedMap.size] using (rekeyHeld_perm hkey base).length_eq

theorem ArrivedBy.rekeyHeld {t : Int} (ht : ArrivedBy t held.entries)
    (hkey : ∀ e ∈ held.entries, e.1 = videoSeqDistance e.2.hdr.frameSeq a) :
    ArrivedBy t (rekeyHeld held base).entries := by
  intro e he
  obtain ⟨_, e', he', heq⟩ := mem_rekeyHeld hkey he
  rw [← heq]
  exact ht e' he'

end Rekeyed

namespace VideoFrameReorderBuffer

variable [FrameBytes φ]

/-- The part of the invariant that insertions keep. -/
structure Core (b : VideoFrameReorderBuffer φ) : Prop where
  delta : ∀ e ∈ b.held.entries, e.2.hdr.keyframe = false
  heldBytes : b.heldBytes = entriesSize b.held.entries
  key : ∀ e ∈ b.held.entries, e.1 = videoSeqDistance e.2.hdr.frameSeq b.lastDelivered
  ahead : b.haveLast = true → ∀ e ∈ b.held.entries,
    2 ≤ videoSeqDistance e.2.hdr.frameSeq b.lastDelivered
  abortedNewer : b.haveLast = true → ∀ seq ∈ b.aborted, videoSeqNewer seq b.lastDelivered = true
  abortedBound : b.aborted.length ≤ MAX_ABORTED_TRACKED
  abortedNodup : b.aborted.Nodup
  inflight : b.haveLast = true → b.inflightKey = true →
    videoSeqNewer b.inflightKeySeq b.lastDelivered = true
  loss : b.lossReported = true → b.awaitingKeyframe = true

/-- The invariants kept between calls. -/
structure Invariant (b : VideoFrameReorderBuffer φ) : Prop extends Core b where
  count : b.held.size ≤ b.cfg.maxHeldFrames
  bytes : b.heldBytes ≤ b.cfg.maxBytes
  gap : IsEarliest b.gapSinceUs b.held.entries

variable {b : VideoFrameReorderBuffer φ} {t : Int}

theorem Core.invariant (h : Core b) (hover : b.overBounds = false)
    (hgap : IsEarliest b.gapSinceUs b.held.entries) : Invariant b where
  toCore := h
  count := (overBounds_eq_false.mp hover).1
  bytes := (overBounds_eq_false.mp hover).2
  gap := hgap

theorem Invariant.overBounds (h : Invariant b) : b.overBounds = false :=
  overBounds_eq_false.mpr ⟨h.count, h.bytes⟩

/-- The recovery flags are free, up to their own condition. -/
theorem Invariant.recovery {r : VideoFrameReorderBuffer φ × List (ReorderEvent φ)}
    (h : Invariant b) (hr : RecoveryOnly b r) : Invariant r.1 := by
  have hloss := hr.loss h.loss
  obtain ⟨awaiting, reported, hstate⟩ := hr.state
  rw [hstate] at hloss ⊢
  exact { h with loss := hloss }

/-- The same together with the arrival times. -/
theorem recovery_invariant {r : VideoFrameReorderBuffer φ × List (ReorderEvent φ)}
    (h : Invariant b ∧ ArrivedBy t b.held.entries) (hr : RecoveryOnly b r) :
    Invariant r.1 ∧ ArrivedBy t r.1.held.entries := by
  refine ⟨h.1.recovery hr, ?_⟩
  obtain ⟨awaiting, reported, hstate⟩ := hr.state
  rw [hstate]
  exact h.2

theorem Core.recovery {r : VideoFrameReorderBuffer φ × List (ReorderEvent φ)}
    (h : Core b) (hr : RecoveryOnly b r) : Core r.1 := by
  have hloss := hr.loss h.loss
  obtain ⟨awaiting, reported, hstate⟩ := hr.state
  rw [hstate] at hloss ⊢
  exact { h with loss := hloss }

/-- Evicting entries keeps the core. -/
theorem Core.evicts {b' : VideoFrameReorderBuffer φ} (h : Core b) (he : Evicts b b') :
    Core b' := by
  have hmem := fun e => he.entries.mem (a := e)
  have hbytes := he.heldBytes h.heldBytes
  rw [he.frame]
  exact { h with
    delta := fun e hin => h.delta e (hmem e hin)
    heldBytes := hbytes
    key := fun e hin => h.key e (hmem e hin)
    ahead := fun hlast e hin => h.ahead hlast e (hmem e hin) }

/-- `bound_held` restores the bounds and the gap clock. -/
theorem Core.boundHeld (h : Core b) (ht : ArrivedBy t b.held.entries) :
    Invariant b.boundHeld ∧ ArrivedBy t b.boundHeld.held.entries := by
  have hevicts := boundHeldLoop_evicts b.held.size b
  have hcore := h.evicts hevicts
  have hbound := boundHeldLoop_bounded b.held.size b le_rfl h.heldBytes
  have hsub : ArrivedBy t (b.boundHeldLoop b.held.size).held.entries :=
    fun e he => ht e (hevicts.entries.mem he)
  refine ⟨?_, hsub⟩
  have hgap := earliestArrival_isEarliest fun e he => (hsub e he).1
  rw [overBounds_eq_false] at hbound
  exact { hcore with count := hbound.1, bytes := hbound.2, gap := hgap }

/-! ### Delivering -/

omit [FrameBytes φ] in
/-- The held frames are keyed by the base `a` and lie ahead of the last number, which lies
    ahead of `a`. -/
structure HeldAhead (b : VideoFrameReorderBuffer φ) (a : BitVec 32) : Prop where
  key : ∀ e ∈ b.held.entries, e.1 = videoSeqDistance e.2.hdr.frameSeq a
  base : 0 ≤ videoSeqDistance b.lastDelivered a
  ahead : ∀ e ∈ b.held.entries, videoSeqDistance b.lastDelivered a < e.1

variable {a : BitVec 32}

/-- A turn of the loop of `drain` moves the last number ahead. -/
theorem HeldAhead.takeFront {e : Int × Held φ} (h : HeldAhead b a)
    (hfront : b.held.front? = some e) : HeldAhead (b.takeFront e) a ∧
      videoSeqDistance b.lastDelivered a < videoSeqDistance (b.takeFront e).lastDelivered a := by
  obtain ⟨rest, hentries⟩ := List.head?_eq_some_iff.mp hfront
  have hin : e ∈ b.held.entries := by
    rw [hentries]
    exact List.mem_cons_self
  have hrest : ∀ e' ∈ (b.takeFront e).held.entries, e' ∈ rest := by
    intro e' he'
    simpa [VideoFrameReorderBuffer.takeFront, hentries] using he'
  have hsorted := b.held.sorted
  rw [hentries] at hsorted
  have hkey := h.key e hin
  have hahead := h.ahead e hin
  have hbase := h.base
  have hlast : (b.takeFront e).lastDelivered = e.2.hdr.frameSeq := rfl
  rw [hlast, ← hkey]
  refine ⟨⟨fun e' he' => h.key e' ?_, ?_, fun e' he' => ?_⟩, hahead⟩
  · rw [hentries]
    exact List.mem_cons_of_mem _ (hrest e' he')
  · rw [hlast, ← hkey]
    omega
  · rw [hlast, ← hkey]
    exact List.rel_of_pairwise_cons hsorted (hrest e' he')

theorem HeldAhead.drains {taken : List (Int × Held φ)} (h : HeldAhead b a)
    (hdrains : Drains b taken b') :
    HeldAhead b' a ∧ videoSeqDistance b.lastDelivered a ≤ videoSeqDistance b'.lastDelivered a := by
  induction hdrains with
  | stop => exact ⟨h, le_rfl⟩
  | take hfront hnext hrest ih =>
      obtain ⟨hnextAhead, hmoved⟩ := h.takeFront hfront
      obtain ⟨hdone, hle⟩ := ih hnextAhead
      exact ⟨hdone, hmoved.le.trans hle⟩

omit [FrameBytes φ] in
/-- Once the loop has stopped, the held frames are at least two ahead: the front
one is not the next, and the others are farther. -/
theorem HeldAhead.two_ahead (h : HeldAhead b a)
    (hstop : ∀ e, b.held.front? = some e → e.2.hdr.frameSeq ≠ b.lastDelivered + 1) :
    ∀ e ∈ b.held.entries, 2 ≤ videoSeqDistance e.2.hdr.frameSeq b.lastDelivered := by
  have hdist : ∀ e ∈ b.held.entries, videoSeqDistance e.2.hdr.frameSeq b.lastDelivered =
      e.1 - videoSeqDistance b.lastDelivered a := by
    intro e he
    have hbase := h.base
    have hahead := h.ahead e he
    have hkey := h.key e he
    rw [hkey]
    exact videoSeqDistance_rebase (by omega) hbase
  intro e he
  obtain ⟨front, rest, hentries⟩ := List.exists_cons_of_ne_nil (List.ne_nil_of_mem he)
  have hfront : 2 ≤ videoSeqDistance front.2.hdr.frameSeq b.lastDelivered := by
    have hin : front ∈ b.held.entries := by simp [hentries]
    have hne := hstop front (by simp [OrderedMap.front?, hentries])
    have hone : videoSeqDistance front.2.hdr.frameSeq b.lastDelivered ≠ 1 :=
      fun heq => hne (videoSeqDistance_eq_one_iff.mp heq)
    have hahead := h.ahead front hin
    have heq := hdist front hin
    omega
  have hle : front.1 ≤ e.1 := by
    have hsorted := b.held.sorted
    rw [hentries] at hsorted he
    rcases List.mem_cons.mp he with rfl | hmem
    · exact le_rfl
    · exact le_of_lt (List.rel_of_pairwise_cons hsorted hmem)
  have hf := hdist front (by simp [hentries])
  have he' := hdist e he
  omega

/-- What a delivery starts from: the last number has moved ahead of the base `a`
the keys still refer to, and stayed below every held frame. -/
structure Ready (b : VideoFrameReorderBuffer φ) (a : BitVec 32) : Prop where
  delta : ∀ e ∈ b.held.entries, e.2.hdr.keyframe = false
  heldBytes : b.heldBytes = entriesSize b.held.entries
  key : ∀ e ∈ b.held.entries, e.1 = videoSeqDistance e.2.hdr.frameSeq a
  base : 0 ≤ videoSeqDistance b.lastDelivered a
  ahead : ∀ e ∈ b.held.entries, videoSeqDistance b.lastDelivered a < e.1
  abortedBound : b.aborted.length ≤ MAX_ABORTED_TRACKED
  abortedNodup : b.aborted.Nodup
  loss : b.lossReported = true → b.awaitingKeyframe = true
  count : b.held.size ≤ b.cfg.maxHeldFrames
  bytes : b.heldBytes ≤ b.cfg.maxBytes

theorem Ready.heldAhead (h : Ready b a) : HeldAhead b a := ⟨h.key, h.base, h.ahead⟩

/-- One turn of the loop of `drain`: the front frame becomes the last one. -/
theorem Ready.takeFront {e : Int × Held φ} (h : Ready b a) (hfront : b.held.front? = some e) :
    Ready (b.takeFront e) a := by
  obtain ⟨rest, hentries⟩ := List.head?_eq_some_iff.mp hfront
  have hrest : ∀ e' ∈ rest, e' ∈ b.held.entries := fun e' he' => by simp [hentries, he']
  obtain ⟨hkey, hbase, hahead⟩ := (h.heldAhead.takeFront hfront).1
  have hbytes := h.heldBytes
  have hcount := h.count
  rw [hentries] at hbytes
  simp only [OrderedMap.size, hentries, List.length_cons] at hcount
  rw [entriesSize_cons] at hbytes
  refine { h with delta := ?_, heldBytes := ?_, key := hkey, base := hbase, ahead := hahead,
                  count := ?_, bytes := ?_ } <;>
    simp only [VideoFrameReorderBuffer.takeFront, OrderedMap.size, OrderedMap.entries_popFront,
      hentries, List.tail_cons]
  · exact fun e' he' => h.delta e' (hrest e' he')
  · omega
  · omega
  · have := h.bytes
    omega

theorem Ready.drains {b' : VideoFrameReorderBuffer φ} {taken : List (Int × Held φ)}
    (h : Ready b a) (hdrains : Drains b taken b') : Ready b' a := by
  induction hdrains with
  | stop => exact h
  | take hfront hnext hrest ih => exact ih (h.takeFront hfront)

/-- Settling after the loop restores the whole invariant. -/
theorem Ready.settled (h : Ready b a) (ht : ArrivedBy t b.held.entries)
    (hstop : ∀ e, b.held.front? = some e → e.2.hdr.frameSeq ≠ b.lastDelivered + 1)
    (hinflight : b.inflightKey = true →
      videoSeqNewer b.inflightKeySeq b.lastDelivered = true) :
    Invariant b.settled ∧ ArrivedBy t b.settled.held.entries := by
  have htwo := h.heldAhead.two_ahead hstop
  have harrived : ArrivedBy t (rekeyHeld b.held b.lastDelivered).entries :=
    ht.rekeyHeld h.key
  refine ⟨?_, harrived⟩
  constructor
  · constructor
    · intro e he
      obtain ⟨_, e', he', heq⟩ := mem_rekeyHeld h.key he
      rw [← heq]
      exact h.delta e' he'
    · exact h.heldBytes.trans (entriesSize_rekeyHeld h.key).symm
    · exact fun e he => (mem_rekeyHeld h.key he).1
    · intro _ e he
      obtain ⟨_, e', he', heq⟩ := mem_rekeyHeld h.key he
      rw [← heq]
      exact htwo e' he'
    · intro _ seq hseq
      exact (List.mem_filter.mp hseq).2
    · exact (List.length_filter_le _ _).trans h.abortedBound
    · exact h.abortedNodup.filter _
    · exact fun _ => hinflight
    · exact h.loss
  · exact (size_rekeyHeld h.key).trans_le h.count
  · exact h.bytes
  · exact earliestArrival_isEarliest fun e he => (harrived e he).1

/-- Delivering the frame the last number already points at keeps the invariant. -/
theorem Ready.resumes {hdr : VideoFrameHeader} {frame : φ} {taken : List (Int × Held φ)}
    {b' : VideoFrameReorderBuffer φ} {r : VideoFrameReorderBuffer φ × List (ReorderEvent φ)}
    (h : Ready b a) (ht : ArrivedBy t b.held.entries) (hlast : b.lastDelivered = hdr.frameSeq)
    (hr : Resumes b hdr frame taken b' r) :
    Invariant r.1 ∧ ArrivedBy t r.1.held.entries := by
  obtain ⟨hdrains, ⟨losses, hrecovery⟩, _⟩ := hr
  have hforget := forgetInflightThrough_eq b hdr.frameSeq
  rw [hforget] at hdrains
  have hready : Ready b' a := by
    refine Ready.drains ?_ hdrains
    exact { h with }
  have hentries := hdrains.entries
  have harrived : ArrivedBy t b'.held.entries := by
    intro e he
    refine ht e ?_
    have : e ∈ taken ++ b'.held.entries := List.mem_append_right _ he
    rwa [← hentries] at this
  have hinflight := hdrains.inflight fun hkey => by
    simp only [Bool.and_eq_true] at hkey ⊢
    rw [hlast]
    exact hkey.2
  obtain ⟨hinv, hsettled⟩ := hready.settled harrived hdrains.stopped hinflight
  have hdone := hinv.recovery hrecovery
  refine ⟨hdone, ?_⟩
  obtain ⟨awaiting, reported, hstate⟩ := hrecovery.state
  rw [show r.1 = _ from hstate]
  exact hsettled

/-! ### The operations -/

/-- Keeping a new delta keeps the core. -/
theorem Core.hold {hdr : VideoFrameHeader} (h : Core b) (hdelta : hdr.keyframe = false)
    (hfree : b.held.contains (b.keyFor hdr.frameSeq) = false)
    (hahead : b.haveLast = true → 2 ≤ videoSeqDistance hdr.frameSeq b.lastDelivered)
    (frame : φ) (nowUs : Int) : Core (b.hold hdr frame nowUs) := by
  have hmem := fun e => OrderedMap.mem_emplace (v := (⟨hdr, frame, nowUs⟩ : Held φ)) hfree (e := e)
  have hperm := OrderedMap.entries_emplace_perm (⟨hdr, frame, nowUs⟩ : Held φ) hfree
  refine { h with delta := ?_, heldBytes := ?_, key := ?_, ahead := ?_ }
  · intro e he
    rcases (hmem e).mp he with rfl | he
    · exact hdelta
    · exact h.delta e he
  · have hsize : entriesSize (b.hold hdr frame nowUs).held.entries =
        frameSize frame + entriesSize b.held.entries := entriesSize_perm hperm
    show b.heldBytes + frameSize frame = _
    rw [hsize, h.heldBytes, Nat.add_comm]
  · intro e he
    rcases (hmem e).mp he with rfl | he
    · rfl
    · exact h.key e he
  · intro hlast e he
    rcases (hmem e).mp he with rfl | he
    · exact hahead hlast
    · exact h.ahead hlast e he

theorem arrivedBy_hold {hdr : VideoFrameHeader} {nowUs : Int} (ht : ArrivedBy t b.held.entries)
    (hnow : 0 < nowUs) (hle : t ≤ nowUs)
    (hfree : b.held.contains (b.keyFor hdr.frameSeq) = false) (frame : φ) :
    ArrivedBy nowUs (b.hold hdr frame nowUs).held.entries := by
  intro e he
  rcases (OrderedMap.mem_emplace hfree).mp he with rfl | he
  · exact ⟨hnow, le_rfl⟩
  · exact ht.mono hle e he

theorem onStartupDelta_invariant {hdr : VideoFrameHeader} {nowUs : Int} (h : Invariant b)
    (hhave : b.haveLast = false) (ht : ArrivedBy t b.held.entries) (hnow : 0 < nowUs)
    (hle : t ≤ nowUs) (hdelta : hdr.keyframe = false) (frame : φ) :
    Invariant (b.onStartupDelta hdr frame nowUs) ∧
      ArrivedBy nowUs (b.onStartupDelta hdr frame nowUs).held.entries := by
  unfold onStartupDelta
  dsimp only
  generalize hb₀ : (if b.held.isEmpty then { b with lastDelivered := hdr.frameSeq } else b) = b₀
  -- with nothing held the base is free
  have hinv : Invariant b₀ ∧ b₀.held = b.held ∧ b₀.haveLast = false := by
    rw [← hb₀]
    split
    next hempty =>
      have hnil := OrderedMap.isEmpty_iff.mp hempty
      refine ⟨{ h with key := ?_, ahead := ?_, abortedNewer := ?_, inflight := ?_ }, rfl, hhave⟩
      · simp [hnil]
      · simp [hnil]
      · simp [hhave]
      · simp [hhave]
    · exact ⟨h, rfl, hhave⟩
  obtain ⟨hinv, hheld, hhave₀⟩ := hinv
  rw [← hheld] at ht
  split
  · exact ⟨hinv, ht.mono hle⟩
  next hfree =>
    have hfree := Bool.eq_false_iff.mpr hfree
    have hcore := hinv.toCore.hold hdelta hfree (by simp [hhave₀]) frame nowUs
    exact hcore.boundHeld (arrivedBy_hold ht hnow hle hfree frame)

theorem onFirstKeyframe_invariant {hdr : VideoFrameHeader} (h : Invariant b)
    (ht : ArrivedBy t b.held.entries) (frame : φ) (nowUs : Int) :
    Invariant (b.onFirstKeyframe hdr frame nowUs).1 ∧
      ArrivedBy t (b.onFirstKeyframe hdr frame nowUs).1.held.entries := by
  obtain ⟨taken, b', hresumes⟩ := resumeAt_resumes _ hdr frame nowUs
  have hevicts := dropHeld_evicts b fun e => videoSeqNewer e.2.hdr.frameSeq hdr.frameSeq
  have hcore := h.toCore.evicts hevicts
  refine Ready.resumes (a := hdr.frameSeq) ?_ ?_ rfl hresumes
  swap
  · exact ArrivedBy.rekeyHeld (fun e he => ht e (hevicts.entries.mem he)) hcore.key
  constructor
  · intro e he
    obtain ⟨_, e', he', heq⟩ := mem_rekeyHeld hcore.key he
    rw [← heq]
    exact hcore.delta e' he'
  · exact hcore.heldBytes.trans (entriesSize_rekeyHeld hcore.key).symm
  · exact fun e he => (mem_rekeyHeld hcore.key he).1
  · simp
  · intro e he
    obtain ⟨hkey, e', he', heq⟩ := mem_rekeyHeld hcore.key he
    have hnewer := videoSeqNewer_iff.mp (List.mem_filter.mp he').2
    rw [heq, ← hkey] at hnewer
    simpa using hnewer
  · exact Nat.zero_le _
  · exact List.nodup_nil
  · intro hloss
    cases hloss
  · exact (size_rekeyHeld hcore.key).trans_le (hevicts.entries.length_le.trans h.count)
  · exact hevicts.le.trans h.bytes

theorem onNextFrame_invariant {hdr : VideoFrameHeader} (h : Invariant b)
    (hhave : b.haveLast = true) (ht : ArrivedBy t b.held.entries)
    (hnext : hdr.frameSeq = b.lastDelivered + 1) (frame : φ) (nowUs : Int) :
    Invariant (b.onNextFrame hdr frame nowUs).1 ∧
      ArrivedBy t (b.onNextFrame hdr frame nowUs).1.held.entries := by
  obtain ⟨taken, b', hresumes⟩ := resumeAt_resumes _ hdr frame nowUs
  have hone := videoSeqDistance_eq_one_iff.mpr hnext
  refine Ready.resumes (a := b.lastDelivered) ?_ ?_ rfl hresumes
  swap
  · exact ht
  refine { h with base := ?_, ahead := ?_, loss := ?_ }
  · show 0 ≤ videoSeqDistance hdr.frameSeq b.lastDelivered
    omega
  · intro e he
    have hkey := h.key e he
    have hahead := h.ahead hhave e he
    show videoSeqDistance hdr.frameSeq b.lastDelivered < e.1
    omega
  · intro hloss
    cases hloss

theorem onKeyframeJump_invariant {hdr : VideoFrameHeader} (h : Invariant b)
    (ht : ArrivedBy t b.held.entries)
    (hnewer : videoSeqNewer hdr.frameSeq b.lastDelivered = true) (frame : φ) (nowUs : Int) :
    Invariant (b.onKeyframeJump hdr frame nowUs).1 ∧
      ArrivedBy t (b.onKeyframeJump hdr frame nowUs).1.held.entries := by
  obtain ⟨taken, b', hresumes⟩ := resumeAt_resumes _ hdr frame nowUs
  have hevicts := dropHeld_evicts b fun e => decide (b.keyFor hdr.frameSeq < e.1)
  have hcore := h.toCore.evicts hevicts
  refine Ready.resumes (a := b.lastDelivered) ?_ ?_ rfl hresumes
  swap
  · exact fun e he => ht e (hevicts.entries.mem he)
  refine { hcore with
    base := le_of_lt (videoSeqNewer_iff.mp hnewer)
    ahead := fun e he => ?_
    loss := fun hloss => by cases hloss
    count := hevicts.entries.length_le.trans h.count
    bytes := hevicts.le.trans h.bytes }
  exact decide_eq_true_eq.mp (List.mem_filter.mp he).2

/-- The gap clock after a frame joined: it starts with the first held frame and
later frames, arriving later, do not move it. -/
theorem gap_hold {hdr : VideoFrameHeader} {nowUs : Int} (h : Invariant b)
    (ht : ArrivedBy t b.held.entries) (hle : t ≤ nowUs)
    (hfree : b.held.contains (b.keyFor hdr.frameSeq) = false) (frame : φ) :
    IsEarliest (if b.held.isEmpty then nowUs else b.gapSinceUs)
      (b.hold hdr frame nowUs).held.entries := by
  have hmem := fun e => OrderedMap.mem_emplace (v := (⟨hdr, frame, nowUs⟩ : Held φ)) hfree (e := e)
  have hnew := (hmem _).mpr (Or.inl rfl)
  split
  next hempty =>
    have hnil := OrderedMap.isEmpty_iff.mp hempty
    refine ⟨fun hnone => ?_, fun _ => ⟨_, hnew, rfl⟩, fun e he => ?_⟩
    · exact absurd hnone (List.ne_nil_of_mem hnew)
    · rcases (hmem e).mp he with rfl | he
      · exact le_rfl
      · simp [hnil] at he
  next hsome =>
    have hne : b.held.entries ≠ [] := fun hnil => hsome (OrderedMap.isEmpty_iff.mpr hnil)
    obtain ⟨e₀, he₀, hgap⟩ := h.gap.attained hne
    refine ⟨fun hnone => ?_, fun _ => ⟨e₀, (hmem e₀).mpr (Or.inr he₀), hgap⟩, fun e he => ?_⟩
    · exact absurd hnone (List.ne_nil_of_mem hnew)
    · rcases (hmem e).mp he with rfl | he
      · have := (ht e₀ he₀).2
        rw [← hgap]
        exact this.trans hle
      · exact h.gap.least e he

theorem onGapDelta_invariant {hdr : VideoFrameHeader} {nowUs : Int} (h : Invariant b)
    (ht : ArrivedBy t b.held.entries) (hnow : 0 < nowUs) (hle : t ≤ nowUs)
    (hdelta : hdr.keyframe = false)
    (hahead : 2 ≤ videoSeqDistance hdr.frameSeq b.lastDelivered) (frame : φ) :
    Invariant (b.onGapDelta hdr frame nowUs).1 ∧
      ArrivedBy nowUs (b.onGapDelta hdr frame nowUs).1.held.entries := by
  unfold onGapDelta
  dsimp only
  split
  · exact ⟨h, ht.mono hle⟩
  next hfree =>
    have hfree := Bool.eq_false_iff.mpr hfree
    have hcore := h.toCore.hold hdelta hfree (fun _ => hahead) frame nowUs
    have harrived := arrivedBy_hold ht hnow hle hfree frame
    have hgap := gap_hold h ht hle hfree frame
    generalize hheld : VideoFrameReorderBuffer.hold _ hdr frame nowUs = b₀
    have hb₀ : b₀ = { b.hold hdr frame nowUs with
        gapSinceUs := if b.held.isEmpty then nowUs else b.gapSinceUs } := by
      rw [← hheld]
      split <;> rfl
    have hcore₀ : Core b₀ := by
      rw [hb₀]
      exact { hcore with }
    have harrived₀ : ArrivedBy nowUs b₀.held.entries := by
      rw [hb₀]
      exact harrived
    have hgap₀ : IsEarliest b₀.gapSinceUs b₀.held.entries := by
      rw [hb₀]
      exact hgap
    have hrequire := requireKeyframe_recoveryOnly b₀ nowUs
    have harrived₁ : ArrivedBy nowUs (b₀.requireKeyframe nowUs).1.held.entries := by
      obtain ⟨awaiting, reported, hstate⟩ := hrequire.state
      rw [hstate]
      exact harrived₀
    split
    · exact (hcore₀.recovery hrequire).boundHeld harrived₁
    next hover =>
      have hinv₀ := hcore₀.invariant (Bool.eq_false_iff.mpr hover) hgap₀
      split
      · exact ⟨hinv₀.recovery hrequire, harrived₁⟩
      · exact ⟨hinv₀, harrived₀⟩

theorem onFrame_invariant {nowUs : Int} (h : Invariant b) (ht : ArrivedBy t b.held.entries)
    (hnow : 0 < nowUs) (hle : t ≤ nowUs) (hdr : VideoFrameHeader) (frame : φ) :
    Invariant (b.onFrame hdr frame nowUs).1 ∧
      ArrivedBy nowUs (b.onFrame hdr frame nowUs).1.held.entries := by
  unfold onFrame
  split
  · exact ⟨h, ht.mono hle⟩
  next hnotOld =>
    split
    next hhave =>
      split
      next hdelta =>
        exact onStartupDelta_invariant h (by simpa using hhave) ht hnow hle
          (by simpa using hdelta) frame
      · exact (onFirstKeyframe_invariant h ht frame nowUs).imp_right (·.mono hle)
    next hhave =>
      have hhave : b.haveLast = true := by simpa using hhave
      have hnewer : videoSeqNewer hdr.frameSeq b.lastDelivered = true := by
        simpa [hhave] using hnotOld
      split
      next hnext =>
        exact (onNextFrame_invariant h hhave ht hnext frame nowUs).imp_right (·.mono hle)
      next hgap =>
        split
        · exact (onKeyframeJump_invariant h ht hnewer frame nowUs).imp_right (·.mono hle)
        next hdelta =>
          have hone : videoSeqDistance hdr.frameSeq b.lastDelivered ≠ 1 :=
            fun heq => hgap (videoSeqDistance_eq_one_iff.mp heq)
          have hpos := videoSeqNewer_iff.mp hnewer
          exact onGapDelta_invariant h ht hnow hle (by simpa using hdelta) (by omega) frame

theorem onFrameStarted_invariant (h : Invariant b) (ht : ArrivedBy t b.held.entries)
    (hdr : VideoFrameHeader) (nowUs : Int) :
    Invariant (b.onFrameStarted hdr nowUs) ∧
      ArrivedBy t (b.onFrameStarted hdr nowUs).held.entries := by
  unfold onFrameStarted
  split
  · exact ⟨h, ht⟩
  · split
    · exact ⟨h, ht⟩
    next hnotOld =>
      split
      · refine ⟨{ h with inflight := fun hhave _ => ?_ }, ht⟩
        have hhave : b.haveLast = true := hhave
        simpa [hhave] using hnotOld
      · exact ⟨h, ht⟩

theorem noteAborted_invariant {frameSeq : BitVec 32} (h : Invariant b)
    (ht : ArrivedBy t b.held.entries)
    (hnewer : videoSeqNewer frameSeq b.lastDelivered = true) :
    Invariant (b.noteAborted frameSeq) ∧ ArrivedBy t (b.noteAborted frameSeq).held.entries := by
  unfold noteAborted
  split
  next victim hfind =>
    have hin := OrderedMap.find?_eq_some_iff.mp hfind
    have hperm := OrderedMap.entries_erase_perm hin
    have hmem : ∀ e ∈ (b.held.erase (b.keyFor frameSeq)).entries, e ∈ b.held.entries :=
      fun e he => (OrderedMap.mem_erase.mp he).1
    have hsize := entriesSize_perm hperm
    rw [entriesSize_cons] at hsize
    dsimp only at hsize
    have hbytes := h.heldBytes
    refine ⟨?_, fun e he => ht e (hmem e he)⟩
    refine { h with
      delta := fun e he => h.delta e (hmem e he)
      heldBytes := ?_
      key := fun e he => h.key e (hmem e he)
      ahead := fun hhave e he => h.ahead hhave e (hmem e he)
      count := (OrderedMap.size_filter_le _ _).trans h.count
      bytes := (Nat.sub_le _ _).trans h.bytes
      gap := earliestArrival_isEarliest fun e he => (ht e (hmem e he)).1 }
    show b.heldBytes - victim.size = entriesSize (b.held.erase (b.keyFor frameSeq)).entries
    omega
  · split
    · exact ⟨h, ht⟩
    next hfresh =>
      have hfresh : frameSeq ∉ b.aborted := by simpa using hfresh
      -- the oldest entry goes when the list is full
      generalize hkept : (if MAX_ABORTED_TRACKED ≤ b.aborted.length then b.aborted.tail
        else b.aborted) = kept
      have hsub : kept.Sublist b.aborted := by
        rw [← hkept]
        split
        · exact List.tail_sublist _
        · exact List.Sublist.refl _
      have hlength : kept.length + 1 ≤ MAX_ABORTED_TRACKED := by
        have hbound := h.abortedBound
        rw [← hkept]
        split
        · rw [List.length_tail]
          simp only [MAX_ABORTED_TRACKED] at *
          omega
        · omega
      refine ⟨{ h with abortedNewer := ?_, abortedBound := ?_, abortedNodup := ?_ }, ht⟩
      · intro hhave seq hseq
        rcases List.mem_append.mp hseq with hseq | hseq
        · exact h.abortedNewer hhave seq (hsub.mem hseq)
        · rw [List.mem_singleton.mp hseq]
          exact hnewer
      · simpa using hlength
      · refine (h.abortedNodup.sublist hsub).append (List.nodup_singleton _) ?_
        simpa using fun hin => hfresh (hsub.mem hin)

theorem onFrameAborted_invariant (h : Invariant b) (ht : ArrivedBy t b.held.entries)
    (frameSeq : BitVec 32) (nowUs : Int) :
    Invariant (b.onFrameAborted frameSeq nowUs).1 ∧
      ArrivedBy t (b.onFrameAborted frameSeq nowUs).1.held.entries := by
  unfold onFrameAborted
  dsimp only
  generalize hb₀ : (if (b.inflightKey && decide (frameSeq = b.inflightKeySeq)) = true then
    { b with inflightKey := false } else b) = b₀
  have hinv : Invariant b₀ ∧ ArrivedBy t b₀.held.entries := by
    rw [← hb₀]
    split
    · exact ⟨{ h with inflight := fun _ hkey => by cases hkey }, ht⟩
    · exact ⟨h, ht⟩
  have hrequire := recovery_invariant hinv (requireKeyframe_recoveryOnly b₀ nowUs)
  have hreport := recovery_invariant hinv (reportLoss_recoveryOnly b₀)
  split
  · exact hinv
  · split
    · split
      · have hmore := recovery_invariant hrequire (reportLoss_recoveryOnly _)
        exact hmore
      · exact hrequire
    · split
      · exact hinv
      next hnewer =>
        have hnewer : videoSeqNewer frameSeq b₀.lastDelivered = true := by simpa using hnewer
        split
        · obtain ⟨_, _, hstate⟩ := (reportLoss_recoveryOnly b₀).state
          refine noteAborted_invariant hreport.1 hreport.2 ?_
          rw [hstate]
          exact hnewer
        · exact noteAborted_invariant hinv.1 hinv.2 hnewer

theorem poll_invariant (h : Invariant b) (ht : ArrivedBy t b.held.entries) (nowUs : Int) :
    Invariant (b.poll nowUs).1 ∧ ArrivedBy t (b.poll nowUs).1.held.entries := by
  unfold poll
  dsimp only
  split
  · have hevicts := dropHeld_evicts b fun e => decide (nowUs - e.2.arrivedUs < b.holdUs)
    have hcore := h.toCore.evicts hevicts
    have hsub : ArrivedBy t (b.dropHeld fun e =>
        decide (nowUs - e.2.arrivedUs < b.holdUs)).held.entries :=
      fun e he => ht e (hevicts.entries.mem he)
    exact ⟨{ hcore with
      count := hevicts.entries.length_le.trans h.count
      bytes := hevicts.le.trans h.bytes
      gap := earliestArrival_isEarliest fun e he => (hsub e he).1 }, hsub⟩
  · split
    · split
      · exact recovery_invariant ⟨h, ht⟩ (reportLoss_recoveryOnly b)
      · exact ⟨h, ht⟩
    · split
      · exact recovery_invariant ⟨h, ht⟩ (requireKeyframe_recoveryOnly b nowUs)
      · exact ⟨h, ht⟩

/-- Buffers that wait for their first frame satisfy the invariant. -/
theorem invariant_empty (cfg : VideoFrameReorderConfig) (rttUs : Nat) :
    Invariant ({ cfg := cfg, rttUs := rttUs } : VideoFrameReorderBuffer φ) := by
  constructor
  · constructor <;> simp
  · exact Nat.zero_le _
  · exact Nat.zero_le _
  · exact ⟨fun _ => rfl, fun h => absurd rfl h, by simp⟩

end VideoFrameReorderBuffer

/-! ### Runs -/

/-- The time a call is made at, where it takes one. -/
def ReorderOp.time? : ReorderOp φ → Option Int
  | .frameStarted _ nowUs => some nowUs
  | .frame _ _ nowUs => some nowUs
  | .frameAborted _ nowUs => some nowUs
  | .poll nowUs => some nowUs
  | .setRtt _ => none
  | .reset => none

namespace VideoFrameReorderBuffer

variable [FrameBytes φ] {b : VideoFrameReorderBuffer φ} {t : Int}

/-- One call keeps the invariant, with `t` the time of the last call so far. -/
theorem step_invariant (h : Invariant b) (ht : ArrivedBy t b.held.entries) (op : ReorderOp φ)
    (hop : ∀ nowUs, op.time? = some nowUs → 0 < nowUs ∧ t ≤ nowUs) :
    Invariant (b.step op).1 ∧ ArrivedBy (op.time?.getD t) (b.step op).1.held.entries := by
  cases op with
  | frameStarted hdr nowUs =>
      obtain ⟨_, hle⟩ := hop nowUs rfl
      exact (onFrameStarted_invariant h ht hdr nowUs).imp_right (·.mono hle)
  | frame hdr frame nowUs =>
      obtain ⟨hnow, hle⟩ := hop nowUs rfl
      exact onFrame_invariant h ht hnow hle hdr frame
  | frameAborted frameSeq nowUs =>
      obtain ⟨_, hle⟩ := hop nowUs rfl
      exact (onFrameAborted_invariant h ht frameSeq nowUs).imp_right (·.mono hle)
  | poll nowUs =>
      obtain ⟨_, hle⟩ := hop nowUs rfl
      exact (poll_invariant h ht nowUs).imp_right (·.mono hle)
  | setRtt rttUs => exact ⟨{ h with }, ht⟩
  | reset => exact ⟨invariant_empty b.cfg b.rttUs, by simp [step, reset, ArrivedBy]⟩

/-- The calls are made at positive times that never go back. -/
def TimesAdvance (ops : List (ReorderOp φ)) : Prop :=
  (∀ nowUs ∈ ops.filterMap ReorderOp.time?, 0 < nowUs) ∧
    (ops.filterMap ReorderOp.time?).Pairwise (· ≤ ·)

theorem run_invariant_from (h : Invariant b) (ht : ArrivedBy t b.held.entries)
    {ops : List (ReorderOp φ)} (hfrom : ∀ nowUs ∈ ops.filterMap ReorderOp.time?, t ≤ nowUs)
    (htimes : TimesAdvance ops) : Invariant (b.run ops).1 := by
  obtain ⟨hpos, hsorted⟩ := htimes
  induction ops generalizing b t with
  | nil => exact h
  | cons op ops ih =>
      rw [run_cons]
      cases htime : op.time? with
      | none =>
          rw [List.filterMap_cons_none htime] at hfrom hpos hsorted
          obtain ⟨hinv, harrived⟩ := step_invariant h ht op fun nowUs hnow => by
            rw [htime] at hnow
            cases hnow
          rw [htime] at harrived
          exact ih hinv harrived hfrom hpos hsorted
      | some nowUs =>
          rw [List.filterMap_cons_some htime] at hfrom hpos hsorted
          obtain ⟨hinv, harrived⟩ := step_invariant h ht op fun now hnow => by
            obtain rfl : nowUs = now := Option.some.inj (htime.symm.trans hnow)
            exact ⟨hpos nowUs (by simp), hfrom nowUs (by simp)⟩
          rw [htime] at harrived
          exact ih hinv harrived (fun now hnow => List.rel_of_pairwise_cons hsorted hnow)
            (fun now hnow => hpos now (by simp [hnow])) hsorted.of_cons

/-- The representation invariant holds after every run of a new buffer. -/
theorem invariant_after_run (cfg : VideoFrameReorderConfig) (ops : List (ReorderOp φ))
    (htimes : TimesAdvance ops) : Invariant ((new cfg : VideoFrameReorderBuffer φ).run ops).1 := by
  have hempty : ArrivedBy 0 (new cfg : VideoFrameReorderBuffer φ).held.entries := by
    simp [ArrivedBy, new]
  exact run_invariant_from (invariant_empty cfg.normalized 0) hempty
    (fun nowUs hnow => le_of_lt (htimes.1 nowUs hnow)) htimes

/-- A gap behind an aborted frame, and a delta that stays held. -/
theorem invariant_after_run_gap :
    let key : VideoFrameHeader := { frameSeq := 0xFFFFFFFF, flags := 1 }
    let delta : VideoFrameHeader := { frameSeq := 1 }
    Invariant ((new {} : VideoFrameReorderBuffer Bytes).run
      [.frame key [1] 10, .frameAborted 0 20, .frame delta [2] 30, .poll 40]).1 := by
  intro key delta
  exact invariant_after_run {} _ (by simp [TimesAdvance, ReorderOp.time?])

end VideoFrameReorderBuffer

end Parties.Video

import Mathlib.Algebra.Order.BigOperators.Group.List
import Mathlib.Algebra.Order.Group.Nat
import Mathlib.Data.List.Perm.Subperm
import Parties.Video.FrameReorderInvariant

/-!
# Arrival order does not matter

A keyframe and the deltas behind it, arriving in any order and with duplicates,
are delivered once each in sending order, as long as the deltas fit the bounds
of the buffer and the half circle ahead of the keyframe. The invariant names the
frames by their position in the burst: the held entries are exactly the received
positions behind the last delivered one, under keys that differ from the
positions by a constant.
-/

namespace Parties.Video

/-- A keyframe, at position 0, and the `n` deltas that follow it. -/
structure Burst (φ : Type) where
  n : Nat
  hdr : Nat → VideoFrameHeader
  frame : Nat → φ
  frameSeq_hdr : ∀ i ≤ n, (hdr i).frameSeq = (hdr 0).frameSeq + BitVec.ofNat 32 i
  keyframe_hdr : ∀ i ≤ n, (hdr i).keyframe = decide (i = 0)

namespace Burst

variable {φ : Type}

def pair (B : Burst φ) (i : Nat) : VideoFrameHeader × φ := (B.hdr i, B.frame i)

/-- The first `k` frames in sending order. -/
def first (B : Burst φ) (k : Nat) : List (VideoFrameHeader × φ) := (List.range k).map B.pair

/-- The frames in sending order. -/
def sent (B : Burst φ) : List (VideoFrameHeader × φ) := B.first (B.n + 1)

def deltaBytes [FrameBytes φ] (B : Burst φ) : Nat :=
  ((List.range B.n).map fun i => frameSize (B.frame (i + 1))).sum

variable {B : Burst φ}

/-- Within the half circle the distance of two frames is that of their positions. -/
theorem distance_hdr (hn : B.n < 2 ^ 31) {i j : Nat} (hi : i ≤ B.n) (hj : j ≤ B.n) :
    videoSeqDistance (B.hdr i).frameSeq (B.hdr j).frameSeq = (i : Int) - j := by
  have hfrom : ∀ k ≤ B.n, videoSeqDistance (B.hdr k).frameSeq (B.hdr 0).frameSeq = (k : Int) := by
    intro k hk
    rw [B.frameSeq_hdr k hk, videoSeqDistance_eq]
    exact Serial.distance_add_ofNat _ (lt_of_le_of_lt hk hn)
  have hi' := hfrom i hi
  have hj' := hfrom j hj
  rw [videoSeqDistance_rebase (b := (B.hdr 0).frameSeq) (by omega) (by omega), hi', hj']

/-- The entries are the positions behind `m` that were received, under keys
relative to position `p`. -/
structure Keeps (B : Burst φ) (p m : Nat) (received : Nat → Prop)
    (entries : List (Int × Held φ)) : Prop where
  only : ∀ e ∈ entries, ∃ i, m < i ∧ i ≤ B.n ∧ received i ∧ e.1 = (i : Int) - p ∧
    e.2.hdr = B.hdr i ∧ e.2.frame = B.frame i
  all : ∀ i, m < i → i ≤ B.n → received i → ∃ e ∈ entries, e.1 = (i : Int) - p

variable {p m : Nat} {received : Nat → Prop}

/-- Held positions are distinct, so the whole burst bounds them. -/
theorem Keeps.bounds [FrameBytes φ] {held : OrderedMap Int (Held φ)}
    (h : B.Keeps p m received held.entries) :
    held.size ≤ B.n ∧ entriesSize held.entries ≤ B.deltaBytes := by
  let position : Int × Held φ → Nat := fun e => (e.1 + p).toNat - 1
  have hposition : ∀ e ∈ held.entries,
      position e < B.n ∧ e.1 = (position e : Int) + 1 - p ∧
        e.2.frame = B.frame (position e + 1) := by
    intro e he
    obtain ⟨i, hi, hle, _, hkey, _, hframe⟩ := h.only e he
    have hpos : position e + 1 = i := by
      show (e.1 + p).toNat - 1 + 1 = i
      omega
    rw [hpos]
    exact ⟨by omega, by omega, hframe⟩
  have hnodup : (held.entries.map position).Nodup := by
    refine List.pairwise_map.mpr (held.sorted.imp_of_mem fun {e e'} he he' hlt heq => ?_)
    have hkey := (hposition e he).2.1
    have hkey' := (hposition e' he').2.1
    omega
  have hsubset : held.entries.map position ⊆ List.range B.n := by
    intro k hk
    obtain ⟨e, he, rfl⟩ := List.mem_map.mp hk
    exact List.mem_range.mpr (hposition e he).1
  have hsubperm := List.subperm_of_subset hnodup hsubset
  constructor
  · simpa [OrderedMap.size] using hsubperm.length_le
  · obtain ⟨ks, hperm, hsub⟩ := hsubperm
    have hsize : entriesSize held.entries =
        ((held.entries.map position).map fun k => frameSize (B.frame (k + 1))).sum := by
      simp only [entriesSize, List.map_map]
      congr 1
      refine List.map_congr_left fun e he => ?_
      simp only [Held.size, Function.comp_apply, (hposition e he).2.2]
    rw [hsize, ← (hperm.map _).sum_eq]
    exact (hsub.map _).sum_le_sum fun _ _ => Nat.zero_le _

theorem Keeps.of_nil {q : Nat} (h : B.Keeps p m received []) : B.Keeps q m received [] := by
  refine ⟨by simp, fun i hi hle hreceived => ?_⟩
  obtain ⟨e, he, _⟩ := h.all i hi hle hreceived
  cases he

/-- Only the received positions behind `m` matter. -/
theorem Keeps.congr {received' : Nat → Prop} {entries : List (Int × Held φ)}
    (h : B.Keeps p m received entries)
    (hiff : ∀ i, m < i → i ≤ B.n → (received i ↔ received' i)) :
    B.Keeps p m received' entries := by
  refine ⟨fun e he => ?_, fun i hi hle hreceived => h.all i hi hle ((hiff i hi hle).mpr hreceived)⟩
  obtain ⟨i, hi, hle, hreceived, hrest⟩ := h.only e he
  exact ⟨i, hi, hle, (hiff i hi hle).mp hreceived, hrest⟩

/-- A duplicate of a held position changes nothing. -/
theorem Keeps.duplicate {entries : List (Int × Held φ)} (h : B.Keeps p m received entries) {i : Nat}
    (hin : ∃ e ∈ entries, e.1 = (i : Int) - p) :
    B.Keeps p m (fun j => received j ∨ j = i) entries := by
  refine ⟨fun e he => ?_, fun j hj hle hreceived => ?_⟩
  · obtain ⟨j, hj, hle, hreceived, hrest⟩ := h.only e he
    exact ⟨j, hj, hle, Or.inl hreceived, hrest⟩
  · rcases hreceived with hreceived | rfl
    · exact h.all j hj hle hreceived
    · exact hin

/-- A new position joins the held ones. -/
theorem Keeps.insert {entries entries' : List (Int × Held φ)} (h : B.Keeps p m received entries)
    {i : Nat} (arrivedUs : Int) (hi : m < i) (hle : i ≤ B.n)
    (hmem : ∀ e, e ∈ entries' ↔
      e = ((i : Int) - p, ⟨B.hdr i, B.frame i, arrivedUs⟩) ∨ e ∈ entries) :
    B.Keeps p m (fun j => received j ∨ j = i) entries' := by
  refine ⟨fun e he => ?_, fun j hj hle' hreceived => ?_⟩
  · rcases (hmem e).mp he with rfl | he
    · exact ⟨i, hi, hle, Or.inr rfl, rfl, rfl, rfl⟩
    · obtain ⟨j, hj, hle', hreceived, hrest⟩ := h.only e he
      exact ⟨j, hj, hle', Or.inl hreceived, hrest⟩
  · rcases hreceived with hreceived | rfl
    · obtain ⟨e, he, hkey⟩ := h.all j hj hle' hreceived
      exact ⟨e, (hmem e).mpr (Or.inr he), hkey⟩
    · exact ⟨_, (hmem _).mpr (Or.inl rfl), rfl⟩

theorem Keeps.key (hn : B.n < 2 ^ 31) (hp : p ≤ B.n) {entries : List (Int × Held φ)}
    (h : B.Keeps p m received entries) :
    ∀ e ∈ entries, e.1 = videoSeqDistance e.2.hdr.frameSeq (B.hdr p).frameSeq := by
  intro e he
  obtain ⟨i, _, hle, _, hkey, hhdr, _⟩ := h.only e he
  rw [hkey, hhdr, distance_hdr hn hle hp]

/-- Rekeying moves the constant. -/
theorem Keeps.rekey (hn : B.n < 2 ^ 31) {q : Nat} (hp : p ≤ B.n) (hq : q ≤ B.n)
    {held : OrderedMap Int (Held φ)} (h : B.Keeps p m received held.entries) :
    B.Keeps q m received (rekeyHeld held (B.hdr q).frameSeq).entries := by
  have hperm := rekeyHeld_perm (h.key hn hp) (B.hdr q).frameSeq
  refine ⟨fun e he => ?_, fun i hi hle hreceived => ?_⟩
  · obtain ⟨e', he', rfl⟩ := List.mem_map.mp (hperm.mem_iff.mp he)
    obtain ⟨i, hi, hle, hreceived, _, hhdr, hframe⟩ := h.only e' he'
    refine ⟨i, hi, hle, hreceived, ?_, hhdr, hframe⟩
    rw [hhdr, distance_hdr hn hle hq]
  · obtain ⟨e, he, hkey⟩ := h.all i hi hle hreceived
    refine ⟨_, hperm.mem_iff.mpr (List.mem_map.mpr ⟨e, he, rfl⟩), ?_⟩
    obtain ⟨j, _, hle', _, hkey', hhdr, _⟩ := h.only e he
    obtain rfl : i = j := by omega
    rw [hhdr, distance_hdr hn hle hq]

theorem frameSeq_succ {i : Nat} (hi : i + 1 ≤ B.n) :
    (B.hdr (i + 1)).frameSeq = (B.hdr i).frameSeq + 1 := by
  rw [B.frameSeq_hdr (i + 1) hi, B.frameSeq_hdr i (by omega), BitVec.ofNat_add, BitVec.add_assoc]
  rfl

theorem first_succ (k : Nat) : B.first (k + 1) = B.first k ++ [B.pair k] := by
  simp [first, List.range_succ]

end Burst

namespace VideoFrameReorderBuffer

open Burst

variable {φ : Type} [FrameBytes φ] {B : Burst φ} {p m : Nat} {received : Nat → Prop}
  {b : VideoFrameReorderBuffer φ}

/-! ### Draining a burst -/

omit [FrameBytes φ] in
/-- The front entry is the next position as soon as that was received. -/
theorem front_of_received (hkeeps : B.Keeps p m received b.held.entries) (hm : m < B.n)
    (hreceived : received (m + 1)) :
    ∃ e, b.held.front? = some e ∧ e.2.hdr = B.hdr (m + 1) := by
  obtain ⟨e, he, hkey⟩ := hkeeps.all (m + 1) (by omega) hm hreceived
  obtain ⟨front, rest, hentries⟩ := List.exists_cons_of_ne_nil (List.ne_nil_of_mem he)
  refine ⟨front, by simp [OrderedMap.front?, hentries], ?_⟩
  have hle : front.1 ≤ e.1 := by
    have hsorted := b.held.sorted
    rw [hentries] at hsorted he
    rcases List.mem_cons.mp he with rfl | hmem
    · exact le_rfl
    · exact le_of_lt (List.rel_of_pairwise_cons hsorted hmem)
  obtain ⟨i, hi, _, _, hkey', hhdr, _⟩ := hkeeps.only front (by simp [hentries])
  obtain rfl : i = m + 1 := by omega
  exact hhdr

/-- The loop of `drain` delivers the received run behind the last position. -/
theorem Drains.positions {b' : VideoFrameReorderBuffer φ} {taken : List (Int × Held φ)}
    (hn : B.n < 2 ^ 31) (h : Drains b taken b') (hkeeps : B.Keeps p m received b.held.entries)
    (hlast : b.lastDelivered = (B.hdr m).frameSeq) (hm : m ≤ B.n) :
    ∃ m' ≤ B.n, b'.lastDelivered = (B.hdr m').frameSeq ∧
      B.Keeps p m' received b'.held.entries ∧ (m' < B.n → ¬ received (m' + 1)) ∧
      B.first (m + 1) ++ (taken.map fun e => (e.2.hdr, e.2.frame)) = B.first (m' + 1) := by
  induction h generalizing m with
  | @stop b hstop =>
      refine ⟨m, hm, hlast, hkeeps, fun hlt hreceived => ?_, by simp⟩
      obtain ⟨e, hfront, hhdr⟩ := front_of_received hkeeps hlt hreceived
      refine hstop e hfront ?_
      rw [hhdr, hlast, frameSeq_succ hlt]
  | @take b b' e taken hfront hnext hrest ih =>
      obtain ⟨rest, hentries⟩ := List.head?_eq_some_iff.mp hfront
      obtain ⟨i, hi, hle, hreceived, hkey, hhdr, hframe⟩ := hkeeps.only e (by simp [hentries])
      -- the successor of position `m` is position `m + 1`
      obtain rfl : i = m + 1 := by
        have hone := videoSeqDistance_eq_one_iff.mpr hnext
        rw [hlast, hhdr, distance_hdr hn hle hm] at hone
        omega
      have hkeeps' : B.Keeps p (m + 1) received (b.takeFront e).held.entries := by
        have hsorted := b.held.sorted
        rw [hentries] at hsorted
        have htail : (b.takeFront e).held.entries = rest := by simp [takeFront, hentries]
        rw [htail]
        refine ⟨fun e' he' => ?_, fun j hj hle' hreceived' => ?_⟩
        · obtain ⟨j, _, hrest'⟩ := hkeeps.only e' (by simp [hentries, he'])
          have hgt := List.rel_of_pairwise_cons hsorted he'
          exact ⟨j, by omega, hrest'⟩
        · obtain ⟨e', he', hkey'⟩ := hkeeps.all j (by omega) hle' hreceived'
          rw [hentries] at he'
          rcases List.mem_cons.mp he' with rfl | he'
          · omega
          · exact ⟨e', he', hkey'⟩
      obtain ⟨m', hm', hlast', hkeeps'', hstop, hsent⟩ :=
        ih hkeeps' (by simp only [takeFront]; rw [hhdr]) hle
      refine ⟨m', hm', hlast', hkeeps'', hstop, ?_⟩
      rw [← hsent, first_succ (m + 1)]
      simp [pair, hhdr, hframe]

/-! ### The buffer during a burst -/

/-- The burst fits the buffer, whose bytes are accounted for, and nothing was
aborted. -/
structure Fits (B : Burst φ) (b : VideoFrameReorderBuffer φ) : Prop where
  count : B.n ≤ b.cfg.maxHeldFrames
  bytes : B.deltaBytes ≤ b.cfg.maxBytes
  heldBytes : b.heldBytes = entriesSize b.held.entries
  aborted : b.aborted = []

/-- Before the keyframe: the received deltas wait, under keys relative to one of
them. -/
structure Waiting (B : Burst φ) (received : Nat → Prop) (p : Nat)
    (b : VideoFrameReorderBuffer φ) : Prop where
  haveLast : b.haveLast = false
  base : b.held.entries ≠ [] → b.lastDelivered = (B.hdr p).frameSeq
  le : p ≤ B.n
  keeps : B.Keeps p 0 received b.held.entries
  keyframe : ¬ received 0

/-- After the keyframe: everything up to position `m` is delivered, the next
position is missing and the ones behind it wait. -/
structure Delivering (B : Burst φ) (received : Nat → Prop) (m : Nat)
    (b : VideoFrameReorderBuffer φ) : Prop where
  haveLast : b.haveLast = true
  last : b.lastDelivered = (B.hdr m).frameSeq
  le : m ≤ B.n
  keeps : B.Keeps m m received b.held.entries
  missing : m < B.n → ¬ received (m + 1)

/-- What the buffer has done with the received positions so far. -/
structure Progress (B : Burst φ) (received : Nat → Prop) (b : VideoFrameReorderBuffer φ)
    (delivered : List (VideoFrameHeader × φ)) : Prop where
  fits : Fits B b
  stage : (∃ p, Waiting B received p b ∧ delivered = []) ∨
    ∃ m, Delivering B received m b ∧ delivered = B.first (m + 1)

/-- Held positions never exceed the bounds. -/
theorem Fits.overBounds (h : Fits B b) (hkeeps : B.Keeps p m received b.held.entries) :
    b.overBounds = false := by
  obtain ⟨hcount, hbytes⟩ := hkeeps.bounds
  refine overBounds_eq_false.mpr ⟨hcount.trans h.count, ?_⟩
  rw [h.heldBytes]
  exact hbytes.trans h.bytes

theorem Fits.nextIsAborted (h : Fits B b) : b.nextIsAborted = false := by
  simp [VideoFrameReorderBuffer.nextIsAborted, h.aborted]

theorem Fits.hold (h : Fits B b) {hdr : VideoFrameHeader} (frame : φ) (nowUs : Int)
    (hfree : b.held.contains (b.keyFor hdr.frameSeq) = false) :
    Fits B (b.hold hdr frame nowUs) := by
  refine { h with heldBytes := ?_ }
  have hperm := OrderedMap.entries_emplace_perm (⟨hdr, frame, nowUs⟩ : Held φ) hfree
  have hsize : entriesSize (b.hold hdr frame nowUs).held.entries =
      frameSize frame + entriesSize b.held.entries := entriesSize_perm hperm
  show b.heldBytes + frameSize frame = _
  rw [hsize, h.heldBytes, Nat.add_comm]

/-- Changing the recovery flags is no progress and no loss. -/
theorem Progress.recovery {r : VideoFrameReorderBuffer φ × List (ReorderEvent φ)}
    {delivered : List (VideoFrameHeader × φ)} (h : Progress B received b delivered)
    (hr : RecoveryOnly b r) :
    Progress B received r.1 (delivered ++ deliveredFrames r.2) := by
  obtain ⟨awaiting, reported, hstate⟩ := hr.state
  rw [hstate, hr.delivered, List.append_nil]
  refine ⟨{ h.fits with }, ?_⟩
  rcases h.stage with ⟨p, hwaiting, hnone⟩ | ⟨m, hdelivering, hsome⟩
  · exact Or.inl ⟨p, { hwaiting with }, hnone⟩
  · exact Or.inr ⟨m, { hdelivering with }, hsome⟩

/-- Delivering position `m` resumes the run behind it. -/
theorem Resumes.positions {hdr : VideoFrameHeader} {frame : φ} {taken : List (Int × Held φ)}
    {b' : VideoFrameReorderBuffer φ} {r : VideoFrameReorderBuffer φ × List (ReorderEvent φ)}
    (hn : B.n < 2 ^ 31) (h : Resumes b hdr frame taken b' r) (hfits : Fits B b)
    (hhave : b.haveLast = true) (hlast : b.lastDelivered = (B.hdr m).frameSeq)
    (hm : m ≤ B.n) (hp : p ≤ B.n) (hkeeps : B.Keeps p m received b.held.entries)
    (hpair : (hdr, frame) = B.pair m) :
    Progress B received r.1 (B.first m ++ deliveredFrames r.2) := by
  obtain ⟨hdrains, ⟨losses, hrecovery⟩, hdelivered⟩ := h
  rw [forgetInflightThrough_eq] at hdrains
  obtain ⟨m', hm', hlast', hkeeps', hmissing, hsent⟩ := hdrains.positions hn hkeeps hlast hm
  have hframe := hdrains.frame
  have hentries := hdrains.entries
  have hbytes := hdrains.heldBytes
  have hfits' : Fits B b'.settled := by
    have hrest : b'.heldBytes = entriesSize b'.held.entries := by
      have hsplit := hfits.heldBytes
      dsimp only at hentries hbytes
      rw [hentries, entriesSize_append] at hsplit
      omega
    refine ⟨?_, ?_, ?_, ?_⟩
    · rw [hframe]
      exact hfits.count
    · rw [hframe]
      exact hfits.bytes
    · exact hrest.trans (entriesSize_rekeyHeld (hkeeps'.key hn hp)).symm
    · have haborted : b'.aborted = [] := by
        rw [hframe]
        exact hfits.aborted
      simp [settled, haborted]
  have hdelivering : Delivering B received m' b'.settled := by
    refine ⟨?_, hlast', hm', ?_, hmissing⟩
    · simp only [settled]
      rw [hframe]
      exact hhave
    · simp only [settled, hlast']
      exact hkeeps'.rekey hn hp hm'
  have hprogress : Progress B received b'.settled (B.first (m' + 1)) :=
    ⟨hfits', Or.inr ⟨m', hdelivering, rfl⟩⟩
  have hdone := hprogress.recovery hrecovery
  rw [hrecovery.delivered, List.append_nil] at hdone
  rw [hdelivered, hpair, List.append_cons, ← first_succ, hsent]
  exact hdone

/-! ### One call -/

/-- The held entries after a frame joined. -/
theorem Keeps.hold (hkeeps : B.Keeps p m received b.held.entries) {i : Nat} (hi : m < i)
    (hle : i ≤ B.n) (hkey : b.keyFor (B.hdr i).frameSeq = (i : Int) - p)
    (hfree : b.held.contains (b.keyFor (B.hdr i).frameSeq) = false) (nowUs : Int) :
    B.Keeps p m (fun j => received j ∨ j = i)
      (b.hold (B.hdr i) (B.frame i) nowUs).held.entries := by
  refine hkeeps.insert nowUs hi hle fun e => ?_
  rw [← hkey]
  exact OrderedMap.mem_emplace hfree

omit [FrameBytes φ] in
theorem held_of_contains {key : Int} (h : b.held.contains key = true) :
    ∃ e ∈ b.held.entries, e.1 = key := by
  obtain ⟨v, hin⟩ := OrderedMap.contains_iff.mp h
  exact ⟨(key, v), hin, rfl⟩

/-- A delta that arrives before the keyframe waits. -/
theorem Waiting.delta (hn : B.n < 2 ^ 31) (h : Waiting B received p b) (hfits : Fits B b) {i : Nat}
    (hi : 0 < i) (hle : i ≤ B.n) (nowUs : Int) :
    ∃ q, Waiting B (fun j => received j ∨ j = i) q
        (b.onStartupDelta (B.hdr i) (B.frame i) nowUs) ∧
      Fits B (b.onStartupDelta (B.hdr i) (B.frame i) nowUs) := by
  unfold onStartupDelta
  dsimp only
  generalize hb₀ : (if b.held.isEmpty then { b with lastDelivered := (B.hdr i).frameSeq } else b) =
    b₀
  -- the first delta becomes the base the others are keyed against
  have hbase : ∃ q, Waiting B received q b₀ ∧ b₀.lastDelivered = (B.hdr q).frameSeq ∧
      Fits B b₀ := by
    rw [← hb₀]
    split
    next hempty =>
      have hnil := OrderedMap.isEmpty_iff.mp hempty
      have hkeeps := h.keeps
      rw [hnil] at hkeeps
      refine ⟨i, { h with base := fun _ => rfl, le := hle, keeps := ?_ }, rfl, { hfits with }⟩
      show B.Keeps i 0 received b.held.entries
      rw [hnil]
      exact hkeeps.of_nil
    next hsome =>
      have hne : b.held.entries ≠ [] := fun hnil => hsome (OrderedMap.isEmpty_iff.mpr hnil)
      exact ⟨p, h, h.base hne, hfits⟩
  obtain ⟨q, hwaiting, hlast, hfits₀⟩ := hbase
  have hkey : b₀.keyFor (B.hdr i).frameSeq = (i : Int) - q := by
    rw [keyFor, hlast, distance_hdr hn hle hwaiting.le]
  refine ⟨q, ?_⟩
  split
  next hin =>
    obtain ⟨e, he, hheld⟩ := held_of_contains hin
    refine ⟨{ hwaiting with keeps := ?_, keyframe := ?_ }, hfits₀⟩
    · exact hwaiting.keeps.duplicate ⟨e, he, hheld.trans hkey⟩
    · rintro (hreceived | hzero)
      · exact hwaiting.keyframe hreceived
      · omega
  next hfree =>
    have hfree := Bool.eq_false_iff.mpr hfree
    have hkeeps := Keeps.hold hwaiting.keeps hi hle hkey hfree nowUs
    have hfits' := hfits₀.hold (B.frame i) nowUs hfree
    have hbound : (b₀.hold (B.hdr i) (B.frame i) nowUs).boundHeld =
        { b₀.hold (B.hdr i) (B.frame i) nowUs with
          gapSinceUs := earliestArrival (b₀.hold (B.hdr i) (B.frame i) nowUs).held } := by
      rw [boundHeld, boundHeldLoop_of_bounded (hfits'.overBounds hkeeps)]
    rw [hbound]
    refine ⟨⟨hwaiting.haveLast, fun _ => hlast, hwaiting.le, hkeeps, ?_⟩, { hfits' with }⟩
    rintro (hreceived | hzero)
    · exact hwaiting.keyframe hreceived
    · omega

/-- Keeping everything drops nothing. -/
theorem dropHeld_of_all {keep : Int × Held φ → Bool}
    (h : ∀ e ∈ b.held.entries, keep e = true) : b.dropHeld keep = b := by
  have hkept : b.held.filter keep = b.held := OrderedMap.ext (List.filter_eq_self.mpr h)
  have hdropped : b.held.entries.filter (fun e => !keep e) = [] := by
    rw [List.filter_eq_nil_iff]
    intro e he
    simp [h e he]
  simp [dropHeld, hkept, hdropped]

/-- The keyframe releases the run that waited behind it. -/
theorem Waiting.keyframe_arrives (hn : B.n < 2 ^ 31) (h : Waiting B received p b)
    (hfits : Fits B b) (nowUs : Int) :
    Progress B (fun j => received j ∨ j = 0) (b.onFirstKeyframe (B.hdr 0) (B.frame 0) nowUs).1
      (deliveredFrames (b.onFirstKeyframe (B.hdr 0) (B.frame 0) nowUs).2) := by
  have hdrop : b.dropHeld (fun e => videoSeqNewer e.2.hdr.frameSeq (B.hdr 0).frameSeq) = b := by
    refine dropHeld_of_all fun e he => ?_
    obtain ⟨i, hi, hle, _, _, hhdr, _⟩ := h.keeps.only e he
    rw [videoSeqNewer_iff, hhdr, distance_hdr hn hle (Nat.zero_le _)]
    omega
  have hkeeps : B.Keeps 0 0 (fun j => received j ∨ j = 0)
      (rekeyHeld b.held (B.hdr 0).frameSeq).entries := by
    refine (h.keeps.rekey hn h.le (Nat.zero_le _)).congr fun i hi _ => ⟨Or.inl, ?_⟩
    rintro (hreceived | hzero)
    · exact hreceived
    · omega
  unfold onFirstKeyframe
  rw [hdrop]
  obtain ⟨taken, b', hresumes⟩ := resumeAt_resumes { b with
    haveLast := true
    awaitingKeyframe := false
    lossReported := false
    lastDelivered := (B.hdr 0).frameSeq
    aborted := []
    held := rekeyHeld b.held (B.hdr 0).frameSeq } (B.hdr 0) (B.frame 0) nowUs
  have hdone := hresumes.positions hn ?_ rfl rfl (Nat.zero_le _) (Nat.zero_le _) hkeeps rfl
  · simpa [first] using hdone
  · refine ⟨hfits.count, hfits.bytes, ?_, rfl⟩
    exact hfits.heldBytes.trans (entriesSize_rekeyHeld (h.keeps.key hn h.le)).symm

/-- A delta past the missing position waits. -/
theorem Delivering.delta (hn : B.n < 2 ^ 31) (h : Delivering B received m b) (hfits : Fits B b)
    {i : Nat} (hi : m + 1 < i) (hle : i ≤ B.n) (nowUs : Int) :
    Delivering B (fun j => received j ∨ j = i) m
        (b.onGapDelta (B.hdr i) (B.frame i) nowUs).1 ∧
      Fits B (b.onGapDelta (B.hdr i) (B.frame i) nowUs).1 ∧
      (b.onGapDelta (B.hdr i) (B.frame i) nowUs).2 = [] := by
  have hkey : b.keyFor (B.hdr i).frameSeq = (i : Int) - m := by
    rw [keyFor, h.last, distance_hdr hn hle h.le]
  have hmissing : m < B.n → ¬ (received (m + 1) ∨ m + 1 = i) := by
    rintro hlt (hreceived | heq)
    · exact h.missing hlt hreceived
    · omega
  unfold onGapDelta
  dsimp only
  split
  next hin =>
    obtain ⟨e, he, hheld⟩ := held_of_contains hin
    exact ⟨{ h with
      keeps := h.keeps.duplicate ⟨e, he, hheld.trans hkey⟩
      missing := hmissing }, hfits, rfl⟩
  next hfree =>
    have hfree := Bool.eq_false_iff.mpr hfree
    have hkeeps := Keeps.hold h.keeps (by omega) hle hkey hfree nowUs
    have hfits' := hfits.hold (B.frame i) nowUs hfree
    generalize hheld : VideoFrameReorderBuffer.hold _ (B.hdr i) (B.frame i) nowUs = b₀
    have hb₀ : b₀ = { b.hold (B.hdr i) (B.frame i) nowUs with
        gapSinceUs := if b.held.isEmpty then nowUs else b.gapSinceUs } := by
      rw [← hheld]
      split <;> rfl
    have hkeeps₀ : B.Keeps m m (fun j => received j ∨ j = i) b₀.held.entries := by
      rw [hb₀]
      exact hkeeps
    have hfits₀ : Fits B b₀ := by
      rw [hb₀]
      exact { hfits' with }
    rw [if_neg (by simp [hfits₀.overBounds hkeeps₀]), if_neg (by simp [hfits₀.nextIsAborted])]
    refine ⟨⟨?_, ?_, h.le, hkeeps₀, hmissing⟩, hfits₀, rfl⟩
    · rw [hb₀]
      exact h.haveLast
    · rw [hb₀]
      exact h.last

/-- The missing position closes the gap, whatever was reported about it. -/
theorem Delivering.next (hn : B.n < 2 ^ 31) (h : Delivering B received m b) (hfits : Fits B b)
    (hm : m < B.n) (nowUs : Int) :
    Progress B (fun j => received j ∨ j = m + 1)
      (b.onNextFrame (B.hdr (m + 1)) (B.frame (m + 1)) nowUs).1
      (B.first (m + 1) ++
        deliveredFrames (b.onNextFrame (B.hdr (m + 1)) (B.frame (m + 1)) nowUs).2) := by
  have hkeeps : B.Keeps m (m + 1) (fun j => received j ∨ j = m + 1) b.held.entries := by
    refine ⟨fun e he => ?_, fun i hi hle hreceived => ?_⟩
    · obtain ⟨i, hi, hle, hreceived, hrest⟩ := h.keeps.only e he
      have hne : i ≠ m + 1 := by
        rintro rfl
        exact h.missing hm hreceived
      exact ⟨i, by omega, hle, Or.inl hreceived, hrest⟩
    · rcases hreceived with hreceived | heq
      · exact h.keeps.all i (by omega) hle hreceived
      · omega
  unfold onNextFrame
  obtain ⟨taken, b', hresumes⟩ := resumeAt_resumes { b with
    awaitingKeyframe := false
    lossReported := false
    lastDelivered := (B.hdr (m + 1)).frameSeq } (B.hdr (m + 1)) (B.frame (m + 1)) nowUs
  exact hresumes.positions hn { hfits with } h.haveLast rfl hm h.le hkeeps rfl

/-- A frame of the burst arrives. -/
theorem Progress.frame {delivered : List (VideoFrameHeader × φ)} (hn : B.n < 2 ^ 31)
    (h : Progress B received b delivered) {i : Nat} (hle : i ≤ B.n) (nowUs : Int) :
    Progress B (fun j => received j ∨ j = i) (b.onFrame (B.hdr i) (B.frame i) nowUs).1
      (delivered ++ deliveredFrames (b.onFrame (B.hdr i) (B.frame i) nowUs).2) := by
  have hkeyframe := B.keyframe_hdr i hle
  rcases h.stage with ⟨p, hwaiting, rfl⟩ | ⟨m, hdelivering, rfl⟩
  · unfold onFrame
    rw [if_neg (by simp [hwaiting.haveLast]), if_pos (by simp [hwaiting.haveLast])]
    rcases Nat.eq_zero_or_pos i with rfl | hi
    · rw [if_neg (by simp [hkeyframe])]
      exact hwaiting.keyframe_arrives hn h.fits nowUs
    · rw [if_pos (by simp [hkeyframe]; omega)]
      obtain ⟨q, hwaiting', hfits'⟩ := hwaiting.delta hn h.fits hi hle nowUs
      exact ⟨hfits', Or.inl ⟨q, hwaiting', rfl⟩⟩
  · have hhave := hdelivering.haveLast
    have hdist := distance_hdr hn hle hdelivering.le
    unfold onFrame
    rcases Nat.lt_or_ge m i with hi | hi
    · rw [if_neg (by
        rw [hhave, Bool.true_and, Bool.not_eq_true', Bool.not_eq_false, videoSeqNewer_iff,
          hdelivering.last, hdist]
        omega), if_neg (by simp [hhave])]
      rcases Nat.eq_or_lt_of_le hi with rfl | hi
      · have hnext : (B.hdr (m + 1)).frameSeq = b.lastDelivered + 1 := by
          rw [hdelivering.last, frameSeq_succ hle]
        rw [if_pos hnext]
        exact hdelivering.next hn h.fits hle nowUs
      · have hgap : (B.hdr i).frameSeq ≠ b.lastDelivered + 1 := by
          intro heq
          have hone := videoSeqDistance_eq_one_iff.mpr heq
          rw [hdelivering.last, hdist] at hone
          omega
        rw [if_neg hgap, if_neg (by simp [hkeyframe]; omega)]
        obtain ⟨hdelivering', hfits', hnone⟩ := hdelivering.delta hn h.fits hi hle nowUs
        rw [hnone, deliveredFrames_nil, List.append_nil]
        exact ⟨hfits', Or.inr ⟨m, hdelivering', rfl⟩⟩
    · -- a duplicate of a delivered frame
      rw [if_pos (by
        rw [hhave, Bool.true_and, Bool.not_eq_true', Bool.eq_false_iff, ne_eq, videoSeqNewer_iff,
          hdelivering.last, hdist]
        omega)]
      rw [deliveredFrames_nil, List.append_nil]
      refine ⟨h.fits, Or.inr ⟨m, { hdelivering with keeps := ?_, missing := ?_ }, rfl⟩⟩
      · refine hdelivering.keeps.congr fun j hj _ => ⟨Or.inl, ?_⟩
        rintro (hreceived | heq)
        · exact hreceived
        · omega
      · rintro hlt (hreceived | heq)
        · exact hdelivering.missing hlt hreceived
        · omega

/-! ### Runs -/

/-- The calls made while a burst arrives: its frames, in any order, and calls
that bring none. Nothing is aborted or reset. -/
def Admits (B : Burst φ) : ReorderOp φ → Prop
  | .frame hdr frame _ => ∃ i ≤ B.n, hdr = B.hdr i ∧ frame = B.frame i
  | .frameStarted _ _ => True
  | .frameAborted _ _ => False
  | .poll _ => True
  | .setRtt _ => True
  | .reset => False

/-- A poll made before the keyframe finds every delta younger than the hold. -/
def PollsInTime (b : VideoFrameReorderBuffer φ) : ReorderOp φ → Prop
  | .poll nowUs => b.haveLast = false →
      ∀ e ∈ b.held.entries, nowUs - e.2.arrivedUs < b.holdUs
  | _ => True

theorem Progress.poll {delivered : List (VideoFrameHeader × φ)}
    (h : Progress B received b delivered) {nowUs : Int}
    (hpoll : PollsInTime b (.poll nowUs)) :
    Progress B received (b.poll nowUs).1 (delivered ++ deliveredFrames (b.poll nowUs).2) := by
  unfold VideoFrameReorderBuffer.poll
  dsimp only
  split
  next hhave =>
    have hhave : b.haveLast = false := by simpa using hhave
    rw [dropHeld_of_all fun e he => decide_eq_true (hpoll hhave e he), deliveredFrames_nil,
      List.append_nil]
    refine ⟨{ h.fits with }, ?_⟩
    rcases h.stage with ⟨p, hwaiting, hnone⟩ | ⟨m, hdelivering, hsome⟩
    · exact Or.inl ⟨p, { hwaiting with }, hnone⟩
    · exact Or.inr ⟨m, { hdelivering with }, hsome⟩
  · split
    · split
      · exact h.recovery (reportLoss_recoveryOnly b)
      · exact h.recovery (.refl b)
    · split
      · exact h.recovery (requireKeyframe_recoveryOnly b nowUs)
      · exact h.recovery (.refl b)

theorem Progress.frameStarted {delivered : List (VideoFrameHeader × φ)}
    (h : Progress B received b delivered) (hdr : VideoFrameHeader) (nowUs : Int) :
    Progress B received (b.onFrameStarted hdr nowUs) delivered := by
  unfold onFrameStarted
  split
  · exact h
  · split
    · exact h
    · split
      · refine ⟨{ h.fits with }, ?_⟩
        rcases h.stage with ⟨p, hwaiting, hnone⟩ | ⟨m, hdelivering, hsome⟩
        · exact Or.inl ⟨p, { hwaiting with }, hnone⟩
        · exact Or.inr ⟨m, { hdelivering with }, hsome⟩
      · exact h

/-- One call makes progress: what it brings counts as received. -/
theorem Progress.step {delivered : List (VideoFrameHeader × φ)} (hn : B.n < 2 ^ 31)
    (h : Progress B received b delivered) {op : ReorderOp φ} (hop : Admits B op)
    (hpoll : PollsInTime b op) :
    ∃ received', Progress B received' (b.step op).1
        (delivered ++ deliveredFrames (b.step op).2) ∧
      (∀ i, received i → received' i) ∧
      ∀ i ≤ B.n, ∀ nowUs, op = .frame (B.hdr i) (B.frame i) nowUs → received' i := by
  cases op with
  | frameStarted hdr nowUs =>
      refine ⟨received, ?_, fun _ hi => hi, fun _ _ _ heq => by cases heq⟩
      simpa [VideoFrameReorderBuffer.step] using h.frameStarted hdr nowUs
  | frame hdr frame nowUs =>
      obtain ⟨i, hle, rfl, rfl⟩ := hop
      refine ⟨fun j => received j ∨ j = i, h.frame hn hle nowUs, fun _ => Or.inl,
        fun j hj now heq => Or.inr ?_⟩
      injection heq with hhdr
      have hdist := distance_hdr hn hle hj
      rw [hhdr, videoSeqDistance_self] at hdist
      omega
  | frameAborted frameSeq nowUs => exact hop.elim
  | poll nowUs =>
      exact ⟨received, h.poll hpoll, fun _ hi => hi, fun _ _ _ heq => by cases heq⟩
  | setRtt rttUs =>
      refine ⟨received, ⟨{ h.fits with }, ?_⟩, fun _ hi => hi, fun _ _ _ heq => by cases heq⟩
      simp only [VideoFrameReorderBuffer.step, deliveredFrames_nil, List.append_nil]
      rcases h.stage with ⟨p, hwaiting, hnone⟩ | ⟨m, hdelivering, hsome⟩
      · exact Or.inl ⟨p, { hwaiting with }, hnone⟩
      · exact Or.inr ⟨m, { hdelivering with }, hsome⟩
  | reset => exact hop.elim

theorem Progress.run {delivered : List (VideoFrameHeader × φ)} (hn : B.n < 2 ^ 31)
    (h : Progress B received b delivered) {ops : List (ReorderOp φ)}
    (hops : ∀ op ∈ ops, Admits B op)
    (hpolls : Machine.AllSteps (fun b op => (VideoFrameReorderBuffer.step b op).1)
      PollsInTime b ops) :
    ∃ received', Progress B received' (b.run ops).1
        (delivered ++ deliveredFrames (b.run ops).2) ∧
      (∀ i, received i → received' i) ∧
      ∀ i ≤ B.n, ∀ nowUs, .frame (B.hdr i) (B.frame i) nowUs ∈ ops → received' i := by
  induction ops generalizing b received delivered with
  | nil => exact ⟨received, by simpa using h, fun _ hi => hi, by simp⟩
  | cons op ops ih =>
      obtain ⟨received₁, hstep, hkept₁, hbrings⟩ := h.step hn (hops op (by simp)) hpolls.1
      obtain ⟨received₂, hrest, hkept₂, hbring⟩ :=
        ih hstep (fun op' hop' => hops op' (by simp [hop'])) hpolls.2
      rw [run_cons, deliveredFrames_append, ← List.append_assoc]
      refine ⟨received₂, hrest, fun i hi => hkept₂ i (hkept₁ i hi), fun i hle nowUs hin => ?_⟩
      rcases List.mem_cons.mp hin with heq | hin
      · exact hkept₂ i (hbrings i hle nowUs heq.symm)
      · exact hbring i hle nowUs hin

/-- With everything received, everything was delivered. -/
theorem Progress.complete {delivered : List (VideoFrameHeader × φ)}
    (h : Progress B received b delivered) (hall : ∀ i ≤ B.n, received i) :
    delivered = B.sent := by
  rcases h.stage with ⟨p, hwaiting, _⟩ | ⟨m, hdelivering, hsome⟩
  · exact absurd (hall 0 (Nat.zero_le _)) hwaiting.keyframe
  · have hle := hdelivering.le
    have hend : m = B.n := by
      by_contra hne
      exact hdelivering.missing (by omega) (hall (m + 1) (by omega))
    rw [hsome, hend]
    rfl

/-- A new buffer has received nothing of a burst that fits it. -/
theorem progress_new {cfg : VideoFrameReorderConfig}
    (hcount : B.n ≤ cfg.normalized.maxHeldFrames) (hbytes : B.deltaBytes ≤ cfg.maxBytes) :
    Progress B (fun _ => False) (new cfg : VideoFrameReorderBuffer φ) [] := by
  refine ⟨⟨hcount, hbytes, rfl, rfl⟩, Or.inl ⟨0, ⟨rfl, ?_, Nat.zero_le _, ?_, id⟩, rfl⟩⟩
  · exact fun hne => absurd rfl hne
  · exact ⟨by simp [new], fun _ _ _ hreceived => hreceived.elim⟩

/-- A complete burst that fits the buffer, arriving in any order and any number
of times, with every poll before the keyframe in time. -/
structure Arrives (B : Burst φ) (cfg : VideoFrameReorderConfig) (ops : List (ReorderOp φ)) :
    Prop where
  count : B.n ≤ cfg.normalized.maxHeldFrames
  bytes : B.deltaBytes ≤ cfg.maxBytes
  admits : ∀ op ∈ ops, Admits B op
  complete : ∀ i ≤ B.n, ∃ nowUs, .frame (B.hdr i) (B.frame i) nowUs ∈ ops
  polls : Machine.AllSteps (fun b op => (VideoFrameReorderBuffer.step b op).1) PollsInTime
    (new cfg) ops

/-- A burst shorter than the half circle is delivered once each in sending
order, however it arrives. -/
theorem delivered_eq_sent (hn : B.n < 2 ^ 31) {cfg : VideoFrameReorderConfig}
    {ops : List (ReorderOp φ)} (h : Arrives B cfg ops) :
    deliveredFrames ((new cfg : VideoFrameReorderBuffer φ).run ops).2 = B.sent := by
  obtain ⟨received, hprogress, _, hbring⟩ :=
    (progress_new h.count h.bytes).run hn h.admits h.polls
  refine hprogress.complete fun i hle => ?_
  obtain ⟨nowUs, hin⟩ := h.complete i hle
  exact hbring i hle nowUs hin

/-! ### The half circle -/

/-- Keyframe 0 and `n` empty deltas. -/
def countingBurst (n : Nat) : Burst Bytes where
  n := n
  hdr i := { frameSeq := BitVec.ofNat 32 i, flags := if i = 0 then VIDEO_FLAG_KEYFRAME else 0 }
  frame _ := []
  frameSeq_hdr i _ := (BitVec.zero_add _).symm
  keyframe_hdr i _ := by
    by_cases hi : i = 0
    · subst hi
      rfl
    · simp [VideoFrameHeader.keyframe, hi]

def countingFrame (i : Nat) : ReorderOp Bytes :=
  .frame ((countingBurst 0).hdr i) [] 1

theorem deltaBytes_countingBurst (n : Nat) : (countingBurst n).deltaBytes = 0 := by
  simp [deltaBytes, countingBurst, frameSize, FrameBytes.bytes]

/-- Three deltas that overtook their keyframe, one of them twice. -/
theorem delivered_eq_sent_reversed :
    deliveredFrames ((new {} : VideoFrameReorderBuffer Bytes).run
      ([3, 1, 3, 2, 0].map countingFrame)).2 = (countingBurst 3).sent := by
  refine delivered_eq_sent (B := countingBurst 3) (by decide) ⟨?_, ?_, ?_, ?_, ?_⟩
  · decide
  · rw [deltaBytes_countingBurst]
    exact Nat.zero_le _
  · intro op hop
    obtain ⟨i, hi, rfl⟩ := List.mem_map.mp hop
    refine ⟨i, ?_, rfl, rfl⟩
    show i ≤ 3
    simp only [List.mem_cons, List.not_mem_nil, or_false] at hi
    omega
  · intro i hle
    have hle : i ≤ 3 := hle
    refine ⟨1, List.mem_map.mpr ⟨i, ?_, rfl⟩⟩
    simp only [List.mem_cons]
    omega
  · simp [Machine.AllSteps, countingFrame, PollsInTime]

/-- The calls of the half circle: the keyframe, the number opposite to it, then
the others in order. -/
private def halfCircleCalls (n : Nat) : List (ReorderOp Bytes) :=
  countingFrame 0 :: countingFrame n :: (List.range n).map countingFrame

private theorem halfCircle_arrives (n : Nat) :
    Arrives (countingBurst n) { maxHeldFrames := n } (halfCircleCalls n) := by
  refine ⟨?_, ?_, ?_, ?_, ?_⟩
  · show n ≤ if n = 0 then 1 else n
    split <;> omega
  · rw [deltaBytes_countingBurst]
    exact Nat.zero_le _
  · intro op hop
    simp only [halfCircleCalls, List.mem_cons, List.mem_map, List.mem_range] at hop
    rcases hop with rfl | rfl | ⟨i, hi, rfl⟩
    · exact ⟨0, Nat.zero_le _, rfl, rfl⟩
    · exact ⟨n, le_rfl, rfl, rfl⟩
    · exact ⟨i, le_of_lt hi, rfl, rfl⟩
  · intro i hle
    refine ⟨1, ?_⟩
    rcases Nat.eq_or_lt_of_le hle with rfl | hlt
    · exact List.mem_cons_of_mem _ List.mem_cons_self
    · refine List.mem_cons_of_mem _ (List.mem_cons_of_mem _ ?_)
      exact List.mem_map.mpr ⟨i, List.mem_range.mpr hlt, rfl⟩
  · refine Machine.allSteps_of_forall fun b op hop => ?_
    simp only [halfCircleCalls, List.mem_cons, List.mem_map] at hop
    rcases hop with rfl | rfl | ⟨i, _, rfl⟩ <;> trivial

private theorem halfCircle_delivered (n : Nat) (hn : n = 2 ^ 31) :
    deliveredFrames ((new { maxHeldFrames := n } : VideoFrameReorderBuffer Bytes).run
      (halfCircleCalls n)).2 = (countingBurst (n - 1)).sent := by
  let B := countingBurst (n - 1)
  have hB : B.n < 2 ^ 31 := by
    show n - 1 < 2 ^ 31
    omega
  have hfresh : Progress B (fun _ => False)
      (new { maxHeldFrames := n } : VideoFrameReorderBuffer Bytes) [] := by
    refine progress_new ?_ ?_
    · show n - 1 ≤ if n = 0 then 1 else n
      split <;> omega
    · rw [deltaBytes_countingBurst]
      exact Nat.zero_le _
  have hkeyframe := hfresh.frame hB (Nat.zero_le _) 1
  have hhave : ((new { maxHeldFrames := n } : VideoFrameReorderBuffer Bytes).onFrame
      (B.hdr 0) (B.frame 0) 1).1.haveLast = true := by
    rcases hkeyframe.stage with ⟨p, hwaiting, _⟩ | ⟨m, hdelivering, _⟩
    · exact absurd (Or.inr rfl) hwaiting.keyframe
    · exact hdelivering.haveLast
  have hlast : ((new { maxHeldFrames := n } : VideoFrameReorderBuffer Bytes).onFrame
      (B.hdr 0) (B.frame 0) 1).1.lastDelivered = 0 := by
    subst hn
    decide
  rw [List.nil_append] at hkeyframe
  unfold halfCircleCalls
  rw [run_cons]
  change deliveredFrames (((new { maxHeldFrames := n } : VideoFrameReorderBuffer Bytes).onFrame
    (B.hdr 0) (B.frame 0) 1).2 ++ (((new { maxHeldFrames := n } :
      VideoFrameReorderBuffer Bytes).onFrame (B.hdr 0) (B.frame 0) 1).1.run _).2) = _
  generalize (new { maxHeldFrames := n } : VideoFrameReorderBuffer Bytes).onFrame
    (B.hdr 0) (B.frame 0) 1 = r at hkeyframe hhave hlast ⊢
  -- the opposite number is dropped as old
  have hopposite : r.1.step (countingFrame n) = (r.1, []) := by
    refine if_pos ?_
    rw [hhave, hlast, hn]
    decide
  rw [run_cons, hopposite, List.nil_append, deliveredFrames_append]
  have hadmits : ∀ op ∈ (List.range n).map countingFrame, Admits B op := by
    intro op hop
    obtain ⟨i, hi, rfl⟩ := List.mem_map.mp hop
    have hi := List.mem_range.mp hi
    exact ⟨i, (by omega : i ≤ n - 1), rfl, rfl⟩
  have hpolls : Machine.AllSteps (fun b op => (VideoFrameReorderBuffer.step b op).1)
      PollsInTime r.1 ((List.range n).map countingFrame) := by
    refine Machine.allSteps_of_forall fun b op hop => ?_
    obtain ⟨i, _, rfl⟩ := List.mem_map.mp hop
    trivial
  obtain ⟨received, hprogress, _, hbring⟩ := hkeyframe.run hB hadmits hpolls
  refine hprogress.complete fun i hle => hbring i hle 1 ?_
  have hle : i ≤ n - 1 := hle
  exact List.mem_map.mpr ⟨i, List.mem_range.mpr (by omega), rfl⟩

/-- The number half the circle ahead of the keyframe counts as old, so a burst
that reaches it loses that frame when the keyframe arrives first. And a delta
that is exactly as old as the hold is already dropped by a poll. -/
theorem not_delivered_eq_sent :
    (¬ ∀ (B : Burst Bytes) (cfg : VideoFrameReorderConfig) (ops : List (ReorderOp Bytes)),
      Arrives B cfg ops →
        deliveredFrames ((new cfg : VideoFrameReorderBuffer Bytes).run ops).2 = B.sent) ∧
    (let b : VideoFrameReorderBuffer Bytes := new {}
     deliveredFrames (b.run [countingFrame 1, .poll (1 + b.holdUs), countingFrame 0]).2 ≠
       (countingBurst 1).sent) := by
  refine ⟨fun hclaim => ?_, by decide⟩
  have hsent := hclaim _ _ _ (halfCircle_arrives (2 ^ 31))
  rw [halfCircle_delivered _ rfl] at hsent
  have hlength := congrArg List.length hsent
  simp [sent, first, countingBurst] at hlength

end VideoFrameReorderBuffer

end Parties.Video

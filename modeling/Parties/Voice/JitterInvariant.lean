import Mathlib.Data.List.InsertIdx
import Mathlib.Data.List.Perm.Subperm
import Parties.Voice.Lossless

/-!
# The invariant of the jitter buffer

Signed distances order sequence numbers only inside a window shorter than half
the circle, and the search of `push_packet` relies on that order. What keeps it
meaningful is that every queued packet lies ahead of the playout clock: a packet
behind the clock is discarded, priming and eviction move the clock no further
than the front, and an emptied stream takes a new baseline. On top of that the
clock never goes back while the stream is primed, a normal decode takes the
lowest packet, and the counter of empty slots bounds every run of concealed
ones.
-/

namespace Parties.Voice

/-! ### Distances inside the window -/

section Window

variable {n a b : BitVec 16}

theorem seqDiff_le (a b : BitVec 16) : seqDiff a b ≤ 32767 := by
  have hlt := Serial.distance_lt b a
  rw [seqDiff_eq]
  omega

/-- Ahead of a common base distances subtract. -/
theorem seqDiff_rebase (ha : 0 ≤ seqDiff n a) (hb : 0 ≤ seqDiff n b) :
    seqDiff a b = seqDiff n b - seqDiff n a := by
  have hale := seqDiff_le n a
  have hble := seqDiff_le n b
  simp only [seqDiff_eq] at ha hb hale hble ⊢
  apply Serial.distance_rebase (by decide)
  · show -2 ^ 15 ≤ _
    omega
  · show _ < (2 : Int) ^ 15
    omega

theorem seqDiff_pos_iff (ha : 0 ≤ seqDiff n a) (hb : 0 ≤ seqDiff n b) :
    0 < seqDiff a b ↔ seqDiff n a < seqDiff n b := by
  rw [seqDiff_rebase ha hb]
  omega

/-- The clock moved by one slot is one nearer. -/
theorem seqDiff_succ (h : 1 ≤ seqDiff n a) : seqDiff (n + 1) a = seqDiff n a - 1 := by
  have hone : seqDiff n (n + 1) = 1 := seqDiff_add (k := 1) (by decide)
  rw [seqDiff_rebase (n := n) (by omega) (by omega), hone]

/-- A clock set to a number ahead of it moved forward by their distance. -/
theorem eq_add_seqDiff (h : 0 ≤ seqDiff n a) : a = n + BitVec.ofNat 16 (seqDiff n a).toNat := by
  have hcast : BitVec.ofNat 16 (seqDiff n a).toNat = BitVec.ofInt 16 (seqDiff n a) := by
    rw [← BitVec.ofInt_natCast, Int.toNat_of_nonneg h]
  rw [hcast, seqDiff_eq]
  exact Serial.eq_add_distance a n

theorem seqDiff_eq_zero_iff : seqDiff n a = 0 ↔ a = n := by
  constructor
  · intro h
    have hsum := eq_add_seqDiff (n := n) (a := a) (by omega)
    rw [h] at hsum
    simpa using hsum
  · rintro rfl
    exact seqDiff_self a

end Window

/-- Every packet is ahead of the packets in front of it. -/
def Ascending (queue : List JitterPacket) : Prop :=
  queue.Pairwise fun p q => 0 < seqDiff p.seq q.seq

/-- No packet lies behind the clock. -/
def AheadOf (clock : BitVec 16) (queue : List JitterPacket) : Prop :=
  ∀ packet ∈ queue, 0 ≤ seqDiff clock packet.seq

theorem AheadOf.subset {clock : BitVec 16} {xs ys : List JitterPacket} (h : AheadOf clock ys)
    (hsub : xs ⊆ ys) : AheadOf clock xs := fun packet hpacket => h packet (hsub hpacket)

/-- A clock moved to the front of an ascending queue is behind none of it. -/
theorem Ascending.aheadOf_front {front : JitterPacket} {rest : List JitterPacket}
    (h : Ascending (front :: rest)) : AheadOf front.seq (front :: rest) := by
  intro packet hpacket
  rcases List.mem_cons.mp hpacket with rfl | hrest
  · rw [seqDiff_self]
  · exact ((List.pairwise_cons.mp h).1 packet hrest).le

/-- Consuming the front leaves a queue ahead of the next slot. -/
theorem Ascending.aheadOf_tail {front : JitterPacket} {rest : List JitterPacket}
    (h : Ascending (front :: rest)) : AheadOf (front.seq + 1) rest := by
  intro packet hpacket
  have hpos := (List.pairwise_cons.mp h).1 packet hpacket
  rw [seqDiff_succ (by omega)]
  omega

namespace UserStream

variable {s s' : UserStream} {packet : JitterPacket}

/-- The packet queue of a stream, sorted and ahead of the clock. -/
structure Jitter (s : UserStream) : Prop where
  ascending : Ascending s.packetQueue
  bounded : s.packetQueue.length ≤ MAX_JITTER_PACKETS
  ahead : AheadOf s.nextSeq s.packetQueue
  fresh : s.hasSeq = false → s.packetQueue = [] ∧ s.primed = false

theorem jitter_created : Jitter created := by
  constructor
  · exact List.Pairwise.nil
  · simp [created]
  · intro packet hpacket
    simp [created] at hpacket
  · intro _
    exact ⟨rfl, rfl⟩

/-! ### Insertion -/

/-- The search stops between the packets behind the new one and those ahead of
it, or at a duplicate. -/
theorem insertIndex_splits {queue : List JitterPacket} {clock seq : BitVec 16} {i j : Nat}
    (hasc : Ascending queue) (hahead : AheadOf clock queue) (hseq : 0 ≤ seqDiff clock seq)
    (hi : i ≤ queue.length) (hdrop : ∀ q ∈ queue.drop i, 0 < seqDiff seq q.seq)
    (h : insertIndex queue seq i i = some j) :
    j ≤ queue.length ∧ (∀ p ∈ queue.take j, 0 < seqDiff p.seq seq) ∧
      ∀ q ∈ queue.drop j, 0 < seqDiff seq q.seq := by
  induction i with
  | zero =>
      obtain rfl : 0 = j := by simpa [insertIndex] using h
      refine ⟨hi, ?_, hdrop⟩
      intro p hp
      simp at hp
  | succ i ih =>
      have hget : queue[i]? = some queue[i] := List.getElem?_eq_getElem (by omega)
      have hmem : queue[i] ∈ queue := List.getElem_mem _
      have hcons : queue.drop i = queue[i] :: queue.drop (i + 1) := List.drop_eq_getElem_cons _
      have hoffset := seqDiff_rebase (hahead _ hmem) hseq
      simp only [insertIndex, hget] at h
      split_ifs at h with hdup hpos
      · -- everything in front of a packet behind the new one is behind it too
        obtain rfl : i + 1 = j := by simpa using h
        refine ⟨hi, ?_, hdrop⟩
        intro p hp
        rw [List.take_add_one, hget, Option.toList_some, List.mem_append,
          List.mem_singleton] at hp
        rcases hp with hp | rfl
        · have hlt : 0 < seqDiff p.seq queue[i].seq := by
            have hpair : Ascending (queue.take i ++ queue.drop i) := by
              rw [List.take_append_drop]
              exact hasc
            rw [hcons] at hpair
            exact (List.pairwise_append.mp hpair).2.2 p hp _ List.mem_cons_self
          have hp' := hahead p (List.mem_of_mem_take hp)
          rw [seqDiff_pos_iff hp' (hahead _ hmem)] at hlt
          rw [seqDiff_pos_iff hp' hseq]
          omega
        · exact hpos
      · apply ih (by omega) _ h
        intro q hq
        rw [hcons] at hq
        rcases List.mem_cons.mp hq with rfl | hq
        · rw [seqDiff_rebase hseq (hahead _ hmem)]
          omega
        · exact hdrop q hq

/-- The search fails at a duplicate only. -/
theorem insertIndex_none {queue : List JitterPacket} {seq : BitVec 16} {i idx : Nat}
    (h : insertIndex queue seq i idx = none) : ∃ q ∈ queue, q.seq = seq := by
  induction i generalizing idx with
  | zero => simp [insertIndex] at h
  | succ i ih =>
      rw [insertIndex] at h
      cases hget : queue[i]? with
      | none => simp [hget] at h
      | some packet =>
          simp only [hget] at h
          split_ifs at h with hdup hpos
          · exact ⟨packet, List.mem_of_getElem? hget, (seqDiff_eq_zero_iff.mp hdup).symm⟩
          · exact ih h

theorem insertIdx_eq_take_append {queue : List JitterPacket} {j : Nat} (hj : j ≤ queue.length) :
    queue.insertIdx j packet = queue.take j ++ packet :: queue.drop j := by
  induction queue generalizing j with
  | nil =>
      obtain rfl : j = 0 := by simpa using hj
      rfl
  | cons head rest ih =>
      cases j with
      | zero => rfl
      | succ j =>
          rw [List.insertIdx_succ_cons, ih (by simpa using hj)]
          rfl

/-- A packet ahead of the clock that is not a duplicate keeps the queue sorted. -/
theorem ascending_insert {queue : List JitterPacket} {clock : BitVec 16} {j : Nat}
    (hasc : Ascending queue) (hahead : AheadOf clock queue)
    (hseq : 0 ≤ seqDiff clock packet.seq)
    (h : insertIndex queue packet.seq queue.length queue.length = some j) :
    j ≤ queue.length ∧ Ascending (queue.insertIdx j packet) := by
  obtain ⟨hj, hbefore, hbehind⟩ := insertIndex_splits hasc hahead hseq le_rfl (by simp) h
  refine ⟨hj, ?_⟩
  have hsplit : Ascending (queue.take j ++ queue.drop j) := by
    rw [List.take_append_drop]
    exact hasc
  obtain ⟨htake, hdrop, hcross⟩ := List.pairwise_append.mp hsplit
  rw [insertIdx_eq_take_append hj]
  apply List.pairwise_append.mpr
  refine ⟨htake, List.pairwise_cons.mpr ⟨hbehind, hdrop⟩, ?_⟩
  intro p hp q hq
  rcases List.mem_cons.mp hq with rfl | hq
  · exact hbefore p hp
  · exact hcross p hp q hq

/-! ### What a push does -/

/-- The baseline a packet is compared with. -/
def baseline (s : UserStream) (packet : JitterPacket) : UserStream :=
  if s.hasSeq then s else { s with nextSeq := packet.seq, hasSeq := true }

theorem Jitter.baseline (h : Jitter s) : Jitter (s.baseline packet) := by
  unfold UserStream.baseline
  split
  · exact h
  next hseq =>
    obtain ⟨hempty, _⟩ := h.fresh (by simpa using hseq)
    constructor
    · exact h.ascending
    · exact h.bounded
    · intro p hp
      simp [hempty] at hp
    · intro hfalse
      simp at hfalse

/-- The clock of a primed stream is its baseline. -/
theorem Jitter.baseline_of_primed (h : Jitter s) (hprimed : s.primed = true) :
    s.baseline packet = s := by
  unfold UserStream.baseline
  rw [if_pos]
  by_contra hseq
  obtain ⟨_, hnot⟩ := h.fresh (by simpa using hseq)
  simp [hprimed] at hnot

/-- What a push can do: discard the packet, queue it, or queue it and give up
the front of a full queue, which takes the clock of a primed stream to the new
front. -/
inductive Pushed (s : UserStream) (packet : JitterPacket) : UserStream → Prop
  | discard : Pushed s packet (s.baseline packet)
  | insert (queue : List JitterPacket) (hperm : queue.Perm (packet :: s.packetQueue))
      (hasc : Ascending queue) (hbound : queue.length ≤ MAX_JITTER_PACKETS)
      (hahead : AheadOf (s.baseline packet).nextSeq queue) :
      Pushed s packet { s.baseline packet with packetQueue := queue }
  | evict (old front : JitterPacket) (rest : List JitterPacket)
      (hperm : (old :: front :: rest).Perm (packet :: s.packetQueue))
      (hasc : Ascending (front :: rest)) (hbound : (front :: rest).length ≤ MAX_JITTER_PACKETS)
      (hahead : AheadOf (s.baseline packet).nextSeq (front :: rest))
      (clock : BitVec 16) (count : Nat)
      (hclock : s.primed = true → clock = front.seq)
      (hkept : s.primed = false → clock = (s.baseline packet).nextSeq) :
      Pushed s packet
        { s.baseline packet with
          packetQueue := front :: rest
          nextSeq := clock
          consecutiveEmpty := count }

@[simp] theorem baseline_packetQueue : (s.baseline packet).packetQueue = s.packetQueue := by
  unfold baseline
  split <;> rfl

@[simp] theorem baseline_primed : (s.baseline packet).primed = s.primed := by
  unfold baseline
  split <;> rfl

@[simp] theorem baseline_decoder : (s.baseline packet).decoder = s.decoder := by
  unfold baseline
  split <;> rfl

@[simp] theorem baseline_consecutiveEmpty :
    (s.baseline packet).consecutiveEmpty = s.consecutiveEmpty := by
  unfold baseline
  split <;> rfl

@[simp] theorem baseline_hasSeq : (s.baseline packet).hasSeq = true := by
  unfold baseline
  split
  · assumption
  · rfl

theorem evict_of_le (h : s.packetQueue.length ≤ MAX_JITTER_PACKETS) : s.evict = s :=
  if_neg (Nat.not_lt.mpr h)

/-- The front of a full queue is given up; the clock follows if it was owed. -/
theorem evict_of_full {old front : JitterPacket} {rest : List JitterPacket}
    (hqueue : s.packetQueue = old :: front :: rest)
    (hfull : MAX_JITTER_PACKETS < s.packetQueue.length) :
    s.evict =
      if s.primed = true ∧ 0 < seqDiff s.nextSeq front.seq then
        { s with packetQueue := front :: rest, nextSeq := front.seq, consecutiveEmpty := 0 }
      else { s with packetQueue := front :: rest } := by
  unfold evict
  rw [if_pos hfull]
  simp [hqueue]

theorem pushPacket_eq (s : UserStream) (packet : JitterPacket) :
    s.pushPacket packet =
      if seqDiff (s.baseline packet).nextSeq packet.seq < 0 then s.baseline packet
      else
        match insertIndex s.packetQueue packet.seq s.packetQueue.length s.packetQueue.length with
        | none => s.baseline packet
        | some idx =>
          { s.baseline packet with
            packetQueue := s.packetQueue.insertIdx idx packet }.evict := by
  rw [← @baseline_packetQueue s packet]
  rfl

theorem pushPacket_pushed (h : Jitter s) (packet : JitterPacket) :
    Pushed s packet (s.pushPacket packet) := by
  have hbase : Jitter (s.baseline packet) := h.baseline
  rw [pushPacket_eq]
  split
  · exact .discard
  next hold =>
    split
    · exact .discard
    next idx hidx =>
      have hqueued : AheadOf (s.baseline packet).nextSeq s.packetQueue := by
        rw [← @baseline_packetQueue s packet]
        exact hbase.ahead
      obtain ⟨hle, hasc⟩ := ascending_insert h.ascending hqueued (Int.not_lt.mp hold) hidx
      have hperm : (s.packetQueue.insertIdx idx packet).Perm (packet :: s.packetQueue) :=
        List.perm_insertIdx packet s.packetQueue hle
      generalize s.packetQueue.insertIdx idx packet = queue at hasc hperm ⊢
      have hahead : AheadOf (s.baseline packet).nextSeq queue := by
        intro p hp
        rcases List.mem_cons.mp (hperm.subset hp) with rfl | hp
        · exact Int.not_lt.mp hold
        · exact hqueued p hp
      have hlen : queue.length = s.packetQueue.length + 1 := by
        rw [hperm.length_eq, List.length_cons]
      have hbound := h.bounded
      rcases Nat.lt_or_ge MAX_JITTER_PACKETS queue.length with hfull | hfits
      · match queue with
        | [] => simp at hfull
        | [_] => simp [MAX_JITTER_PACKETS] at hfull
        | old :: front :: rest =>
            have hpair := List.pairwise_cons.mp hasc
            have hrest : AheadOf (s.baseline packet).nextSeq (front :: rest) :=
              hahead.subset (List.subset_cons_self _ _)
            have hfit : (front :: rest).length ≤ MAX_JITTER_PACKETS := by
              simp only [List.length_cons] at hlen ⊢
              omega
            rw [evict_of_full rfl hfull]
            split
            next howed =>
              refine .evict old front rest hperm hpair.2 hfit hrest front.seq 0 ?_ ?_
              · intro _
                rfl
              · intro hnot
                rw [baseline_primed, hnot] at howed
                simp at howed
            next hnot =>
              refine .evict old front rest hperm hpair.2 hfit hrest
                (s.baseline packet).nextSeq (s.baseline packet).consecutiveEmpty ?_ ?_
              · intro hprimed
                -- the front is not ahead of the clock, and nothing is behind it
                have hge := hrest front List.mem_cons_self
                have hzero : seqDiff (s.baseline packet).nextSeq front.seq = 0 := by
                  rw [baseline_primed] at hnot
                  have hle : ¬ 0 < seqDiff (s.baseline packet).nextSeq front.seq :=
                    fun hpos => hnot ⟨hprimed, hpos⟩
                  omega
                have hfront := eq_add_seqDiff hge
                rw [hzero] at hfront
                simpa using hfront.symm
              · intro _
                rfl
      · rw [evict_of_le hfits]
        exact .insert queue hperm hasc hfits hahead

/-- A packet that is not too old is a duplicate or takes its place in the queue,
which then gives up its front if it is over full. -/
theorem Jitter.pushPacket_cases (h : Jitter s)
    (hold : 0 ≤ seqDiff (s.baseline packet).nextSeq packet.seq) :
    (∃ q ∈ s.packetQueue, q.seq = packet.seq) ∧ s.pushPacket packet = s.baseline packet ∨
      ∃ before behind, s.packetQueue = before ++ behind ∧
        (∀ p ∈ before, 0 < seqDiff p.seq packet.seq) ∧
        (∀ q ∈ behind, 0 < seqDiff packet.seq q.seq) ∧
        s.pushPacket packet =
          { s.baseline packet with packetQueue := before ++ packet :: behind }.evict := by
  have hqueued : AheadOf (s.baseline packet).nextSeq s.packetQueue := by
    have hbase : Jitter (s.baseline packet) := h.baseline
    have hahead := hbase.ahead
    rw [baseline_packetQueue] at hahead
    exact hahead
  rw [pushPacket_eq, if_neg (Int.not_lt.mpr hold)]
  split
  next hnone =>
    exact Or.inl ⟨insertIndex_none hnone, rfl⟩
  next j hsome =>
    obtain ⟨hj, hbefore, hbehind⟩ :=
      insertIndex_splits h.ascending hqueued hold le_rfl (by simp) hsome
    refine Or.inr ⟨s.packetQueue.take j, s.packetQueue.drop j, ?_, hbefore, hbehind, ?_⟩
    · exact (List.take_append_drop j s.packetQueue).symm
    · rw [insertIdx_eq_take_append hj]

/-! ### What a slot does -/

/-- What one slot of a primed stream can do: conceal it, give up after too many
concealed ones, play the front, or recover the slot before the front from it. -/
inductive Slot (s : UserStream) : UserStream → Prop
  | conceal (hcount : s.consecutiveEmpty < PLC_MAX_FRAMES)
      (hgap : ∀ packet ∈ s.packetQueue, 2 ≤ seqDiff s.nextSeq packet.seq) :
      Slot s
        { s with
          decoder := s.decoder ++ [.plc]
          nextSeq := s.nextSeq + 1
          consecutiveEmpty := s.consecutiveEmpty + 1 }
  | giveUp (hempty : s.packetQueue = []) :
      Slot s
        { s with
          consecutiveEmpty := s.consecutiveEmpty + 1
          primed := false
          hasSeq := false }
  | play (front : JitterPacket) (rest : List JitterPacket) (hqueue : s.packetQueue = front :: rest) :
      Slot s
        { s with
          decoder := s.decoder ++ [.normal front]
          nextSeq := front.seq + 1
          packetQueue := rest
          consecutiveEmpty := 0 }
  | fec (front : JitterPacket) (rest : List JitterPacket) (hqueue : s.packetQueue = front :: rest)
      (hgap : seqDiff s.nextSeq front.seq = 1) :
      Slot s
        { s with
          decoder := s.decoder ++ [.fec front]
          nextSeq := s.nextSeq + 1
          consecutiveEmpty := 0 }

theorem underrun_slot (hempty : s.packetQueue = []) : Slot s s.underrun := by
  show Slot s (if s.consecutiveEmpty + 1 ≤ PLC_MAX_FRAMES then _ else _)
  split
  next hcount =>
    refine .conceal hcount ?_
    intro packet hpacket
    simp [hempty] at hpacket
  · exact .giveUp hempty

/-- Nothing is stale: the clock is behind no queued packet. -/
theorem playSlot_eq (hahead : AheadOf s.nextSeq s.packetQueue) {front : JitterPacket}
    {rest : List JitterPacket} (hqueue : s.packetQueue = front :: rest) :
    s.playSlot =
      if RESYNC_GAP ≤ seqDiff s.nextSeq front.seq then
        { s with nextSeq := front.seq }.playFront front
      else if seqDiff s.nextSeq front.seq = 0 then s.playFront front
      else if seqDiff s.nextSeq front.seq = 1 then
        { s with
          decoder := s.decoder ++ [.fec front]
          nextSeq := s.nextSeq + 1
          consecutiveEmpty := 0 }
      else if PLC_MAX_FRAMES < s.consecutiveEmpty + 1 then
        { s with
          consecutiveEmpty := s.consecutiveEmpty + 1
          nextSeq := front.seq }.playFront front
      else { s with consecutiveEmpty := s.consecutiveEmpty + 1 }.conceal := by
  have hkeep : (s.packetQueue.dropWhile fun packet =>
      decide (seqDiff s.nextSeq packet.seq < 0)) = s.packetQueue := by
    have hfront : ¬ seqDiff s.nextSeq front.seq < 0 := by
      apply Int.not_lt.mpr
      apply hahead front
      simp [hqueue]
    rw [hqueue, List.dropWhile_cons_of_neg (by simpa using hfront)]
  have hhead : s.packetQueue.head? = some front := by rw [hqueue, List.head?_cons]
  unfold playSlot
  rw [hkeep]
  simp only [hhead]

theorem playFront_slot {s₀ : UserStream} {front : JitterPacket} {rest : List JitterPacket}
    (hqueue : s.packetQueue = front :: rest)
    (hsame : s₀ = { s with nextSeq := s₀.nextSeq, consecutiveEmpty := s₀.consecutiveEmpty }) :
    Slot s (s₀.playFront front) := by
  have hplay : s₀.playFront front =
      { s with
        decoder := s.decoder ++ [.normal front]
        nextSeq := front.seq + 1
        packetQueue := rest
        consecutiveEmpty := 0 } := by
    rw [hsame]
    simp [playFront, hqueue]
  rw [hplay]
  exact .play front rest hqueue

theorem Jitter.playSlot_slot (h : Jitter s) (hne : s.packetQueue ≠ []) : Slot s s.playSlot := by
  obtain ⟨front, rest, hqueue⟩ := List.exists_cons_of_ne_nil hne
  rw [playSlot_eq h.ahead hqueue]
  split
  · exact playFront_slot hqueue rfl
  · split
    · exact playFront_slot hqueue rfl
    · split
      next hone =>
        exact .fec front rest hqueue hone
      · split
        · exact playFront_slot hqueue rfl
        next hzero hone hcount =>
          refine .conceal (by omega) ?_
          -- the front is at least two slots ahead, and the others lie behind it
          have hasc := h.ascending
          have hahead := h.ahead
          rw [hqueue] at hasc hahead
          have hfront := hahead front List.mem_cons_self
          intro packet hpacket
          rw [hqueue] at hpacket
          rcases List.mem_cons.mp hpacket with rfl | hrest
          · omega
          · have hpos := (List.pairwise_cons.mp hasc).1 packet hrest
            rw [seqDiff_pos_iff hfront (hahead packet hpacket)] at hpos
            omega

/-- The clock of a stream that starts playing stands at the front. -/
theorem prime_cases {s₁ : UserStream} (h : s.prime = some s₁) :
    s.primed = true ∧ s₁ = s ∨
      s.primed = false ∧ ∃ front rest, s.packetQueue = front :: rest ∧
        s₁ = { s with primed := true, nextSeq := front.seq } := by
  unfold prime at h
  split_ifs at h with hprimed hshort
  · exact Or.inl ⟨hprimed, by simpa using h.symm⟩
  · right
    refine ⟨by simpa using hprimed, ?_⟩
    cases hqueue : s.packetQueue with
    | nil => simp [hqueue, JITTER_PRE_BUFFER] at hshort
    | cons front rest =>
        refine ⟨front, rest, rfl, ?_⟩
        simpa [hqueue] using h.symm

theorem Jitter.prime {s₁ : UserStream} (h : Jitter s) (hprime : s.prime = some s₁) :
    Jitter s₁ ∧ s₁.primed = true := by
  rcases prime_cases hprime with ⟨hprimed, rfl⟩ | ⟨_, front, rest, hqueue, rfl⟩
  · exact ⟨h, hprimed⟩
  · have hasc := h.ascending
    rw [hqueue] at hasc
    refine ⟨⟨h.ascending, h.bounded, ?_, ?_⟩, rfl⟩
    · rw [show AheadOf _ _ ↔ AheadOf front.seq s.packetQueue from Iff.rfl, hqueue]
      exact hasc.aheadOf_front
    · intro hfresh
      obtain ⟨hempty, _⟩ := h.fresh hfresh
      simp [hqueue] at hempty

/-- A slot leaves the stream alone or, once it is primed, is one of `Slot`. -/
theorem decodeFrame_slot (h : Jitter s) :
    s.decodeFrame = s ∨ ∃ s₁, s.prime = some s₁ ∧ Slot s₁ s.decodeFrame := by
  unfold decodeFrame
  split
  · exact Or.inl rfl
  · split
    · exact Or.inl rfl
    next s₁ hprime =>
      refine Or.inr ⟨s₁, hprime, ?_⟩
      split
      next hempty =>
        exact underrun_slot (List.isEmpty_iff.mp hempty)
      next hne =>
        exact (h.prime hprime).1.playSlot_slot (by simpa using hne)

/-! ### The queue stays sorted and ahead of the clock -/

theorem Jitter.pushed (h : Jitter s) (hpush : Pushed s packet s') : Jitter s' := by
  cases hpush with
  | discard => exact h.baseline
  | insert queue hperm hasc hbound hahead =>
      refine ⟨hasc, hbound, hahead, ?_⟩
      intro hfresh
      simp at hfresh
  | evict old front rest hperm hasc hbound hahead clock count hclock hkept =>
      refine ⟨hasc, hbound, ?_, ?_⟩
      · cases hprimed : s.primed with
        | false =>
            rw [hkept hprimed]
            exact hahead
        | true =>
            rw [hclock hprimed]
            exact hasc.aheadOf_front
      · intro hfresh
        simp at hfresh

theorem Jitter.slot (h : Jitter s) (hslot : Slot s s') : Jitter s' := by
  cases hslot with
  | conceal hcount hgap =>
      refine ⟨h.ascending, h.bounded, ?_, h.fresh⟩
      intro packet hpacket
      have htwo := hgap packet hpacket
      rw [seqDiff_succ (by omega)]
      omega
  | giveUp hempty =>
      refine ⟨h.ascending, h.bounded, h.ahead, ?_⟩
      intro _
      exact ⟨hempty, rfl⟩
  | play front rest hqueue =>
      have hasc := h.ascending
      have hbound := h.bounded
      rw [hqueue] at hasc hbound
      refine ⟨(List.pairwise_cons.mp hasc).2, Nat.le_of_succ_le hbound, hasc.aheadOf_tail, ?_⟩
      intro hfresh
      obtain ⟨hempty, _⟩ := h.fresh hfresh
      simp [hqueue] at hempty
  | fec front rest hqueue hgap =>
      refine ⟨h.ascending, h.bounded, ?_, h.fresh⟩
      have hasc := h.ascending
      rw [hqueue] at hasc
      have hnext : s.nextSeq + 1 = front.seq := by
        have hfront := eq_add_seqDiff (n := s.nextSeq) (a := front.seq) (by omega)
        rw [hgap] at hfront
        exact hfront.symm
      show AheadOf (s.nextSeq + 1) s.packetQueue
      rw [hnext, hqueue]
      exact hasc.aheadOf_front

theorem Jitter.decodeFrame (h : Jitter s) : Jitter s.decodeFrame := by
  rcases decodeFrame_slot h with hidle | ⟨s₁, hprime, hslot⟩
  · rw [hidle]
    exact h
  · exact (h.prime hprime).1.slot hslot

/-! ### The clock and the decoder -/

/-- The clock moved forward, by at most half the circle. -/
def Forward (clock clock' : BitVec 16) : Prop :=
  ∃ k : Nat, k ≤ 2 ^ 15 ∧ clock' = clock + BitVec.ofNat 16 k

theorem Forward.refl (clock : BitVec 16) : Forward clock clock := ⟨0, by omega, by simp⟩

theorem Forward.succ (clock : BitVec 16) : Forward clock (clock + 1) := ⟨1, by omega, rfl⟩

theorem forward_of_seqDiff {clock clock' : BitVec 16} (h : 0 ≤ seqDiff clock clock') :
    Forward clock clock' := by
  have hle := seqDiff_le clock clock'
  exact ⟨(seqDiff clock clock').toNat, by omega, eq_add_seqDiff h⟩

/-- Past a number ahead of the clock. -/
theorem forward_past {clock seq : BitVec 16} (h : 0 ≤ seqDiff clock seq) :
    Forward clock (seq + 1) := by
  have hle := seqDiff_le clock seq
  refine ⟨(seqDiff clock seq).toNat + 1, by omega, ?_⟩
  rw [BitVec.ofNat_add, ← BitVec.add_assoc, ← eq_add_seqDiff h]
  rfl

/-- What a call does to the clock and the decoder: a primed clock only moves
forward, and a normal decode is of the lowest packet of the queue, which is not
behind a primed clock, and leaves the clock behind it. -/
structure PlaysInOrder (s s' : UserStream) : Prop where
  forward : s.primed = true → s'.primed = true → Forward s.nextSeq s'.nextSeq
  oneCall : s'.decoder = s.decoder ∨ ∃ call, s'.decoder = s.decoder ++ [call]
  lowest : ∀ packet, s'.decoder = s.decoder ++ [.normal packet] →
    s.packetQueue = packet :: s'.packetQueue ∧
      (∀ q ∈ s'.packetQueue, 0 < seqDiff packet.seq q.seq) ∧
      (s.primed = true → 0 ≤ seqDiff s.nextSeq packet.seq) ∧ s'.nextSeq = packet.seq + 1

/-- A call that leaves the decoder alone only has a clock to account for. -/
theorem playsInOrder_of_quiet (hdecoder : s'.decoder = s.decoder)
    (hforward : s.primed = true → s'.primed = true → Forward s.nextSeq s'.nextSeq) :
    PlaysInOrder s s' := by
  refine ⟨hforward, Or.inl hdecoder, ?_⟩
  intro packet hcall
  rw [hdecoder] at hcall
  simp at hcall

theorem Jitter.pushed_plays (h : Jitter s) (hpush : Pushed s packet s') : PlaysInOrder s s' := by
  cases hpush with
  | discard =>
      refine playsInOrder_of_quiet baseline_decoder ?_
      intro hprimed _
      rw [h.baseline_of_primed hprimed]
      exact Forward.refl _
  | insert queue hperm hasc hbound hahead =>
      refine playsInOrder_of_quiet (by exact baseline_decoder) ?_
      intro hprimed _
      show Forward s.nextSeq (s.baseline packet).nextSeq
      rw [h.baseline_of_primed hprimed]
      exact Forward.refl _
  | evict old front rest hperm hasc hbound hahead clock count hclock hkept =>
      refine playsInOrder_of_quiet (by exact baseline_decoder) ?_
      intro hprimed _
      show Forward s.nextSeq clock
      rw [h.baseline_of_primed hprimed] at hahead
      rw [hclock hprimed]
      exact forward_of_seqDiff (hahead front List.mem_cons_self)

theorem Jitter.slot_plays (h : Jitter s) (hslot : Slot s s') : PlaysInOrder s s' := by
  cases hslot with
  | conceal hcount hgap =>
      refine ⟨fun _ _ => Forward.succ _, Or.inr ⟨_, rfl⟩, ?_⟩
      intro packet hcall
      simp at hcall
  | giveUp hempty =>
      refine playsInOrder_of_quiet (by rfl) ?_
      intro _ hprimed
      simp at hprimed
  | play front rest hqueue =>
      have hasc := h.ascending
      have hahead := h.ahead
      rw [hqueue] at hasc hahead
      have hfront := hahead front List.mem_cons_self
      refine ⟨fun _ _ => forward_past hfront, Or.inr ⟨_, rfl⟩, ?_⟩
      intro packet hcall
      obtain rfl : front = packet := by simpa using hcall
      exact ⟨hqueue, (List.pairwise_cons.mp hasc).1, fun _ => hfront, rfl⟩
  | fec front rest hqueue hgap =>
      refine ⟨fun _ _ => Forward.succ _, Or.inr ⟨_, rfl⟩, ?_⟩
      intro packet hcall
      simp at hcall

theorem Jitter.decodeFrame_plays (h : Jitter s) : PlaysInOrder s s.decodeFrame := by
  rcases decodeFrame_slot h with hidle | ⟨s₁, hprime, hslot⟩
  · rw [hidle]
    exact playsInOrder_of_quiet rfl fun _ _ => Forward.refl _
  · have hplays := (h.prime hprime).1.slot_plays hslot
    rcases prime_cases hprime with ⟨_, rfl⟩ | ⟨hidle, front, rest, hqueue, rfl⟩
    · exact hplays
    · refine ⟨?_, hplays.oneCall, ?_⟩
      · intro hprimed
        simp [hidle] at hprimed
      · intro packet hcall
        obtain ⟨hfront, hlowest, _, hnext⟩ := hplays.lowest packet hcall
        refine ⟨hfront, hlowest, ?_, hnext⟩
        intro hprimed
        simp [hidle] at hprimed

/-! ### No packet is played twice -/

@[simp] theorem normals_fec (packet : JitterPacket) : normals [.fec packet] = [] := rfl

theorem pushed_subperm (hpush : Pushed s packet s') :
    (normals s'.decoder ++ s'.packetQueue).Subperm
      (normals s.decoder ++ s.packetQueue ++ [packet]) := by
  have hcons : (packet :: s.packetQueue).Perm (s.packetQueue ++ [packet]) :=
    @List.perm_append_comm _ [packet] _
  rw [List.append_assoc]
  cases hpush with
  | discard =>
      rw [baseline_decoder, baseline_packetQueue, List.subperm_append_left]
      exact (List.sublist_append_left _ _).subperm
  | insert queue hperm hasc hbound hahead =>
      show (normals (s.baseline packet).decoder ++ queue).Subperm _
      rw [baseline_decoder, List.subperm_append_left]
      exact (hperm.trans hcons).subperm
  | evict old front rest hperm hasc hbound hahead clock count hclock hkept =>
      show (normals (s.baseline packet).decoder ++ front :: rest).Subperm _
      rw [baseline_decoder, List.subperm_append_left]
      exact (List.sublist_cons_self old _).subperm.trans (hperm.trans hcons).subperm

theorem slot_subperm (hslot : Slot s s') :
    (normals s'.decoder ++ s'.packetQueue).Subperm (normals s.decoder ++ s.packetQueue) := by
  cases hslot with
  | conceal hcount hgap => simp [List.Subperm.refl]
  | giveUp hempty => exact List.Subperm.refl _
  | play front rest hqueue => simp [hqueue, List.Subperm.refl]
  | fec front rest hqueue hgap => simp [List.Subperm.refl]

theorem Jitter.decodeFrame_subperm (h : Jitter s) :
    (normals s.decodeFrame.decoder ++ s.decodeFrame.packetQueue).Subperm
      (normals s.decoder ++ s.packetQueue) := by
  rcases decodeFrame_slot h with hidle | ⟨s₁, hprime, hslot⟩
  · rw [hidle]
  · have hsub := slot_subperm hslot
    rcases prime_cases hprime with ⟨_, rfl⟩ | ⟨_, front, rest, _, rfl⟩
    · exact hsub
    · exact hsub

/-! ### Concealment is bounded -/

/-- The calls end in at most `n` concealed slots. -/
def EndsConcealed (n : Nat) (calls : List DecodeCall) : Prop :=
  ¬ List.replicate (n + 1) .plc <:+ calls

theorem EndsConcealed.mono {m n : Nat} {calls : List DecodeCall} (h : EndsConcealed m calls)
    (hle : m ≤ n) : EndsConcealed n calls := by
  intro hsuffix
  apply h
  refine List.IsSuffix.trans ?_ hsuffix
  exact List.suffix_replicate_iff.mpr ⟨by simpa using hle, by simp⟩

theorem EndsConcealed.plc {n : Nat} {calls : List DecodeCall} (h : EndsConcealed n calls) :
    EndsConcealed (n + 1) (calls ++ [.plc]) := by
  intro hsuffix
  rw [List.replicate_succ', List.suffix_concat_iff] at hsuffix
  rcases hsuffix with hnil | ⟨init, hinit, hcalls⟩
  · simp at hnil
  · apply h
    rw [(List.append_inj' hinit rfl).1]
    exact hcalls

theorem endsConcealed_zero {call : DecodeCall} {calls : List DecodeCall} (h : call ≠ .plc) :
    EndsConcealed 0 (calls ++ [call]) := by
  intro hsuffix
  rw [List.replicate_one] at hsuffix
  have hlast : DecodeCall.plc = call := by simpa using hsuffix.getLast (by simp)
  exact h hlast.symm

/-- The owed packet is queued. -/
def Due (s : UserStream) : Prop :=
  ∃ packet ∈ s.packetQueue, seqDiff s.nextSeq packet.seq = 0

/-- No run of concealed slots is too long, and on a primed stream the counter
bounds the current one unless the owed packet ends it. -/
structure Bounded (s : UserStream) : Prop where
  runs : ¬ List.replicate (PLC_MAX_FRAMES + 1) .plc <:+: s.decoder
  current : s.primed = true → Due s ∨ EndsConcealed s.consecutiveEmpty s.decoder

/-- A call extends the log within the bound if what it ends in is bounded. -/
theorem notRun_append {call : DecodeCall} {calls : List DecodeCall}
    (h : ¬ List.replicate (PLC_MAX_FRAMES + 1) .plc <:+: calls)
    (hends : EndsConcealed PLC_MAX_FRAMES (calls ++ [call])) :
    ¬ List.replicate (PLC_MAX_FRAMES + 1) .plc <:+: calls ++ [call] := by
  intro hinfix
  rcases List.infix_concat_iff.mp hinfix with hsuffix | hinfix
  · exact hends hsuffix
  · exact h hinfix

theorem bounded_created : Bounded created := by
  constructor
  · intro hinfix
    simp [created, List.replicate_succ] at hinfix
  · intro hprimed
    simp [created] at hprimed

theorem Bounded.pushed (hb : Bounded s) (h : Jitter s) (hpush : Pushed s packet s') :
    Bounded s' := by
  cases hpush with
  | discard =>
      refine ⟨by rw [baseline_decoder]; exact hb.runs, ?_⟩
      intro hprimed
      rw [baseline_primed] at hprimed
      rw [h.baseline_of_primed hprimed]
      exact hb.current hprimed
  | insert queue hperm hasc hbound hahead =>
      refine ⟨by rw [show _ = s.decoder from baseline_decoder]; exact hb.runs, ?_⟩
      intro hprimed
      have hprimed' : s.primed = true := baseline_primed.symm.trans hprimed
      rw [h.baseline_of_primed hprimed']
      rcases hb.current hprimed' with ⟨owed, hmem, howed⟩ | hends
      · exact Or.inl ⟨owed, hperm.symm.subset (List.mem_cons_of_mem _ hmem), howed⟩
      · exact Or.inr hends
  | evict old front rest hperm hasc hbound hahead clock count hclock hkept =>
      refine ⟨by rw [show _ = s.decoder from baseline_decoder]; exact hb.runs, ?_⟩
      intro hprimed
      left
      refine ⟨front, List.mem_cons_self, ?_⟩
      show seqDiff clock front.seq = 0
      rw [hclock (baseline_primed.symm.trans hprimed), seqDiff_self]

theorem Bounded.slot (hb : Bounded s) (hprimed : s.primed = true) (hslot : Slot s s') :
    Bounded s' := by
  cases hslot with
  | conceal hcount hgap =>
      have hends : EndsConcealed s.consecutiveEmpty s.decoder := by
        rcases hb.current hprimed with ⟨owed, hmem, howed⟩ | hends
        · have htwo := hgap owed hmem
          omega
        · exact hends
      exact ⟨notRun_append hb.runs (hends.plc.mono hcount), fun _ => Or.inr hends.plc⟩
  | giveUp hempty =>
      refine ⟨hb.runs, ?_⟩
      intro hnot
      simp at hnot
  | play front rest hqueue =>
      have hends : EndsConcealed 0 (s.decoder ++ [.normal front]) := endsConcealed_zero (by simp)
      exact ⟨notRun_append hb.runs (hends.mono (by omega)), fun _ => Or.inr hends⟩
  | fec front rest hqueue hgap =>
      have hends : EndsConcealed 0 (s.decoder ++ [.fec front]) := endsConcealed_zero (by simp)
      exact ⟨notRun_append hb.runs (hends.mono (by omega)), fun _ => Or.inr hends⟩

theorem Bounded.decodeFrame (hb : Bounded s) (h : Jitter s) : Bounded s.decodeFrame := by
  rcases decodeFrame_slot h with hidle | ⟨s₁, hprime, hslot⟩
  · rw [hidle]
    exact hb
  · refine Bounded.slot ?_ (h.prime hprime).2 hslot
    rcases prime_cases hprime with ⟨_, rfl⟩ | ⟨_, front, rest, hqueue, rfl⟩
    · exact hb
    · -- a stream starts at its front, so the first slot is not concealed
      refine ⟨hb.runs, fun _ => Or.inl ⟨front, ?_, seqDiff_self _⟩⟩
      show front ∈ s.packetQueue
      rw [hqueue]
      exact List.mem_cons_self

/-! ### Runs -/

inductive Call where
  | pushPacket (packet : JitterPacket)
  | decodeFrame

def step (s : UserStream) : Call → UserStream
  | .pushPacket packet => s.pushPacket packet
  | .decodeFrame => s.decodeFrame

/-- The packets pushed, one for each push. -/
def pushedPackets (calls : List Call) : List JitterPacket :=
  calls.filterMap fun
    | .pushPacket packet => some packet
    | .decodeFrame => none

theorem Jitter.step (h : Jitter s) (call : Call) : Jitter (s.step call) := by
  cases call with
  | pushPacket packet => exact h.pushed (pushPacket_pushed h packet)
  | decodeFrame => exact h.decodeFrame

theorem Jitter.step_plays (h : Jitter s) (call : Call) : PlaysInOrder s (s.step call) := by
  cases call with
  | pushPacket packet => exact h.pushed_plays (pushPacket_pushed h packet)
  | decodeFrame => exact h.decodeFrame_plays

theorem Bounded.step (hb : Bounded s) (h : Jitter s) (call : Call) : Bounded (s.step call) := by
  cases call with
  | pushPacket packet => exact hb.pushed h (pushPacket_pushed h packet)
  | decodeFrame => exact hb.decodeFrame h

/-- Over a run every packet is decoded at most once for each time it was pushed. -/
theorem Jitter.run_subperm (h : Jitter s) (calls : List Call) :
    (normals (Machine.run UserStream.step s calls).decoder ++
        (Machine.run UserStream.step s calls).packetQueue).Subperm
      (normals s.decoder ++ s.packetQueue ++ pushedPackets calls) := by
  induction calls generalizing s with
  | nil => simp [pushedPackets, List.Subperm.refl]
  | cons call calls ih =>
      have hrest := ih (h.step call)
      cases call with
      | pushPacket packet =>
          have hpush := pushed_subperm (pushPacket_pushed h packet)
          have hmore := (List.subperm_append_right (pushedPackets calls)).mpr hpush
          rw [List.append_assoc _ [packet]] at hmore
          exact hrest.trans hmore
      | decodeFrame =>
          have hslot := h.decodeFrame_subperm
          exact hrest.trans ((List.subperm_append_right (pushedPackets calls)).mpr hslot)

/-- For every run of pushes and slots: the queue is strictly ascending, bounded
and inside the window ahead of the clock; each call moves a primed clock forward
only and decodes the lowest packet or none; no packet is decoded more often than
it was pushed; and no more than `PLC_MAX_FRAMES` slots in a row are concealed. -/
theorem jitter_run (calls : List Call) :
    Ascending (Machine.run step created calls).packetQueue ∧
      (Machine.run step created calls).packetQueue.length ≤ MAX_JITTER_PACKETS ∧
      (∀ packet ∈ (Machine.run step created calls).packetQueue,
        0 ≤ seqDiff (Machine.run step created calls).nextSeq packet.seq ∧
          seqDiff (Machine.run step created calls).nextSeq packet.seq ≤ 32767) ∧
      Machine.AllSteps step (fun s call => PlaysInOrder s (s.step call)) created calls ∧
      (normals (Machine.run step created calls).decoder ++
          (Machine.run step created calls).packetQueue).Subperm (pushedPackets calls) ∧
      ¬ List.replicate (PLC_MAX_FRAMES + 1) .plc <:+:
        (Machine.run step created calls).decoder := by
  have hinv : Jitter (Machine.run step created calls) ∧
      Bounded (Machine.run step created calls) := by
    have hstep : ∀ (s : UserStream) call, Jitter s ∧ Bounded s →
        Jitter (s.step call) ∧ Bounded (s.step call) := by
      intro s call h
      exact ⟨h.1.step call, h.2.step h.1 call⟩
    exact Machine.run_preserves hstep ⟨jitter_created, bounded_created⟩ calls
  refine ⟨hinv.1.ascending, hinv.1.bounded, ?_, ?_, ?_, hinv.2.runs⟩
  · intro packet hpacket
    exact ⟨hinv.1.ahead packet hpacket, seqDiff_le _ _⟩
  · have hall : Machine.AllSteps step (fun _ _ => True) created calls :=
      Machine.allSteps_of_forall fun _ _ _ => trivial
    refine Machine.AllSteps.imp ?_ ?_ jitter_created hall
    · intro s call h _
      exact h.step call
    · intro s call h _
      exact h.step_plays call
  · simpa [created, normals] using jitter_created.run_subperm calls

end UserStream

end Parties.Voice

import Parties.Voice.StartupOrder

/-!
# Recovery of a stream

A sender that numbers its packets contiguously is played normally, one packet a
slot, once the queue holds every number from the playout clock up to the next
arrival. From a primed stream that state is near: every slot either takes an old
packet out of the queue, or brings the clock closer to the front, and after
`PLC_MAX_FRAMES` concealed slots the clock snaps. A stream that is still buffering
discards what is behind its baseline, and the numbers of the sender may have to
come round to the baseline first.
-/

namespace Parties.Voice

/-! ### Numbers in order -/

theorem seqDiff_shift (a b : BitVec 16) : seqDiff (a + 1) (b + 1) = seqDiff a b := by
  unfold seqDiff
  congr 1
  bv_omega

theorem add_ofNat_succ (a : BitVec 16) (k : Nat) :
    a + BitVec.ofNat 16 (k + 1) = a + 1 + BitVec.ofNat 16 k := by
  rw [BitVec.ofNat_add, BitVec.add_comm (BitVec.ofNat 16 k), ← BitVec.add_assoc]
  rfl

/-- The packets carry the numbers from `first` up to `next`. -/
def Spans : BitVec 16 → List JitterPacket → BitVec 16 → Prop
  | first, [], next => first = next
  | first, packet :: packets, next => packet.seq = first ∧ Spans (first + 1) packets next

theorem Spans.concat {first next : BitVec 16} {packets : List JitterPacket} {packet : JitterPacket}
    (h : Spans first packets next) (hpacket : packet.seq = next) :
    Spans first (packets ++ [packet]) (next + 1) := by
  induction packets generalizing first with
  | nil =>
      obtain rfl : first = next := h
      exact ⟨hpacket, rfl⟩
  | cons front packets ih => exact ⟨h.1, ih h.2⟩

theorem Spans.next_eq {first next : BitVec 16} {packets : List JitterPacket}
    (h : Spans first packets next) : next = first + BitVec.ofNat 16 packets.length := by
  induction packets generalizing first with
  | nil =>
      obtain rfl : first = next := h
      simp
  | cons front packets ih =>
      rw [ih h.2, List.length_cons, add_ofNat_succ]

theorem Spans.seqDiff_next {first next : BitVec 16} {packets : List JitterPacket}
    (h : Spans first packets next) (hshort : packets.length < 2 ^ 15) :
    seqDiff first next = packets.length := by
  rw [h.next_eq, seqDiff_add hshort]

/-- They are all behind the next number. -/
theorem Spans.behind_next {first next : BitVec 16} {packets : List JitterPacket}
    (h : Spans first packets next) (hshort : packets.length < 2 ^ 15) :
    ∀ p ∈ packets, 0 < seqDiff p.seq next := by
  induction packets generalizing first with
  | nil =>
      intro p hp
      cases hp
  | cons front packets ih =>
      intro p hp
      rcases List.mem_cons.mp hp with rfl | hp
      · rw [h.1, h.seqDiff_next hshort, List.length_cons]
        omega
      · exact ih h.2 ((Nat.lt_succ_self _).trans hshort) p hp

/-- The last of them comes right before the next number. -/
theorem Spans.exists_last {first next : BitVec 16} {packets : List JitterPacket}
    (h : Spans first packets next) (hne : packets ≠ []) :
    ∃ init last, packets = init ++ [last] ∧ next = last.seq + 1 := by
  induction packets generalizing first with
  | nil => exact absurd rfl hne
  | cons front packets ih =>
      by_cases hlast : packets = []
      · subst hlast
        have hnext : first + 1 = next := h.2
        exact ⟨[], front, rfl, by rw [h.1, hnext]⟩
      · obtain ⟨init, last, hsplit, hnext⟩ := ih h.2 hlast
        exact ⟨front :: init, last, by rw [hsplit, List.cons_append], hnext⟩

namespace UserStream

variable {s : UserStream} {packet : JitterPacket}

/-! ### Where a packet goes -/

/-- The queued packets behind a number. -/
def behind (s : UserStream) (seq : BitVec 16) : List JitterPacket :=
  s.packetQueue.filter fun p => decide (0 < seqDiff p.seq seq)

/-- What splits the queue at a number finds them. -/
theorem behind_of_split {seq : BitVec 16} {before rest : List JitterPacket}
    (hqueue : s.packetQueue = before ++ rest) (hbefore : ∀ p ∈ before, 0 < seqDiff p.seq seq)
    (hrest : ∀ q ∈ rest, 0 ≤ seqDiff seq q.seq) : s.behind seq = before := by
  have hkeep : before.filter (fun p => decide (0 < seqDiff p.seq seq)) = before := by
    rw [List.filter_eq_self]
    intro p hp
    simpa using hbefore p hp
  have hdrop : rest.filter (fun p => decide (0 < seqDiff p.seq seq)) = [] := by
    rw [List.filter_eq_nil_iff]
    intro q hq hpos
    exact seqDiff_asymm (by simpa using hpos) (hrest q hq)
  rw [behind, hqueue, List.filter_append, hkeep, hdrop, List.append_nil]

/-- A packet that is not too old is queued right after those behind it, unless its
number is there already. -/
theorem Jitter.pushPacket_places (h : Jitter s)
    (hold : 0 ≤ seqDiff (s.baseline packet).nextSeq packet.seq) :
    ∃ joined rest, joined.seq = packet.seq ∧
      (s.behind packet.seq).length + rest.length ≤ s.packetQueue.length ∧
      s.pushPacket packet =
        { s.baseline packet with
          packetQueue := s.behind packet.seq ++ joined :: rest }.evict := by
  rcases h.pushPacket_cases hold with
    ⟨⟨q, hq, hdup⟩, hpush⟩ | ⟨before, rest, hqueue, hbefore, hrest, hpush⟩
  · obtain ⟨before, rest, hqueue⟩ := List.append_of_mem hq
    have hasc := h.ascending
    rw [hqueue] at hasc
    obtain ⟨_, hbehind, hcross⟩ := List.pairwise_append.mp hasc
    have hsame : s.behind packet.seq = before := by
      apply behind_of_split hqueue
      · intro p hp
        rw [← hdup]
        exact hcross p hp q List.mem_cons_self
      · intro p hp
        rcases List.mem_cons.mp hp with rfl | hp
        · rw [hdup, seqDiff_self]
        · rw [← hdup]
          exact ((List.pairwise_cons.mp hbehind).1 p hp).le
    refine ⟨q, rest, hdup, ?_, ?_⟩
    · rw [hsame, hqueue]
      simp
    · have hbase :
          { s.baseline packet with packetQueue := s.packetQueue } = s.baseline packet := by
        unfold UserStream.baseline
        split <;> rfl
      rw [hsame, ← hqueue, hbase, evict_of_le h.baseline.bounded]
      exact hpush
  · have hsame : s.behind packet.seq = before :=
      behind_of_split hqueue hbefore fun q hq => (hrest q hq).le
    refine ⟨packet, rest, rfl, ?_, ?_⟩
    · rw [hsame, hqueue, List.length_append]
    · rw [hsame, hpush]

/-! ### Locked streams -/

/-- The queue holds every number from the clock up to the next arrival. -/
structure Locked (s : UserStream) (next : BitVec 16) : Prop where
  live : Live s
  primed : s.primed = true
  room : s.packetQueue.length < MAX_JITTER_PACKETS
  spans : ∃ due rest, s.packetQueue = due ++ rest ∧ Spans s.nextSeq due next

theorem Live.hasSeq_of_primed (h : Live s) (hprimed : s.primed = true) : s.hasSeq = true := by
  cases hseq : s.hasSeq with
  | true => rfl
  | false =>
      have hunprimed := (h.jitter.fresh hseq).2
      rw [hprimed] at hunprimed
      cases hunprimed

/-- The next number goes right behind those that are due. -/
theorem Locked.behind_eq {next : BitVec 16} {due rest : List JitterPacket} (h : Locked s next)
    (hqueue : s.packetQueue = due ++ rest) (hspans : Spans s.nextSeq due next) :
    0 ≤ seqDiff s.nextSeq next ∧ s.behind next = due := by
  have hroom := h.room
  rw [hqueue, List.length_append, MAX_JITTER_PACKETS] at hroom
  have hnext := hspans.seqDiff_next (by omega)
  have hahead := h.live.jitter.ahead
  have hasc := h.live.jitter.ascending
  rw [hqueue] at hahead hasc
  refine ⟨by omega, behind_of_split hqueue (hspans.behind_next (by omega)) ?_⟩
  intro q hq
  by_cases hnone : due = []
  · subst hnone
    obtain rfl : s.nextSeq = next := hspans
    exact hahead q (by simpa using hq)
  · obtain ⟨init, last, rfl, rfl⟩ := hspans.exists_last hnone
    have hpos := (List.pairwise_append.mp hasc).2.2 last (by simp) q hq
    rw [seqDiff_succ (by omega)]
    omega

/-- A slot that plays the first of the numbers up to the next arrival locks the
stream. -/
theorem Live.locked_of_play {next : BitVec 16} {front : JitterPacket}
    {later rest : List JitterPacket} (h : Live s) (hqueue : s.packetQueue = front :: (later ++ rest))
    (hspans : Spans (front.seq + 1) later next) (hclock : s.primed = true → s.nextSeq = front.seq)
    (hready : s.primed = true ∨ JITTER_PRE_BUFFER ≤ s.packetQueue.length) :
    Locked s.decodeFrame next := by
  have hplay := h.decodeFrame_owed hqueue hclock hready
  have hbound := h.jitter.bounded
  have hnext := h.decodeFrame
  rw [hplay] at hnext ⊢
  refine ⟨hnext, rfl, ?_, later, rest, rfl, hspans⟩
  simp [hqueue] at hbound ⊢
  omega

/-- One packet and one slot of a locked stream: a normal decode, and still locked. -/
theorem Locked.slot (h : Locked s packet.seq) :
    Locked (s.pushPacket packet).decodeFrame (packet.seq + 1) ∧
      ∃ front, (s.pushPacket packet).decodeFrame.decoder = s.decoder ++ [.normal front] := by
  obtain ⟨due, rest, hqueue, hspans⟩ := h.spans
  obtain ⟨hahead, hbehind⟩ := h.behind_eq hqueue hspans
  have hbase : s.baseline packet = s := baseline_of_hasSeq (h.live.hasSeq_of_primed h.primed)
  have hold : 0 ≤ seqDiff (s.baseline packet).nextSeq packet.seq := by
    rw [hbase]
    exact hahead
  obtain ⟨joined, behind, hjoined, hlength, hpush⟩ := h.live.jitter.pushPacket_places hold
  have hroom := h.room
  rw [hbase, hbehind, evict_of_le (by simp [hbehind] at hlength ⊢; omega)] at hpush
  have hlive := h.live.pushPacket packet
  rw [hpush] at hlive ⊢
  -- the clock is at the first of the numbers due, or at the packet itself
  have hdue : Spans s.nextSeq (due ++ [joined]) (packet.seq + 1) := hspans.concat hjoined
  obtain ⟨front, later, hfront⟩ := List.exists_cons_of_ne_nil (List.concat_ne_nil joined due)
  rw [hfront] at hdue
  have hfirst : due ++ joined :: behind = front :: (later ++ behind) := by
    rw [List.append_cons, hfront, List.cons_append]
  rw [hfirst] at hlive ⊢
  have hplay := hlive.decodeFrame_owed rfl (fun _ => hdue.1.symm) (Or.inl h.primed)
  refine ⟨?_, front, by rw [hplay]⟩
  refine hlive.locked_of_play rfl ?_ (fun _ => hdue.1.symm) (Or.inl h.primed)
  rw [hdue.1]
  exact hdue.2

/-! ### Settling -/

/-- Whatever the next packets carry, at most `slots` packets and slots later the
stream is locked. -/
def Settles : Nat → UserStream → BitVec 16 → Prop
  | 0, s, next => Locked s next
  | slots + 1, s, next =>
    Locked s next ∨
      ∀ data, Settles slots (s.pushPacket ⟨next, data⟩).decodeFrame (next + 1)

theorem Locked.settles {next : BitVec 16} (h : Locked s next) (slots : Nat) :
    Settles slots s next := by
  cases slots with
  | zero => exact h
  | succ slots => exact Or.inl h

theorem Settles.mono {m n : Nat} {next : BitVec 16} (h : Settles m s next) (hle : m ≤ n) :
    Settles n s next := by
  induction m generalizing n s next with
  | zero => exact Locked.settles h n
  | succ m ih =>
      obtain ⟨n, rfl⟩ : ∃ k, n = k + 1 := ⟨n - 1, by omega⟩
      rcases h with hlocked | hnext
      · exact hlocked.settles _
      · exact Or.inr fun data => ih (hnext data) (by omega)

theorem settles_of_next {slots : Nat} {next : BitVec 16}
    (h : ∀ data, Settles slots (s.pushPacket ⟨next, data⟩).decodeFrame (next + 1)) :
    Settles (slots + 1) s next := Or.inr h

/-! ### Streams that start afresh -/

/-- The stream buffers the first packets from its baseline on. -/
structure Starting (s : UserStream) (next : BitVec 16) : Prop where
  live : Live s
  unprimed : s.primed = false
  based : s.hasSeq = true
  few : s.packetQueue.length < JITTER_PRE_BUFFER
  spans : Spans s.nextSeq s.packetQueue next

/-- A further packet goes to the end of the queue. -/
theorem Starting.pushPacket (h : Starting s packet.seq) :
    ∃ joined, joined.seq = packet.seq ∧
      s.pushPacket packet = { s with packetQueue := s.packetQueue ++ [joined] } := by
  have hfew := h.few
  rw [JITTER_PRE_BUFFER] at hfew
  have hbase : s.baseline packet = s := baseline_of_hasSeq h.based
  have hnext := h.spans.seqDiff_next (by omega)
  have hbehind : s.behind packet.seq = s.packetQueue := by
    apply behind_of_split (List.append_nil _).symm
    · exact h.spans.behind_next (by omega)
    · intro q hq
      cases hq
  have hold : 0 ≤ seqDiff (s.baseline packet).nextSeq packet.seq := by
    rw [hbase]
    omega
  obtain ⟨joined, rest, hjoined, hlength, hpush⟩ := h.live.jitter.pushPacket_places hold
  rw [hbehind] at hlength hpush
  obtain rfl : rest = [] := List.eq_nil_of_length_eq_zero (by omega)
  rw [hbase, evict_of_le (by simp [MAX_JITTER_PACKETS]; omega)] at hpush
  exact ⟨joined, hjoined, hpush⟩

/-- A stream that starts afresh is locked with its first slot. -/
theorem Starting.settles {next : BitVec 16} (h : Starting s next) :
    Settles (JITTER_PRE_BUFFER - s.packetQueue.length) s next := by
  generalize hmissing : JITTER_PRE_BUFFER - s.packetQueue.length = missing
  have hfew := h.few
  induction missing generalizing s next with
  | zero => omega
  | succ missing ih =>
      apply settles_of_next
      intro data
      have hstarting : Starting s (JitterPacket.mk next data).seq := h
      obtain ⟨joined, hjoined, hpush⟩ := hstarting.pushPacket
      have hlive := h.live.pushPacket ⟨next, data⟩
      have hspans := h.spans.concat hjoined
      rw [hpush] at hlive ⊢
      rcases Nat.lt_or_ge (s.packetQueue ++ [joined]).length JITTER_PRE_BUFFER with hless | hfull
      · have hwaiting := decodeFrame_waiting
          (s := { s with packetQueue := s.packetQueue ++ [joined] }) h.unprimed hless
        rw [hwaiting]
        refine ih ⟨hlive, h.unprimed, h.based, hless, hspans⟩ ?_ hless
        simp
        omega
      · apply Locked.settles
        obtain ⟨front, later, hfront⟩ :=
          List.exists_cons_of_ne_nil (List.concat_ne_nil joined s.packetQueue)
        rw [hfront] at hspans hlive hfull ⊢
        have hqueue : front :: later = front :: (later ++ []) := by rw [List.append_nil]
        refine hlive.locked_of_play hqueue ?_ ?_ (Or.inr hfull)
        · rw [hspans.1]
          exact hspans.2
        · intro hprimed
          simp [h.unprimed] at hprimed

/-- Without a baseline the next packet sets it. -/
theorem Live.settles_of_fresh {next : BitVec 16} (h : Live s) (hseq : s.hasSeq = false) :
    Settles JITTER_PRE_BUFFER s next := by
  obtain ⟨hempty, hprimed⟩ := h.jitter.fresh hseq
  have hbase (data : Bytes) :
      s.baseline ⟨next, data⟩ = { s with nextSeq := next, hasSeq := true } :=
    if_neg (by simp [hseq])
  generalize hs₀ : { s with nextSeq := next, hasSeq := true } = s₀ at hbase
  have hstart : Starting s₀ next := by
    have hjitter : Jitter s₀ := by
      rw [← hbase []]
      exact h.jitter.baseline
    subst hs₀
    refine ⟨⟨hjitter, h.initialized⟩, hprimed, rfl, by simp [hempty, JITTER_PRE_BUFFER], ?_⟩
    show Spans next s.packetQueue next
    rw [hempty]
    exact rfl
  have hqueue : s₀.packetQueue = [] := by
    rw [← hs₀]
    exact hempty
  have hsettles := hstart.settles
  rw [hqueue] at hsettles
  rcases hsettles with hlocked | hnext
  · have hunprimed := hstart.unprimed
    rw [hlocked.primed] at hunprimed
    cases hunprimed
  · show Settles (3 + 1) s next
    apply settles_of_next
    intro data
    have hsame : s.pushPacket ⟨next, data⟩ = s₀.pushPacket ⟨next, data⟩ := by
      rw [pushPacket_eq, pushPacket_eq s₀, hbase, baseline_of_hasSeq hstart.based, hempty, hqueue]
    rw [hsame]
    exact hnext data

/-! ### Primed streams -/

/-- How many slots may pass before a packet is played, or the stream gives up. -/
def wait (s : UserStream) : Nat :=
  if s.packetQueue.head?.map JitterPacket.seq = some s.nextSeq then 0
  else 1 + (PLC_MAX_FRAMES - s.consecutiveEmpty)

theorem wait_le (s : UserStream) : s.wait ≤ 1 + PLC_MAX_FRAMES := by
  unfold wait
  split
  · omega
  · omega

theorem wait_eq_zero {front : JitterPacket} {rest : List JitterPacket}
    (hqueue : s.packetQueue = front :: rest) (hclock : s.nextSeq = front.seq) : s.wait = 0 := by
  simp [wait, hqueue, hclock]

/-- A clock that is at no queued packet has to wait. -/
theorem wait_eq (hgap : ∀ p ∈ s.packetQueue, seqDiff s.nextSeq p.seq ≠ 0) :
    s.wait = 1 + (PLC_MAX_FRAMES - s.consecutiveEmpty) := by
  unfold wait
  rw [if_neg]
  intro hhead
  obtain ⟨front, hfront, hclock⟩ := Option.map_eq_some_iff.mp hhead
  apply hgap front (List.mem_of_mem_head? hfront)
  rw [hclock, seqDiff_self]

/-- A primed stream: packets of the past, then numbers of the sender up to its next
one, then the rest. Before the sender is heard everything is of the past. -/
structure Lined (old fresh rest : List JitterPacket) (s : UserStream) (next : BitVec 16) :
    Prop where
  live : Live s
  primed : s.primed = true
  queue : s.packetQueue = old ++ (fresh ++ rest)
  spans : ∃ first, Spans first fresh next
  unheard : fresh = [] → rest = []

/-- Each packet of the past costs no more slots than the longest wait and its own. -/
def cost (s : UserStream) (old : List JitterPacket) : Nat :=
  (PLC_MAX_FRAMES + 2) * old.length + s.wait

theorem cost_lt_of_played {s' : UserStream} {front : JitterPacket} {old : List JitterPacket} :
    s'.cost old < s.cost (front :: old) := by
  have hwait := s'.wait_le
  simp only [cost, List.length_cons, Nat.mul_succ]
  omega

theorem Live.slot_of_primed (h : Live s) (hprimed : s.primed = true) : Slot s s.decodeFrame := by
  have hprime : s.prime = some s := if_pos hprimed
  unfold UserStream.decodeFrame
  rw [if_neg (by simp [h.initialized]), hprime]
  dsimp only
  split
  next hempty =>
    exact underrun_slot (List.isEmpty_iff.mp hempty)
  next hne =>
    exact h.jitter.playSlot_slot (by simpa using hne)

/-- The next number stays ahead of a clock that moves with it. -/
theorem Lined.ahead_succ {old fresh rest : List JitterPacket} {next : BitVec 16}
    (h : Lined old fresh rest s next) (hfresh : fresh ≠ []) :
    0 ≤ seqDiff (s.nextSeq + 1) next := by
  obtain ⟨first, hspans⟩ := h.spans
  obtain ⟨init, last, rfl, rfl⟩ := hspans.exists_last hfresh
  rw [seqDiff_shift]
  apply h.live.jitter.ahead last
  simp [h.queue]

/-- One slot of a primed stream locks it, gives up, or costs something. -/
theorem Lined.slot {old fresh rest : List JitterPacket} {next : BitVec 16}
    (h : Lined old fresh rest s next) :
    Locked s.decodeFrame next ∨ s.decodeFrame.hasSeq = false ∧ 0 < s.wait ∨
      ∃ old' fresh' rest', Lined old' fresh' rest' s.decodeFrame next ∧
        (fresh' ≠ [] → 0 ≤ seqDiff s.decodeFrame.nextSeq next) ∧
        s.decodeFrame.cost old' < s.cost old := by
  have hslot := h.live.slot_of_primed h.primed
  have hlive := h.live.decodeFrame
  generalize s.decodeFrame = s' at hslot hlive ⊢
  cases hslot with
  | conceal hcount hgap =>
      have hwait := wait_eq (s := s) fun p hp => by
        have htwo := hgap p hp
        omega
      refine Or.inr (Or.inr ⟨old, fresh, rest, ?_, h.ahead_succ, ?_⟩)
      · exact ⟨hlive, h.primed, h.queue, h.spans, h.unheard⟩
      · apply Nat.add_lt_add_left
        rw [hwait]
        refine lt_of_le_of_lt (b := 1 + (PLC_MAX_FRAMES - (s.consecutiveEmpty + 1))) ?_ (by omega)
        unfold wait
        split
        · omega
        · exact le_rfl
  | giveUp hempty =>
      refine Or.inr (Or.inl ⟨rfl, ?_⟩)
      rw [wait_eq]
      · omega
      · intro p hp
        simp [hempty] at hp
  | play front later hqueue =>
      have hsplit := h.queue
      rw [hqueue] at hsplit
      cases old with
      | nil =>
          -- what is played belongs to the sender, so its later numbers follow
          left
          obtain ⟨first, hspans⟩ := h.spans
          cases fresh with
          | nil => simp [h.unheard rfl] at hsplit
          | cons front' fresh =>
              obtain ⟨rfl, rfl⟩ := List.cons_eq_cons.mp hsplit
              have hbound := h.live.jitter.bounded
              rw [hqueue, List.length_cons] at hbound
              refine ⟨hlive, h.primed, hbound, fresh, rest, rfl, ?_⟩
              show Spans (front.seq + 1) fresh next
              rw [hspans.1]
              exact hspans.2
      | cons front' old =>
          obtain ⟨rfl, rfl⟩ := List.cons_eq_cons.mp hsplit
          refine Or.inr (Or.inr ⟨old, fresh, rest, ?_, ?_, ?_⟩)
          · exact ⟨hlive, h.primed, rfl, h.spans, h.unheard⟩
          · intro hfresh
            obtain ⟨first, hspans⟩ := h.spans
            obtain ⟨init, last, rfl, rfl⟩ := hspans.exists_last hfresh
            show 0 ≤ seqDiff (front.seq + 1) (last.seq + 1)
            rw [seqDiff_shift]
            have hasc := h.live.jitter.ascending
            rw [hqueue] at hasc
            exact ((List.pairwise_cons.mp hasc).1 last (by simp)).le
          · exact cost_lt_of_played
  | fec front later hqueue hgap =>
      have hwait : 0 < s.wait := by
        unfold wait
        rw [if_neg]
        · omega
        · intro hhead
          have hclock : front.seq = s.nextSeq := by simpa [hqueue] using hhead
          rw [hclock, seqDiff_self] at hgap
          omega
      refine Or.inr (Or.inr ⟨old, fresh, rest, ?_, h.ahead_succ, ?_⟩)
      · exact ⟨hlive, h.primed, h.queue, h.spans, h.unheard⟩
      · apply Nat.add_lt_add_left
        refine lt_of_eq_of_lt (wait_eq_zero hqueue ?_) hwait
        have hnext := eq_add_seqDiff (n := s.nextSeq) (a := front.seq) (by omega)
        rw [hgap] at hnext
        exact hnext.symm

/-- The clock of a primed stream is taken to the front that an eviction leaves. -/
theorem evict_front {first : JitterPacket} {kept : List JitterPacket} (hprimed : s.primed = true)
    (hqueue : s.packetQueue = first :: kept) (hfull : MAX_JITTER_PACKETS < s.packetQueue.length)
    (hlive : Live s.evict) :
    s.evict.primed = true ∧ s.evict.packetQueue = kept ∧ s.evict.wait = 0 := by
  cases kept with
  | nil => simp [hqueue, MAX_JITTER_PACKETS] at hfull
  | cons front rest =>
      have hevict := evict_of_full hqueue hfull
      split at hevict
      · rw [hevict]
        exact ⟨hprimed, rfl, wait_eq_zero rfl rfl⟩
      next hnot =>
        rw [hevict] at hlive ⊢
        refine ⟨hprimed, rfl, wait_eq_zero rfl ?_⟩
        have hahead : 0 ≤ seqDiff s.nextSeq front.seq :=
          hlive.jitter.ahead front List.mem_cons_self
        have hle : ¬ 0 < seqDiff s.nextSeq front.seq := fun hpos => hnot ⟨hprimed, hpos⟩
        have hzero : seqDiff s.nextSeq front.seq = 0 := by omega
        exact (seqDiff_eq_zero_iff.mp hzero).symm

/-- Queueing a packet does not lengthen the wait. -/
theorem Live.wait_joined {joined : JitterPacket} {rest : List JitterPacket} (h : Live s)
    (hahead : 0 ≤ seqDiff s.nextSeq joined.seq) :
    wait { s with packetQueue := s.behind joined.seq ++ joined :: rest } ≤ s.wait := by
  by_cases hclock : s.packetQueue.head?.map JitterPacket.seq = some s.nextSeq
  · -- a front that is owed stays in front
    obtain ⟨front, hfront, hseq⟩ := Option.map_eq_some_iff.mp hclock
    obtain ⟨later, hqueue⟩ := List.head?_eq_some_iff.mp hfront
    have hzero : wait { s with packetQueue := s.behind joined.seq ++ joined :: rest } = 0 := by
      by_cases hpos : 0 < seqDiff front.seq joined.seq
      · have hbehind : s.behind joined.seq =
            front :: later.filter fun p => decide (0 < seqDiff p.seq joined.seq) := by
          rw [behind, hqueue, List.filter_cons_of_pos (by simpa using hpos)]
        apply wait_eq_zero
        · show s.behind joined.seq ++ joined :: rest = front :: _
          rw [hbehind, List.cons_append]
        · exact hseq.symm
      · have hsame : joined.seq = s.nextSeq := by
          rw [hseq] at hpos
          exact seqDiff_eq_zero_iff.mp (by omega)
        have hbehind : s.behind joined.seq = [] := by
          rw [behind, List.filter_eq_nil_iff]
          intro p hp hpos'
          rw [hsame] at hpos'
          exact seqDiff_asymm (by simpa using hpos') (h.jitter.ahead p hp)
        apply wait_eq_zero
        · show s.behind joined.seq ++ joined :: rest = joined :: rest
          rw [hbehind, List.nil_append]
        · exact hsame.symm
    rw [hzero]
    exact Nat.zero_le _
  · have hwait : s.wait = 1 + (PLC_MAX_FRAMES - s.consecutiveEmpty) := if_neg hclock
    rw [hwait]
    unfold wait
    split
    · omega
    · exact le_rfl

/-- The packets behind the next number are those of the past and the sender's. -/
theorem Lined.behind_eq {old fresh rest : List JitterPacket} {next : BitVec 16}
    (h : Lined old fresh rest s next) (hahead : 0 ≤ seqDiff s.nextSeq next) :
    ∃ old', s.behind next = old' ++ fresh ∧ old'.length ≤ old.length := by
  by_cases hfresh : fresh = []
  · have hqueue := h.queue
    rw [hfresh, h.unheard hfresh, List.append_nil, List.append_nil] at hqueue
    refine ⟨s.behind next, by rw [hfresh, List.append_nil], ?_⟩
    rw [behind, hqueue]
    exact List.length_filter_le _ _
  · refine ⟨old, ?_, le_rfl⟩
    obtain ⟨first, hspans⟩ := h.spans
    have hbound := h.live.jitter.bounded
    have hqueued := h.live.jitter.ahead
    have hasc := h.live.jitter.ascending
    rw [h.queue] at hbound hqueued hasc
    rw [MAX_JITTER_PACKETS, List.length_append, List.length_append] at hbound
    have hbehind := hspans.behind_next (by omega)
    obtain ⟨init, last, rfl, rfl⟩ := hspans.exists_last hfresh
    have hlast : last ∈ init ++ [last] := by simp
    have hqueue : s.packetQueue = old ++ (init ++ [last]) ++ rest := by
      rw [h.queue, List.append_assoc old]
    apply behind_of_split hqueue
    · intro p hp
      rcases List.mem_append.mp hp with hp | hp
      · -- of the past: behind the last number of the sender
        have hpast := (List.pairwise_append.mp hasc).2.2 p hp last (by simp)
        have hp' : 0 ≤ seqDiff s.nextSeq p.seq := hqueued p (by simp [hp])
        have hlast' : 0 ≤ seqDiff s.nextSeq last.seq := hqueued last (by simp)
        have hone := hbehind last hlast
        rw [seqDiff_pos_iff hp' hlast'] at hpast
        rw [seqDiff_pos_iff hlast' hahead] at hone
        rw [seqDiff_pos_iff hp' hahead]
        omega
      · exact hbehind p hp
    · intro q hq
      have hpair := (List.pairwise_append.mp hasc).2.1
      have hpos := (List.pairwise_append.mp hpair).2.2 last hlast q hq
      rw [seqDiff_succ (by omega)]
      omega

/-- An eviction takes the first packet of the past; without any it takes the first of
the sender, and if that is the one that just arrived, everything else is of the past. -/
theorem Lined.evicted {old fresh rest : List JitterPacket} {joined : JitterPacket}
    {next : BitVec 16} (hlive : Live s.evict) (hprimed : s.primed = true)
    (hqueue : s.packetQueue = old ++ ((fresh ++ [joined]) ++ rest))
    (hfull : MAX_JITTER_PACKETS < s.packetQueue.length)
    (hspans : ∃ first, Spans first (fresh ++ [joined]) next) :
    ∃ old' fresh' rest', Lined old' fresh' rest' s.evict next ∧ s.evict.wait = 0 ∧
      (old'.length ≤ old.length ∨ fresh = [] ∧ old'.length ≤ rest.length) := by
  cases old with
  | cons first old =>
      obtain ⟨hprimed', hkept, hwait⟩ := evict_front hprimed hqueue hfull hlive
      refine ⟨old, fresh ++ [joined], rest, ⟨hlive, hprimed', hkept, hspans, ?_⟩, hwait, ?_⟩
      · intro hnone
        simp at hnone
      · exact Or.inl (Nat.le_succ _)
  | nil =>
      cases fresh with
      | cons first fresh =>
          obtain ⟨hprimed', hkept, hwait⟩ := evict_front hprimed hqueue hfull hlive
          obtain ⟨number, hnumber⟩ := hspans
          refine ⟨[], fresh ++ [joined], rest,
            ⟨hlive, hprimed', hkept, ⟨number + 1, hnumber.2⟩, ?_⟩, hwait, Or.inl le_rfl⟩
          intro hnone
          simp at hnone
      | nil =>
          obtain ⟨hprimed', hkept, hwait⟩ := evict_front hprimed hqueue hfull hlive
          refine ⟨rest, [], [], ⟨hlive, hprimed', ?_, ⟨next, rfl⟩, fun _ => rfl⟩, hwait,
            Or.inr ⟨rfl, le_rfl⟩⟩
          rw [hkept, List.append_nil, List.append_nil]
          rfl

/-- Queueing a packet of the sender costs nothing. -/
theorem Lined.pushPacket {old fresh rest : List JitterPacket}
    (h : Lined old fresh rest s packet.seq)
    (hnear : fresh ≠ [] → 0 ≤ seqDiff s.nextSeq packet.seq) :
    ∃ old' fresh' rest', Lined old' fresh' rest' (s.pushPacket packet) (packet.seq + 1) ∧
      (s.pushPacket packet).cost old' ≤ s.cost old := by
  have hbase : s.baseline packet = s := baseline_of_hasSeq (h.live.hasSeq_of_primed h.primed)
  have hlive := h.live.pushPacket packet
  by_cases hahead : 0 ≤ seqDiff s.nextSeq packet.seq
  · have hold : 0 ≤ seqDiff (s.baseline packet).nextSeq packet.seq := by
      rw [hbase]
      exact hahead
    obtain ⟨joined, behind, hjoined, hlength, hpush⟩ := h.live.jitter.pushPacket_places hold
    obtain ⟨old', hbehind, hfewer⟩ := h.behind_eq hahead
    obtain ⟨first, hspans⟩ := h.spans
    have hmore : Spans first (fresh ++ [joined]) (packet.seq + 1) := hspans.concat hjoined
    have hqueue : s.behind packet.seq ++ joined :: behind =
        old' ++ ((fresh ++ [joined]) ++ behind) := by
      rw [hbehind]
      simp
    rw [hbase] at hpush
    rcases Nat.lt_or_ge MAX_JITTER_PACKETS (s.behind packet.seq ++ joined :: behind).length with
      hfull | hfits
    · rw [hpush] at hlive ⊢
      obtain ⟨old'', fresh', rest', hlined, hwait, hcount⟩ :=
        Lined.evicted hlive h.primed hqueue hfull ⟨first, hmore⟩
      refine ⟨old'', fresh', rest', hlined, ?_⟩
      have hle : old''.length ≤ old.length := by
        rcases hcount with hcount | ⟨hfresh, hcount⟩
        · exact hcount.trans hfewer
        · have hall := congrArg List.length h.queue
          rw [hfresh, h.unheard hfresh] at hall
          simp at hall
          omega
      rw [cost, hwait, Nat.add_zero]
      exact (Nat.mul_le_mul_left _ hle).trans (Nat.le_add_right _ _)
    · rw [evict_of_le hfits] at hpush
      have hwait :
          wait { s with packetQueue := s.behind packet.seq ++ joined :: behind } ≤ s.wait := by
        rw [← hjoined] at hahead ⊢
        exact h.live.wait_joined hahead
      rw [hpush] at hlive ⊢
      refine ⟨old', fresh ++ [joined], behind,
        ⟨hlive, h.primed, hqueue, ⟨first, hmore⟩, ?_⟩, ?_⟩
      · intro hnone
        simp at hnone
      · exact Nat.add_le_add (Nat.mul_le_mul_left _ hfewer) hwait
  · -- too old: nothing of the sender was heard yet, and nothing is now
    have hfresh : fresh = [] := by
      by_contra hne
      exact hahead (hnear hne)
    have hpush : s.pushPacket packet = s := by
      rw [pushPacket_eq, hbase, if_pos (Int.not_le.mp hahead)]
    rw [hpush]
    refine ⟨old, [], [], ⟨h.live, h.primed, ?_, ⟨_, rfl⟩, fun _ => rfl⟩, le_rfl⟩
    rw [h.queue, hfresh, h.unheard hfresh]

/-- A primed stream settles within its cost, and the start that follows if it gives
up. -/
theorem Lined.settles {old fresh rest : List JitterPacket} {next : BitVec 16}
    (h : Lined old fresh rest s next) (hnear : fresh ≠ [] → 0 ≤ seqDiff s.nextSeq next) :
    Settles (s.cost old + JITTER_PRE_BUFFER) s next := by
  generalize hcost : s.cost old = bound
  induction bound using Nat.strong_induction_on generalizing s next old fresh rest with
  | _ bound ih =>
      show Settles (bound + 3 + 1) s next
      apply settles_of_next
      intro data
      have hlined : Lined old fresh rest s (JitterPacket.mk next data).seq := h
      obtain ⟨old₁, fresh₁, rest₁, hpushed, hle⟩ := hlined.pushPacket hnear
      have hlive := hpushed.live.decodeFrame
      rcases hpushed.slot with
        hlocked | ⟨hfresh, hwait⟩ | ⟨old₂, fresh₂, rest₂, hslot, hahead, hlt⟩
      · exact hlocked.settles _
      · apply (hlive.settles_of_fresh hfresh).mono
        rw [cost] at hle
        rw [JITTER_PRE_BUFFER]
        omega
      · apply (ih _ (by omega) hslot hahead rfl).mono
        rw [JITTER_PRE_BUFFER]
        omega

/-- What a primed stream takes at most. -/
def primedSlots : Nat :=
  (PLC_MAX_FRAMES + 2) * MAX_JITTER_PACKETS + (1 + PLC_MAX_FRAMES) + JITTER_PRE_BUFFER

theorem Live.settles_of_primed (h : Live s) (hprimed : s.primed = true) (next : BitVec 16) :
    Settles primedSlots s next := by
  have hlined : Lined s.packetQueue [] [] s next := by
    refine ⟨h, hprimed, ?_, ⟨next, rfl⟩, fun _ => rfl⟩
    rw [List.append_nil, List.append_nil]
  apply (hlined.settles fun hne => absurd rfl hne).mono
  have hqueue := Nat.mul_le_mul_left (PLC_MAX_FRAMES + 2) h.jitter.bounded
  have hwait := s.wait_le
  simp only [cost, primedSlots]
  omega

/-! ### Buffering streams -/

theorem evict_unprimed (hprimed : s.primed = false) :
    s.evict.nextSeq = s.nextSeq ∧ s.evict.hasSeq = s.hasSeq ∧ s.evict.primed = false := by
  unfold evict
  split
  · dsimp only
    split
    · exact ⟨rfl, rfl, hprimed⟩
    · rw [if_neg (by simp [hprimed])]
      exact ⟨rfl, rfl, hprimed⟩
  · exact ⟨rfl, rfl, hprimed⟩

/-- A push leaves the baseline of a stream that is not primed alone. -/
theorem pushPacket_unprimed (packet : JitterPacket) (hseq : s.hasSeq = true)
    (hprimed : s.primed = false) :
    (s.pushPacket packet).nextSeq = s.nextSeq ∧ (s.pushPacket packet).hasSeq = true ∧
      (s.pushPacket packet).primed = false := by
  rw [pushPacket_eq, baseline_of_hasSeq hseq]
  split
  · exact ⟨rfl, hseq, hprimed⟩
  · split
    · exact ⟨rfl, hseq, hprimed⟩
    next idx _ =>
      have hevict := evict_unprimed
        (s := { s with packetQueue := s.packetQueue.insertIdx idx packet }) hprimed
      exact ⟨hevict.1, hevict.2.1.trans hseq, hevict.2.2⟩

/-- A slot primes the stream once enough is queued, and does nothing before. -/
theorem Live.decodeFrame_unprimed (h : Live s) (hprimed : s.primed = false) :
    s.decodeFrame.primed = true ∨
      s.decodeFrame = s ∧ s.packetQueue.length < JITTER_PRE_BUFFER := by
  rcases Nat.lt_or_ge s.packetQueue.length JITTER_PRE_BUFFER with hfew | henough
  · exact Or.inr ⟨decodeFrame_waiting hprimed hfew, hfew⟩
  · left
    obtain ⟨front, rest, hqueue⟩ : ∃ front rest, s.packetQueue = front :: rest := by
      apply List.exists_cons_of_length_pos
      rw [JITTER_PRE_BUFFER] at henough
      omega
    rw [h.decodeFrame_owed hqueue (by simp [hprimed]) (Or.inr henough)]

theorem seqDiff_next {n a : BitVec 16} (h : 0 ≤ seqDiff n a) (hroom : seqDiff n a < 32767) :
    seqDiff n (a + 1) = seqDiff n a + 1 := by
  have hnext : a + 1 = n + BitVec.ofNat 16 ((seqDiff n a).toNat + 1) := by
    rw [BitVec.ofNat_add, ← BitVec.add_assoc, ← eq_add_seqDiff h]
    rfl
  rw [hnext, seqDiff_add (by omega)]
  omega

/-- No more than one packet is evicted. -/
theorem length_le_evict (s : UserStream) :
    s.packetQueue.length ≤ s.evict.packetQueue.length + 1 := by
  unfold evict
  split
  · dsimp only
    have htail : s.packetQueue.length ≤ s.packetQueue.tail.length + 1 := by
      rw [List.length_tail]
      omega
    split
    · exact htail
    · split
      · exact htail
      · exact htail
  · omega

/-- Of packets ahead of the baseline one more is behind the next number each time. -/
theorem Live.behind_grows (h : Live s) (packet : JitterPacket) (hseq : s.hasSeq = true)
    (hahead : 0 ≤ seqDiff s.nextSeq packet.seq) (hroom : seqDiff s.nextSeq packet.seq < 32767)
    (hfew : (s.pushPacket packet).packetQueue.length < JITTER_PRE_BUFFER) :
    (s.behind packet.seq).length < ((s.pushPacket packet).behind (packet.seq + 1)).length := by
  have hbase : s.baseline packet = s := baseline_of_hasSeq hseq
  have hold : 0 ≤ seqDiff (s.baseline packet).nextSeq packet.seq := by
    rw [hbase]
    exact hahead
  obtain ⟨joined, rest, hjoined, hlength, hpush⟩ := h.jitter.pushPacket_places hold
  have hqueue := length_le_evict
    { s.baseline packet with packetQueue := s.behind packet.seq ++ joined :: rest }
  rw [← hpush] at hqueue
  have hfits : (s.behind packet.seq ++ joined :: rest).length ≤ MAX_JITTER_PACKETS := by
    rw [JITTER_PRE_BUFFER] at hfew
    rw [MAX_JITTER_PACKETS]
    exact hqueue.trans (by omega)
  rw [hbase, evict_of_le hfits] at hpush
  have hbehind : (s.behind packet.seq).filter
      (fun p => decide (0 < seqDiff p.seq (packet.seq + 1))) = s.behind packet.seq := by
    rw [List.filter_eq_self]
    intro p hp
    have hmem := List.mem_of_mem_filter hp
    have hpos : 0 < seqDiff p.seq packet.seq := by simpa using List.of_mem_filter hp
    have hp' := h.jitter.ahead p hmem
    have hnext := seqDiff_next hahead hroom
    rw [seqDiff_pos_iff hp' hahead] at hpos
    have hlater : 0 < seqDiff p.seq (packet.seq + 1) := by
      rw [seqDiff_pos_iff hp' (by omega)]
      omega
    simpa using hlater
  have hone : 0 < seqDiff joined.seq (packet.seq + 1) := by
    rw [hjoined, seqDiff_next (by rw [seqDiff_self]) (by rw [seqDiff_self]; omega), seqDiff_self]
    omega
  rw [hpush]
  show (s.behind packet.seq).length < ((s.behind packet.seq ++ joined :: rest).filter _).length
  rw [List.filter_append, hbehind, List.filter_cons_of_pos (by simpa using hone),
    List.length_append, List.length_cons]
  omega

/-- A stream whose baseline is not behind the sender, nor near the far edge of the
window, starts with the next few packets. -/
theorem Live.settles_of_ahead {next : BitVec 16} (h : Live s) (hseq : s.hasSeq = true)
    (hprimed : s.primed = false) (hahead : 0 ≤ seqDiff s.nextSeq next)
    (hroom : seqDiff s.nextSeq next + (JITTER_PRE_BUFFER - (s.behind next).length : Nat) < 32767) :
    Settles (JITTER_PRE_BUFFER - (s.behind next).length + 1 + primedSlots) s next := by
  generalize hmissing : JITTER_PRE_BUFFER - (s.behind next).length = missing at hroom ⊢
  induction missing using Nat.strong_induction_on generalizing s next with
  | _ missing ih =>
      rw [Nat.add_right_comm]
      apply settles_of_next
      intro data
      have hlive := h.pushPacket ⟨next, data⟩
      obtain ⟨hclock, hseq', hprimed'⟩ := pushPacket_unprimed ⟨next, data⟩ hseq hprimed
      rcases hlive.decodeFrame_unprimed hprimed' with hstarted | ⟨hidle, hfew⟩
      · exact (hlive.decodeFrame.settles_of_primed hstarted _).mono (by omega)
      · have hmore := h.behind_grows ⟨next, data⟩ hseq hahead (by dsimp only; omega) hfew
        have hle : ((s.pushPacket ⟨next, data⟩).behind (next + 1)).length ≤
            (s.pushPacket ⟨next, data⟩).packetQueue.length := List.length_filter_le _ _
        have hnext := seqDiff_next hahead (by omega)
        dsimp only at hmore
        rw [hidle]
        refine (ih (JITTER_PRE_BUFFER - ((s.pushPacket ⟨next, data⟩).behind (next + 1)).length)
          (by omega) hlive hseq' hprimed' ?_ rfl ?_).mono (by omega)
        · rw [hclock, hnext]
          omega
        · rw [hclock, hnext]
          omega

/-- Otherwise the numbers of the sender come round to the baseline first. -/
theorem Live.settles_of_baseline {next : BitVec 16} (h : Live s) (hseq : s.hasSeq = true)
    (hprimed : s.primed = false) :
    Settles ((s.nextSeq - next).toNat + (JITTER_PRE_BUFFER + 1 + primedSlots)) s next := by
  generalize hround : (s.nextSeq - next).toNat = round
  induction round generalizing s next with
  | zero =>
      have hsame : s.nextSeq = next := by bv_omega
      have hself : seqDiff s.nextSeq next = 0 := by rw [hsame, seqDiff_self]
      apply (h.settles_of_ahead hseq hprimed _ _).mono
      · omega
      · omega
      · rw [hself, JITTER_PRE_BUFFER]
        omega
  | succ round ih =>
      rw [Nat.add_right_comm]
      apply settles_of_next
      intro data
      have hlive := h.pushPacket ⟨next, data⟩
      obtain ⟨hclock, hseq', hprimed'⟩ := pushPacket_unprimed ⟨next, data⟩ hseq hprimed
      rcases hlive.decodeFrame_unprimed hprimed' with hstarted | ⟨hidle, _⟩
      · exact (hlive.decodeFrame.settles_of_primed hstarted _).mono (by omega)
      · rw [hidle]
        apply ih hlive hseq' hprimed'
        rw [hclock]
        bv_omega

/-! ### Recovery -/

/-- The bound: half the circle of sequence numbers for those that have to come round
to a baseline, the start that follows, and what a primed stream takes. -/
def recoverySlots : Nat := 2 ^ 15 + 2 * (JITTER_PRE_BUFFER + 1) + primedSlots

theorem toNat_sub_le {n a : BitVec 16} {k : Nat}
    (hfar : ¬ (0 ≤ seqDiff n a ∧ seqDiff n a + k < 32767)) :
    (n - a).toNat ≤ 2 ^ 15 + k + 1 := by
  have hsum : (n - a).toNat = 0 ∨ (n - a).toNat + (a - n).toNat = 2 ^ 16 := by bv_omega
  unfold seqDiff at hfar
  rw [BitVec.toInt_eq_toNat_cond] at hfar
  split at hfar
  · omega
  · omega

/-- Every stream settles. -/
theorem Live.settles (h : Live s) (next : BitVec 16) : Settles recoverySlots s next := by
  cases hprimed : s.primed with
  | true =>
      apply (h.settles_of_primed hprimed next).mono
      rw [recoverySlots]
      omega
  | false =>
      cases hseq : s.hasSeq with
      | false =>
          apply (h.settles_of_fresh hseq).mono
          rw [recoverySlots]
          omega
      | true =>
          by_cases hnear : 0 ≤ seqDiff s.nextSeq next ∧
              seqDiff s.nextSeq next + JITTER_PRE_BUFFER < 32767
          · apply (h.settles_of_ahead hseq hprimed hnear.1 (by omega)).mono
            rw [recoverySlots]
            omega
          · apply (h.settles_of_baseline hseq hprimed).mono
            have hround := toNat_sub_le hnear
            rw [recoverySlots]
            omega

/-- Packets in order from a number on, each with a slot. -/
def inOrder : BitVec 16 → List Bytes → List Call
  | _, [] => []
  | next, data :: payloads =>
    .pushPacket ⟨next, data⟩ :: .decodeFrame :: inOrder (next + 1) payloads

theorem inOrder_concat (next : BitVec 16) (payloads : List Bytes) (data : Bytes) :
    inOrder next (payloads ++ [data]) =
      inOrder next payloads ++
        [.pushPacket ⟨next + BitVec.ofNat 16 payloads.length, data⟩, .decodeFrame] := by
  induction payloads generalizing next with
  | nil => simp [inOrder]
  | cons head payloads ih =>
      rw [List.cons_append, inOrder, ih, List.length_cons, add_ofNat_succ]
      rfl

/-- Once the slots have passed, the stream is locked for good. -/
theorem Settles.run {slots : Nat} {next : BitVec 16} {payloads : List Bytes}
    (h : Settles slots s next) (hlong : slots ≤ payloads.length) :
    Locked (Machine.run UserStream.step s (inOrder next payloads))
      (next + BitVec.ofNat 16 payloads.length) := by
  induction payloads generalizing slots s next with
  | nil =>
      obtain rfl : slots = 0 := Nat.le_zero.mp hlong
      have hlocked : Locked s next := h
      simpa [inOrder] using hlocked
  | cons data payloads ih =>
      rw [List.length_cons, add_ofNat_succ]
      show Locked (Machine.run UserStream.step (s.pushPacket ⟨next, data⟩).decodeFrame
        (inOrder (next + 1) payloads)) _
      have hlocked (hnow : Locked s next) :
          Settles 0 (s.pushPacket ⟨next, data⟩).decodeFrame (next + 1) := by
        have hslot : Locked s (JitterPacket.mk next data).seq := hnow
        exact hslot.slot.1
      cases slots with
      | zero => exact ih (hlocked h) (Nat.zero_le _)
      | succ slots =>
          rcases h with hnow | hnext
          · exact ih (hlocked hnow) (Nat.zero_le _)
          · exact ih (hnext data) (by simpa using hlong)

/-- From every reachable stream, whatever number the sender starts at: once
`recoverySlots` packets have arrived in order, with one slot each, every further
slot is a normal decode. -/
theorem stream_recovers (calls : List Call) (first : BitVec 16) (payloads : List Bytes) (data : Bytes)
    (hlong : recoverySlots ≤ payloads.length) :
    ∃ packet,
      (Machine.run step created (calls ++ inOrder first (payloads ++ [data]))).decoder =
        (Machine.run step created (calls ++ inOrder first payloads)).decoder ++
          [.normal packet] := by
  have hlocked := ((live_run calls).settles first).run hlong
  rw [← Machine.run_append] at hlocked
  rw [inOrder_concat, ← List.append_assoc, Machine.run_append]
  have hslot : Locked (Machine.run step created (calls ++ inOrder first payloads))
      (JitterPacket.mk (first + BitVec.ofNat 16 payloads.length) data).seq := hlocked
  exact hslot.slot.2

/-- A stream stuck on two packets of a former sender, and a sender that starts over. -/
theorem stream_recovers_reconnect :
    ∃ packet,
      (Machine.run step created ([.pushPacket ⟨30000, []⟩, .pushPacket ⟨30001, []⟩] ++
        inOrder 0 (List.replicate recoverySlots [] ++ [[]]))).decoder =
        (Machine.run step created ([.pushPacket ⟨30000, []⟩, .pushPacket ⟨30001, []⟩] ++
          inOrder 0 (List.replicate recoverySlots []))).decoder ++ [.normal packet] :=
  stream_recovers _ 0 (List.replicate recoverySlots []) [] (List.length_replicate).ge

end UserStream

end Parties.Voice

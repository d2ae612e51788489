import Mathlib.Data.List.Basic
import Parties.Voice.JitterInvariant

/-!
# The start of a talk spurt

`push_packet` takes the sequence baseline of a new talk spurt from the packet
that arrives first, and from then on discards whatever lies behind it as already
played. `decode_frame` starts the playout clock at the lowest queued packet. The
two agree exactly if the lowest packet arrives first: a packet overtaken by a
later one before anything was played is lost.
-/

namespace Parties.Voice

/-! ### Contiguous packets -/

/-- A contiguous packet lies as many slots behind the front as its place says. -/
theorem Contiguous.seqDiff_front {front packet : JitterPacket} {rest : List JitterPacket}
    (h : Contiguous (front :: rest)) (hshort : rest.length < 2 ^ 15) (hmem : packet ∈ rest) :
    0 < seqDiff front.seq packet.seq := by
  obtain ⟨before, behind, rfl⟩ := List.append_of_mem hmem
  have hchain : Contiguous (front :: before ++ [packet]) := by
    have hsplit : front :: (before ++ packet :: behind) = front :: before ++ [packet] ++ behind := by
      simp
    rw [hsplit] at h
    exact h.prefix
  rw [List.length_append, List.length_cons] at hshort
  rw [hchain.seq_append, seqDiff_add (by omega)]
  omega

theorem Contiguous.tail {front : JitterPacket} {rest : List JitterPacket}
    (h : Contiguous (front :: rest)) : Contiguous rest := by
  rw [← List.singleton_append] at h
  exact h.suffix

theorem Contiguous.ascending {packets : List JitterPacket} (h : Contiguous packets)
    (hshort : packets.length ≤ 2 ^ 15) : Ascending packets := by
  induction packets with
  | nil => exact List.Pairwise.nil
  | cons front rest ih =>
      rw [List.length_cons] at hshort
      apply List.pairwise_cons.mpr
      constructor
      · intro packet hmem
        exact h.seqDiff_front (by omega) hmem
      · exact ih h.tail (by omega)

/-- Of two packets only one is ahead of the other. -/
theorem seqDiff_asymm {a b : BitVec 16} (hab : 0 < seqDiff a b) : ¬ 0 ≤ seqDiff b a := by
  intro hba
  have hself : seqDiff b b = 0 := seqDiff_self b
  have hback : seqDiff a b = seqDiff b b - seqDiff b a :=
    seqDiff_rebase hba (by rw [hself])
  omega

/-- The packets of a queue determine their order. -/
theorem Ascending.eq_of_perm {xs ys : List JitterPacket} (hxs : Ascending xs) (hys : Ascending ys)
    (hperm : xs.Perm ys) : xs = ys := by
  apply List.Perm.eq_of_pairwise _ hxs hys hperm
  intro p q _ _ hpq hqp
  exact absurd hqp.le (seqDiff_asymm hpq)

namespace UserStream

variable {s : UserStream} {packet : JitterPacket}

@[simp] theorem baseline_initialized : (s.baseline packet).initialized = s.initialized := by
  unfold baseline
  split <;> rfl

theorem baseline_of_hasSeq (hseq : s.hasSeq = true) : s.baseline packet = s := if_pos hseq

theorem Pushed.initialized {s' : UserStream} (h : Pushed s packet s') :
    s'.initialized = s.initialized := by
  cases h <;> exact baseline_initialized

theorem Slot.initialized {s' : UserStream} (h : Slot s s') : s'.initialized = s.initialized := by
  cases h <;> rfl

/-- The streams of the mixer have a decoder and keep the invariant of their queue. -/
structure Live (s : UserStream) : Prop where
  jitter : Jitter s
  initialized : s.initialized = true

theorem Live.pushPacket (h : Live s) (packet : JitterPacket) : Live (s.pushPacket packet) := by
  have hpushed := pushPacket_pushed h.jitter packet
  exact ⟨h.jitter.pushed hpushed, hpushed.initialized.trans h.initialized⟩

theorem Live.decodeFrame (h : Live s) : Live s.decodeFrame := by
  refine ⟨h.jitter.decodeFrame, ?_⟩
  rcases decodeFrame_slot h.jitter with hidle | ⟨s₁, hprime, hslot⟩
  · rw [hidle]
    exact h.initialized
  · rw [hslot.initialized, ← h.initialized]
    rcases prime_cases hprime with ⟨_, rfl⟩ | ⟨_, front, rest, _, rfl⟩
    · rfl
    · rfl

theorem Live.step (h : Live s) (call : Call) : Live (s.step call) := by
  cases call with
  | pushPacket packet => exact h.pushPacket packet
  | decodeFrame => exact h.decodeFrame

theorem live_run (calls : List Call) : Live (Machine.run step created calls) :=
  Machine.run_preserves (fun _ call h => h.step call) ⟨jitter_created, rfl⟩ calls

/-! ### Single calls -/

/-- A slot of a stream that is still buffering does nothing. -/
theorem decodeFrame_waiting (hprimed : s.primed = false)
    (hfew : s.packetQueue.length < JITTER_PRE_BUFFER) : s.decodeFrame = s := by
  unfold UserStream.decodeFrame
  split
  · rfl
  · simp [UserStream.prime, hprimed, hfew]

/-- A slot whose clock is at the front, or starts there, decodes the front. -/
theorem Live.decodeFrame_owed {front : JitterPacket} {rest : List JitterPacket} (h : Live s)
    (hqueue : s.packetQueue = front :: rest) (hclock : s.primed = true → s.nextSeq = front.seq)
    (hready : s.primed = true ∨ JITTER_PRE_BUFFER ≤ s.packetQueue.length) :
    s.decodeFrame =
      { s with
        primed := true
        decoder := s.decoder ++ [.normal front]
        nextSeq := front.seq + 1
        packetQueue := rest
        consecutiveEmpty := 0 } := by
  have hprime : s.prime = some { s with primed := true, nextSeq := front.seq } := by
    unfold UserStream.prime
    cases hprimed : s.primed with
    | true =>
        rw [if_pos rfl, ← hclock hprimed, ← hprimed]
    | false =>
        have hfull : ¬ s.packetQueue.length < JITTER_PRE_BUFFER := by
          rw [hprimed] at hready
          simpa using hready
        rw [if_neg (by simp), if_neg hfull]
        simp [hqueue]
  have hahead : AheadOf front.seq s.packetQueue := by
    have hasc := h.jitter.ascending
    rw [hqueue] at hasc ⊢
    exact hasc.aheadOf_front
  have hplay := playSlot_eq (s := { s with primed := true, nextSeq := front.seq }) hahead hqueue
  unfold UserStream.decodeFrame
  rw [if_neg (by simp [h.initialized]), hprime]
  dsimp only
  rw [if_neg (by simp [hqueue]), hplay]
  simp [seqDiff_self, RESYNC_GAP, playFront, hqueue]

/-! ### Buffering -/

/-- Packets in the order of their arrival, each behind a number of slots. -/
def arrivalCalls (arrivals : List (Nat × JitterPacket)) : List Call :=
  arrivals.flatMap fun arrival =>
    List.replicate arrival.1 .decodeFrame ++ [.pushPacket arrival.2]

/-- The stream waits for its first packets and has seen `seen`, `first` before
the others. It kept those that are not behind `first`. -/
structure Filling (log : List DecodeCall) (first : JitterPacket) (seen : List JitterPacket)
    (s : UserStream) : Prop where
  live : Live s
  unprimed : s.primed = false
  based : s.hasSeq = true
  clock : s.nextSeq = first.seq
  decoder : s.decoder = log
  queue : s.packetQueue.Perm (seen.filter fun p => decide (0 ≤ seqDiff first.seq p.seq))

theorem run_waiting (hprimed : s.primed = false) (hfew : s.packetQueue.length < JITTER_PRE_BUFFER)
    (slots : Nat) : Machine.run UserStream.step s (List.replicate slots .decodeFrame) = s := by
  induction slots with
  | zero => rfl
  | succ slots ih =>
      rw [List.replicate_succ, Machine.run_cons]
      show Machine.run UserStream.step s.decodeFrame _ = s
      rw [decodeFrame_waiting hprimed hfew]
      exact ih

/-- The first packet of a talk spurt sets the baseline. -/
theorem Live.pushPacket_first (h : Live s) (packet : JitterPacket) (hseq : s.hasSeq = false) :
    Filling s.decoder packet [packet] (s.pushPacket packet) := by
  obtain ⟨hempty, hprimed⟩ := h.jitter.fresh hseq
  have hbase : s.baseline packet = { s with nextSeq := packet.seq, hasSeq := true } :=
    if_neg (by simp [hseq])
  have hpush : s.pushPacket packet =
      { s with nextSeq := packet.seq, hasSeq := true, packetQueue := [packet] } := by
    have hold : 0 ≤ seqDiff (s.baseline packet).nextSeq packet.seq := by
      rw [hbase, seqDiff_self]
    rcases h.jitter.pushPacket_cases hold with
      ⟨⟨q, hq, _⟩, _⟩ | ⟨before, behind, hsplit, _, _, hpush⟩
    · simp [hempty] at hq
    · rw [hempty] at hsplit
      obtain ⟨rfl, rfl⟩ := List.append_eq_nil_iff.mp hsplit.symm
      rw [hpush, evict_of_le (by simp [MAX_JITTER_PACKETS]), hbase]
      rfl
  have hlive := h.pushPacket packet
  rw [hpush] at hlive ⊢
  refine ⟨hlive, hprimed, rfl, rfl, rfl, ?_⟩
  simp [seqDiff_self]

/-- A further packet is kept exactly if it is not behind the first. -/
theorem Filling.pushPacket {log : List DecodeCall} {first : JitterPacket}
    {seen : List JitterPacket} (h : Filling log first seen s)
    (hnew : ∀ q ∈ seen, q.seq ≠ packet.seq) (hroom : seen.length < MAX_JITTER_PACKETS) :
    Filling log first (seen ++ [packet]) (s.pushPacket packet) := by
  have hbase : s.baseline packet = s := baseline_of_hasSeq h.based
  have hlive := h.live.pushPacket packet
  by_cases hahead : 0 ≤ seqDiff first.seq packet.seq
  · have hold : 0 ≤ seqDiff (s.baseline packet).nextSeq packet.seq := by
      rw [hbase, h.clock]
      exact hahead
    rcases h.live.jitter.pushPacket_cases hold with
      ⟨⟨q, hq, hdup⟩, _⟩ | ⟨before, behind, hsplit, _, _, hpush⟩
    · have hseen := List.mem_of_mem_filter (h.queue.subset hq)
      exact absurd hdup (hnew q hseen)
    · have hle : s.packetQueue.length ≤ seen.length := by
        rw [h.queue.length_eq]
        exact List.length_filter_le _ _
      rw [hbase, evict_of_le (by simp [hsplit] at hle ⊢; omega)] at hpush
      rw [hpush] at hlive ⊢
      refine ⟨hlive, h.unprimed, h.based, h.clock, h.decoder, ?_⟩
      have hqueue := h.queue
      rw [hsplit] at hqueue
      rw [List.filter_append, List.filter_cons_of_pos (by simpa using hahead), List.filter_nil]
      refine List.perm_middle.trans ?_
      refine (hqueue.cons packet).trans ?_
      exact @List.perm_append_comm _ [packet] _
  · have hpush : s.pushPacket packet = s := by
      rw [pushPacket_eq, hbase, h.clock, if_pos (Int.not_le.mp hahead)]
    rw [hpush]
    refine ⟨h.live, h.unprimed, h.based, h.clock, h.decoder, ?_⟩
    rw [List.filter_append, List.filter_cons_of_neg (by simpa using hahead), List.filter_nil,
      List.append_nil]
    exact h.queue

theorem Filling.waiting {log : List DecodeCall} {first : JitterPacket} {seen : List JitterPacket}
    (h : Filling log first seen s) (hfew : seen.length < JITTER_PRE_BUFFER) (slots : Nat) :
    Machine.run UserStream.step s (List.replicate slots .decodeFrame) = s := by
  apply run_waiting h.unprimed
  rw [h.queue.length_eq]
  exact (List.length_filter_le _ _).trans_lt hfew

theorem Filling.arrive {log : List DecodeCall} {first : JitterPacket}
    {seen : List JitterPacket} {arrivals : List (Nat × JitterPacket)} (h : Filling log first seen s)
    (hdistinct : (seen ++ arrivals.map Prod.snd).Pairwise fun p q => p.seq ≠ q.seq)
    (hfew : seen.length + arrivals.length ≤ JITTER_PRE_BUFFER) :
    Filling log first (seen ++ arrivals.map Prod.snd)
      (Machine.run UserStream.step s (arrivalCalls arrivals)) := by
  induction arrivals generalizing seen s with
  | nil => simpa [arrivalCalls] using h
  | cons arrival arrivals ih =>
      rw [List.map_cons, List.append_cons] at hdistinct ⊢
      rw [List.length_cons] at hfew
      have hseen : seen.length < JITTER_PRE_BUFFER := by omega
      have hnew : ∀ q ∈ seen, q.seq ≠ arrival.2.seq := by
        intro q hq
        have hpair := (List.pairwise_append.mp (List.pairwise_append.mp hdistinct).1).2.2
        exact hpair q hq arrival.2 List.mem_cons_self
      have hroom : seen.length < MAX_JITTER_PACKETS := by
        simp only [JITTER_PRE_BUFFER] at hseen
        simp only [MAX_JITTER_PACKETS]
        omega
      have hnext := ih (h.pushPacket hnew hroom) hdistinct (by simp; omega)
      simp only [arrivalCalls, List.flatMap_cons] at hnext ⊢
      rw [Machine.run_append, Machine.run_append, h.waiting hseen]
      exact hnext

/-! ### Playing -/

/-- Slots, each behind the packets that arrive before it. -/
def slotCalls (slots : List (List JitterPacket)) : List Call :=
  slots.flatMap fun arrived => arrived.map .pushPacket ++ [.decodeFrame]

/-- The packets `due` are the next ones the stream will play. -/
structure Playing (due : List JitterPacket) (s : UserStream) : Prop where
  live : Live s
  based : s.hasSeq = true
  ready : s.primed = true ∨ JITTER_PRE_BUFFER ≤ s.packetQueue.length
  queue : due <+: s.packetQueue
  clock : ∀ front, due.head? = some front → s.nextSeq = front.seq

/-- A packet behind those that are due does not disturb them. -/
theorem Playing.pushPacket {due : List JitterPacket} {front : JitterPacket}
    (h : Playing (front :: due) s) (hlater : ∀ q ∈ front :: due, 0 < seqDiff q.seq packet.seq)
    (hroom : s.packetQueue.length < MAX_JITTER_PACKETS) :
    Playing (front :: due) (s.pushPacket packet) ∧
      (s.pushPacket packet).packetQueue.length ≤ s.packetQueue.length + 1 ∧
      (s.pushPacket packet).decoder = s.decoder := by
  have hbase : s.baseline packet = s := baseline_of_hasSeq h.based
  have hahead : 0 ≤ seqDiff (s.baseline packet).nextSeq packet.seq := by
    rw [hbase, h.clock front rfl]
    exact (hlater front List.mem_cons_self).le
  have hlive := h.live.pushPacket packet
  rcases h.live.jitter.pushPacket_cases hahead with
    ⟨_, hpush⟩ | ⟨before, behind, hsplit, _, hbehind, hpush⟩
  · rw [hpush, hbase]
    exact ⟨h, by omega, rfl⟩
  · rw [hbase, evict_of_le (by simp [hsplit] at hroom ⊢; omega)] at hpush
    rw [hpush] at hlive ⊢
    have hkept : front :: due <+: before := by
      rcases List.prefix_or_prefix_of_prefix h.queue (hsplit ▸ List.prefix_append before behind) with
        hdue | ⟨tail, htail⟩
      · exact hdue
      · -- a due packet among those the new one was put in front of would lie on both sides of it
        cases tail with
        | nil =>
            rw [List.append_nil] at htail
            rw [htail]
        | cons q tail =>
            have hqueue := h.queue
            rw [← htail, hsplit, List.prefix_append_right_inj] at hqueue
            have hq : q ∈ behind := hqueue.subset List.mem_cons_self
            have hdue : q ∈ front :: due := by
              rw [← htail]
              simp
            exact absurd (hbehind q hq).le (seqDiff_asymm (hlater q hdue))
    refine ⟨⟨hlive, h.based, ?_, ?_, h.clock⟩, ?_, rfl⟩
    · rcases h.ready with hprimed | hfull
      · exact Or.inl hprimed
      · refine Or.inr (hfull.trans ?_)
        simp [hsplit]
    · exact hkept.trans (List.prefix_append _ _)
    · simp [hsplit]
      omega

theorem Playing.arrive {due arrived : List JitterPacket} {front : JitterPacket}
    (h : Playing (front :: due) s)
    (hlater : ∀ packet ∈ arrived, ∀ q ∈ front :: due, 0 < seqDiff q.seq packet.seq)
    (hroom : s.packetQueue.length + arrived.length ≤ MAX_JITTER_PACKETS) :
    Playing (front :: due) (Machine.run UserStream.step s (arrived.map .pushPacket)) ∧
      (Machine.run UserStream.step s (arrived.map .pushPacket)).packetQueue.length ≤
        s.packetQueue.length + arrived.length ∧
      (Machine.run UserStream.step s (arrived.map .pushPacket)).decoder = s.decoder := by
  induction arrived generalizing s with
  | nil => exact ⟨h, le_rfl, rfl⟩
  | cons packet arrived ih =>
      rw [List.length_cons] at hroom
      obtain ⟨hplaying, hlength, hdecoder⟩ :=
        h.pushPacket (hlater packet List.mem_cons_self) (by omega)
      obtain ⟨hrest, hlengths, hdecoders⟩ := ih hplaying
        (fun p hp => hlater p (List.mem_cons_of_mem _ hp)) (by omega)
      rw [List.map_cons, Machine.run_cons, List.length_cons]
      refine ⟨hrest, ?_, hdecoders.trans hdecoder⟩
      refine hlengths.trans ?_
      omega

/-- A slot plays the packet that is due. -/
theorem Playing.decodeFrame {due : List JitterPacket} {front : JitterPacket}
    (h : Playing (front :: due) s) (hchain : Contiguous (front :: due)) :
    Playing due s.decodeFrame ∧ s.decodeFrame.packetQueue.length < s.packetQueue.length ∧
      s.decodeFrame.decoder = s.decoder ++ [.normal front] := by
  obtain ⟨later, hlater⟩ := h.queue
  have hqueue : s.packetQueue = front :: (due ++ later) := hlater.symm
  have hplay := h.live.decodeFrame_owed hqueue (fun _ => h.clock front rfl) h.ready
  have hlive := h.live.decodeFrame
  rw [hplay] at hlive ⊢
  refine ⟨⟨hlive, h.based, Or.inl rfl, List.prefix_append due later, ?_⟩, ?_, rfl⟩
  · intro next hnext
    obtain ⟨rest, rfl⟩ := List.head?_eq_some_iff.mp hnext
    exact (List.isChain_cons_cons.mp hchain).1.symm
  · simp [hqueue]

theorem Playing.slots {due : List JitterPacket} {slots : List (List JitterPacket)}
    (h : Playing due s) (hchain : Contiguous due) (hslots : slots.length = due.length)
    (hlater : ∀ arrived ∈ slots, ∀ packet ∈ arrived, ∀ q ∈ due, 0 < seqDiff q.seq packet.seq)
    (hroom : s.packetQueue.length + slots.flatten.length ≤ MAX_JITTER_PACKETS) :
    (Machine.run UserStream.step s (slotCalls slots)).decoder =
      s.decoder ++ due.map .normal := by
  induction slots generalizing due s with
  | nil =>
      have hnone : due = [] := List.eq_nil_of_length_eq_zero hslots.symm
      simp [hnone, slotCalls]
  | cons arrived slots ih =>
      cases due with
      | nil => simp at hslots
      | cons front due =>
          rw [List.flatten_cons, List.length_append] at hroom
          obtain ⟨hplaying, hlength, hdecoder⟩ :=
            h.arrive (hlater arrived List.mem_cons_self) (by omega)
          obtain ⟨hnext, hshorter, hplayed⟩ := hplaying.decodeFrame hchain
          have hrest := ih hnext hchain.tail (by simpa using hslots)
            (fun arrived harrived packet hpacket q hq =>
              hlater arrived (List.mem_cons_of_mem _ harrived) packet hpacket q
                (List.mem_cons_of_mem _ hq)) (by omega)
          rw [hplayed, hdecoder] at hrest
          simp only [slotCalls, List.flatMap_cons] at hrest ⊢
          rw [Machine.run_append, Machine.run_append]
          rw [List.map_cons, List.append_cons]
          exact hrest

/-! ### The start -/

/-- The first packets of a talk spurt as they arrive, and the slots that follow,
with further packets that leave the queue within its bound. -/
structure TalkSpurt (packets : List JitterPacket) (arrivals : List (Nat × JitterPacket))
    (slots : List (List JitterPacket)) : Prop where
  contiguous : Contiguous packets
  enough : packets.length = JITTER_PRE_BUFFER
  arrived : (arrivals.map Prod.snd).Perm packets
  played : slots.length = JITTER_PRE_BUFFER
  later : ∀ arrived ∈ slots, ∀ packet ∈ arrived, ∀ q ∈ packets, 0 < seqDiff q.seq packet.seq
  room : packets.length + slots.flatten.length ≤ MAX_JITTER_PACKETS

/-- All of the first packets are kept, the clock starts at the lowest of them, and
the slots that follow decode each of them once, in order. -/
def StartsInOrder (s : UserStream) (packets : List JitterPacket)
    (arrivals : List (Nat × JitterPacket)) (slots : List (List JitterPacket)) : Prop :=
  let filled := Machine.run step s (arrivalCalls arrivals)
  (∀ packet ∈ packets, packet ∈ filled.packetQueue) ∧
    filled.prime.map UserStream.nextSeq = packets.head?.map JitterPacket.seq ∧
    (Machine.run step filled (slotCalls slots)).decoder = s.decoder ++ packets.map .normal

/-- Once the first packets are in, those not behind the first arrival are queued. -/
theorem Live.filled {packets : List JitterPacket} {arrivals : List (Nat × JitterPacket)}
    {slots : List (List JitterPacket)} (h : Live s) (hseq : s.hasSeq = false)
    (hspurt : TalkSpurt packets arrivals slots) :
    ∃ first, (arrivals.map Prod.snd).head? = some first ∧
      Filling s.decoder first (arrivals.map Prod.snd)
        (Machine.run UserStream.step s (arrivalCalls arrivals)) := by
  have hlength : arrivals.length = JITTER_PRE_BUFFER := by
    rw [← hspurt.enough, ← hspurt.arrived.length_eq, List.length_map]
  have hdistinct : (arrivals.map Prod.snd).Pairwise fun p q => p.seq ≠ q.seq := by
    have hasc := hspurt.contiguous.ascending (by simp [hspurt.enough, JITTER_PRE_BUFFER])
    have hseqs : packets.Pairwise fun p q => p.seq ≠ q.seq := by
      apply hasc.imp
      intro p q hpq heq
      rw [heq, seqDiff_self] at hpq
      omega
    exact hspurt.arrived.symm.pairwise hseqs fun hne heq => hne heq.symm
  obtain ⟨hempty, hprimed⟩ := h.jitter.fresh hseq
  cases arrivals with
  | nil => simp [JITTER_PRE_BUFFER] at hlength
  | cons arrival arrivals =>
      refine ⟨arrival.2, rfl, ?_⟩
      have hfirst := h.pushPacket_first arrival.2 hseq
      have hall := hfirst.arrive hdistinct (by simp at hlength ⊢; omega)
      simp only [arrivalCalls, List.flatMap_cons] at hall ⊢
      rw [Machine.run_append, Machine.run_append,
        run_waiting hprimed (by simp [hempty, JITTER_PRE_BUFFER])]
      exact hall

/-- What starts a stream at its lowest packet. -/
theorem Filling.playing {log : List DecodeCall} {front : JitterPacket}
    {seen rest : List JitterPacket} (h : Filling log front seen s)
    (hchain : Contiguous (front :: rest)) (henough : (front :: rest).length = JITTER_PRE_BUFFER)
    (hseen : seen.Perm (front :: rest)) :
    s.packetQueue = front :: rest ∧ Playing (front :: rest) s := by
  have hasc := hchain.ascending (by simp [henough, JITTER_PRE_BUFFER])
  have hqueue : s.packetQueue.Perm (front :: rest) := by
    refine (h.queue.trans ?_).trans hseen
    rw [List.filter_eq_self.mpr]
    intro p hp
    have hahead := hasc.aheadOf_front p (hseen.subset hp)
    simpa using hahead
  have hsorted := h.live.jitter.ascending.eq_of_perm hasc hqueue
  refine ⟨hsorted, h.live, h.based, Or.inr ?_, ?_, ?_⟩
  · rw [hsorted, henough]
  · rw [hsorted]
  · intro first hfirst
    obtain rfl : front = first := by simpa using hfirst
    exact h.clock

/-- From every state before the first packet of a talk spurt: the start keeps
and plays all of the first packets exactly if the lowest arrives first. -/
theorem startsInOrder_iff_lowest_first (calls : List Call)
    (hfresh : (Machine.run step created calls).hasSeq = false) (packets : List JitterPacket)
    (arrivals : List (Nat × JitterPacket)) (slots : List (List JitterPacket))
    (hspurt : TalkSpurt packets arrivals slots) :
    StartsInOrder (Machine.run step created calls) packets arrivals slots ↔
      (arrivals.map Prod.snd).head? = packets.head? := by
  have hlive : Live (Machine.run step created calls) := live_run calls
  generalize Machine.run step created calls = s at hfresh hlive ⊢
  obtain ⟨first, hfirst, hfilled⟩ := hlive.filled hfresh hspurt
  obtain ⟨front, rest, rfl⟩ : ∃ front rest, packets = front :: rest := by
    apply List.exists_cons_of_length_pos
    simp [hspurt.enough, JITTER_PRE_BUFFER]
  have hasc := hspurt.contiguous.ascending (by simp [hspurt.enough, JITTER_PRE_BUFFER])
  rw [hfirst, List.head?_cons]
  constructor
  · rintro ⟨hkept, _, _⟩
    have hmem : first ∈ front :: rest :=
      hspurt.arrived.subset (List.mem_of_mem_head? (by simp [hfirst]))
    have hlowest := List.of_mem_filter (hfilled.queue.subset (hkept front List.mem_cons_self))
    rcases List.mem_cons.mp hmem with rfl | hbehind
    · rfl
    · have hahead := (List.pairwise_cons.mp hasc).1 first hbehind
      exact absurd (by simpa using hlowest) (seqDiff_asymm hahead)
  · intro hsame
    obtain rfl : first = front := by simpa using hsame
    obtain ⟨hqueue, hplaying⟩ :=
      hfilled.playing hspurt.contiguous hspurt.enough hspurt.arrived
    refine ⟨?_, ?_, ?_⟩
    · intro packet hpacket
      rw [hqueue]
      exact hpacket
    · have hfew : ¬ (first :: rest).length < JITTER_PRE_BUFFER := by simp [hspurt.enough]
      rw [UserStream.prime, hfilled.unprimed, if_neg (by simp), hqueue, if_neg hfew]
      rfl
    · have hplayed := hplaying.slots hspurt.contiguous (hspurt.played.trans hspurt.enough.symm)
        hspurt.later (by rw [hqueue]; exact hspurt.room)
      rw [hplayed, hfilled.decoder]

/-- Packets `0` to `3`, overtaken only behind the first. -/
theorem startsInOrder_iff_lowest_first_swapped :
    StartsInOrder created [⟨0, [1]⟩, ⟨1, [1]⟩, ⟨2, [1]⟩, ⟨3, [1]⟩]
      [(0, ⟨0, [1]⟩), (2, ⟨3, [1]⟩), (0, ⟨1, [1]⟩), (1, ⟨2, [1]⟩)]
      [[], [⟨5, [1]⟩], [⟨4, [1]⟩], []] := by
  refine (startsInOrder_iff_lowest_first [] rfl _ _ _ ⟨?_, rfl, ?_, rfl, ?_, ?_⟩).mpr rfl
  · simp [Contiguous]
  · decide
  · decide
  · decide

/-- Packet `1` overtakes packet `0`, which is discarded when it arrives. -/
theorem not_startsInOrder :
    ¬ ∀ (calls : List Call), (Machine.run step created calls).hasSeq = false →
      ∀ (packets : List JitterPacket) (arrivals : List (Nat × JitterPacket))
        (slots : List (List JitterPacket)), TalkSpurt packets arrivals slots →
        StartsInOrder (Machine.run step created calls) packets arrivals slots := by
  intro hclaim
  have hspurt : TalkSpurt [⟨0, [1]⟩, ⟨1, [1]⟩, ⟨2, [1]⟩, ⟨3, [1]⟩]
      [(0, ⟨1, [1]⟩), (0, ⟨0, [1]⟩), (0, ⟨2, [1]⟩), (0, ⟨3, [1]⟩)] [[], [], [], []] := by
    refine ⟨?_, rfl, ?_, rfl, ?_, ?_⟩
    · simp [Contiguous]
    · decide
    · decide
    · decide
  have hkept := (hclaim [] rfl _ _ _ hspurt).1 ⟨0, [1]⟩ (by simp)
  have hlost : ¬ (⟨0, [1]⟩ : JitterPacket) ∈ (Machine.run step created
      (arrivalCalls [(0, ⟨1, [1]⟩), (0, ⟨0, [1]⟩), (0, ⟨2, [1]⟩), (0, ⟨3, [1]⟩)])).packetQueue := by
    decide
  exact hlost hkept

end UserStream

end Parties.Voice

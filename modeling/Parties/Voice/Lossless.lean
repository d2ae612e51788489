import Mathlib.Data.List.Chain
import Parties.Voice.Mixer

/-!
# The jitter buffer on a lossless network

A sender numbers its packets contiguously and the network delivers them in
order. The buffer then plays every packet exactly once, except after a pause:
each slot it conceals in an underrun advances the playout clock, although the
counter of the sender stood still, so the packet that ends a pause of at most
`PLC_MAX_FRAMES` slots arrives behind the clock and is discarded. The invariant
follows the packets pushed so far through the queue into the decoder; the main
theorem says that such a packet is the only thing that breaks it.
-/

namespace Parties.Voice

/-- The packets a decoder has decoded normally. -/
def normals (calls : List DecodeCall) : List JitterPacket :=
  calls.filterMap fun
    | .normal packet => some packet
    | .fec _ => none
    | .plc => none

@[simp] theorem normals_append (xs ys : List DecodeCall) :
    normals (xs ++ ys) = normals xs ++ normals ys :=
  List.filterMap_append

@[simp] theorem normals_normal (packet : JitterPacket) : normals [.normal packet] = [packet] := rfl

@[simp] theorem normals_plc : normals [.plc] = [] := rfl

/-- Each packet carries the number after the one before it. -/
def Contiguous (packets : List JitterPacket) : Prop :=
  packets.IsChain fun p q => q.seq = p.seq + 1

theorem Contiguous.suffix {xs ys : List JitterPacket} (h : Contiguous (xs ++ ys)) :
    Contiguous ys :=
  (List.isChain_append.mp h).2.1

theorem Contiguous.prefix {xs ys : List JitterPacket} (h : Contiguous (xs ++ ys)) :
    Contiguous xs :=
  (List.isChain_append.mp h).1

/-- Behind `k` contiguous packets the counter is `k` further. -/
theorem Contiguous.seq_append {front last : JitterPacket} {rest : List JitterPacket}
    (h : Contiguous (front :: rest ++ [last])) :
    last.seq = front.seq + BitVec.ofNat 16 (rest.length + 1) := by
  induction rest generalizing front with
  | nil =>
      have hnext : last.seq = front.seq + 1 := (List.isChain_cons_cons.mp h).1
      simpa using hnext
  | cons next rest ih =>
      obtain ⟨hnext, hrest⟩ := List.isChain_cons_cons.mp h
      have hlast := ih hrest
      rw [hlast, hnext, List.length_cons, BitVec.add_assoc]
      congr 1
      rw [BitVec.ofNat_add (rest.length + 1) 1, BitVec.add_comm]
      rfl

/-- The packet behind the last one. -/
theorem Contiguous.seq_last {packets : List JitterPacket} {last packet : JitterPacket}
    (h : Contiguous (packets ++ [packet])) (hlast : packets.getLast? = some last) :
    packet.seq = last.seq + 1 :=
  (List.isChain_append.mp h).2.2 last hlast packet rfl

theorem seqDiff_add {a : BitVec 16} {k : Nat} (hk : k < 2 ^ 15) :
    seqDiff a (a + BitVec.ofNat 16 k) = k := by
  rw [seqDiff_eq]
  exact Serial.distance_add_ofNat a hk

theorem seqDiff_self (a : BitVec 16) : seqDiff a a = 0 := by
  rw [seqDiff_eq, Serial.distance_self]

/-- A clock that ran `c` slots ahead finds the next packet `c` slots old. -/
theorem seqDiff_behind {a : BitVec 16} {c : Nat} (hc : c < 2 ^ 15) :
    seqDiff (a + BitVec.ofNat 16 c) a = -(c : Int) := by
  rw [seqDiff_eq]
  refine (Serial.distance_eq_iff (by decide) ?_ ?_).mpr ?_
  · show -2 ^ 15 ≤ -(c : Int)
    omega
  · show -(c : Int) < 2 ^ 15
    omega
  · rw [BitVec.add_assoc]
    have hzero : BitVec.ofNat 16 c + BitVec.ofInt 16 (-(c : Int)) = 0#16 := by
      rw [BitVec.ofInt_neg, BitVec.ofInt_natCast]
      exact BitVec.add_right_neg _
    rw [hzero, BitVec.add_zero]

namespace UserStream

/-- The stream has lost none of the packets `pushed` to it, and its clock stands
at the packet it will play next; in an underrun it stands behind the last one,
advanced by the slots concealed since. -/
structure InStep (pushed : List JitterPacket) (s : UserStream) : Prop where
  initialized : s.initialized = true
  lossless : pushed = normals s.decoder ++ s.packetQueue
  bounded : s.packetQueue.length ≤ MAX_JITTER_PACKETS
  fresh : s.hasSeq = false → s.packetQueue = [] ∧ s.primed = false
  waiting : s.hasSeq = true → s.primed = false → s.packetQueue ≠ []
  clock : s.hasSeq = true → ∀ front, s.packetQueue.head? = some front → s.nextSeq = front.seq
  underrun : s.primed = true → s.packetQueue = [] →
    s.consecutiveEmpty ≤ PLC_MAX_FRAMES ∧ ∃ last, pushed.getLast? = some last ∧
      s.nextSeq = last.seq + 1 + BitVec.ofNat 16 s.consecutiveEmpty

variable {pushed : List JitterPacket} {s : UserStream} {packet : JitterPacket}

theorem inStep_created : InStep [] created := by
  constructor <;> simp [created, normals]

/-- The stream conceals an underrun. -/
def InPause (s : UserStream) : Prop :=
  s.primed = true ∧ s.packetQueue = [] ∧ 0 < s.consecutiveEmpty ∧
    s.consecutiveEmpty ≤ PLC_MAX_FRAMES

instance (s : UserStream) : Decidable s.InPause := by
  unfold InPause
  infer_instance

/-! ### Pushing -/

/-- A packet behind the last queued one goes to the end. -/
theorem insertIndex_end {queue : List JitterPacket} (h : Contiguous (queue ++ [packet])) :
    insertIndex queue packet.seq queue.length queue.length = some queue.length := by
  rcases List.eq_nil_or_concat queue with rfl | ⟨rest, last, rfl⟩
  · rfl
  · have hlast : packet.seq = last.seq + 1 := h.seq_last (by simp)
    have hone : seqDiff last.seq packet.seq = 1 := by
      rw [hlast]
      exact seqDiff_add (k := 1) (by decide)
    rw [List.concat_eq_append, List.length_append, List.length_singleton, insertIndex]
    simp [hone]

/-- Every packet joins the queue, unless it ends a pause. -/
theorem InStep.pushPacket (h : InStep pushed s) (hchain : Contiguous (pushed ++ [packet]))
    (hroom : s.packetQueue.length < MAX_JITTER_PACKETS) (hpause : ¬ s.InPause) :
    InStep (pushed ++ [packet]) (s.pushPacket packet) := by
  have hqueue : Contiguous (s.packetQueue ++ [packet]) := by
    rw [h.lossless, List.append_assoc] at hchain
    exact hchain.suffix
  -- the stream once the baseline is set: its clock is not ahead of the packet
  generalize hs₀ : (if s.hasSeq then s else { s with nextSeq := packet.seq, hasSeq := true }) = s₀
  have hsame : s₀ = { s with nextSeq := s₀.nextSeq, hasSeq := true } := by
    rw [← hs₀]
    split
    next hseq =>
      rw [← hseq]
    · rfl
  have hclock : ∀ front, (s.packetQueue ++ [packet]).head? = some front →
      s₀.nextSeq = front.seq := by
    intro front hfront
    cases hseq : s.hasSeq with
    | false =>
        obtain ⟨hempty, _⟩ := h.fresh hseq
        rw [← hs₀, if_neg (by simp [hseq])]
        simp only [hempty, List.nil_append, List.head?_cons, Option.some.injEq] at hfront
        rw [hfront]
    | true =>
        rw [← hs₀, if_pos hseq]
        cases hentries : s.packetQueue with
        | cons head rest =>
            refine h.clock hseq front ?_
            rw [hentries] at hfront ⊢
            exact hfront
        | nil =>
            -- the stream is primed and has concealed nothing since its last packet
            have hprimed : s.primed = true := by
              cases hprimed : s.primed with
              | false => exact absurd hentries (h.waiting hseq hprimed)
              | true => rfl
            obtain ⟨hle, last, hlast, hnext⟩ := h.underrun hprimed hentries
            have hzero : s.consecutiveEmpty = 0 := by
              by_contra hne
              exact hpause ⟨hprimed, hentries, Nat.pos_of_ne_zero hne, hle⟩
            rw [hentries] at hfront
            obtain rfl : packet = front := by simpa using hfront
            rw [hnext, hzero, hchain.seq_last hlast]
            simp
  have hnotOld : ¬ seqDiff s₀.nextSeq packet.seq < 0 := by
    cases hentries : s.packetQueue with
    | nil =>
        rw [hclock packet (by simp [hentries]), seqDiff_self]
        omega
    | cons front rest =>
        rw [hentries] at hqueue hroom
        rw [hclock front (by simp [hentries]), hqueue.seq_append]
        simp only [List.length_cons, MAX_JITTER_PACKETS] at hroom
        rw [seqDiff_add (by omega)]
        omega
  have hpushed : s.pushPacket packet = { s₀ with packetQueue := s.packetQueue ++ [packet] } := by
    have hqueue₀ : s₀.packetQueue = s.packetQueue := by rw [hsame]
    unfold UserStream.pushPacket
    simp only [hs₀]
    rw [if_neg hnotOld, hqueue₀, insertIndex_end hqueue]
    simp only [List.insertIdx_length_self]
    rw [evict, if_neg]
    simp only [List.length_append, List.length_singleton]
    omega
  rw [hpushed, hsame]
  exact {
    initialized := h.initialized
    lossless := by simp [h.lossless]
    bounded := by simpa using Nat.succ_le_of_lt hroom
    fresh := fun hnone => by cases hnone
    waiting := fun _ _ => by simp
    clock := fun _ => hclock
    underrun := fun _ hempty => by simp at hempty }

/-- The packet that ends a pause is discarded. -/
theorem InStep.pushPacket_discarded (h : InStep pushed s)
    (hchain : Contiguous (pushed ++ [packet])) (hpause : s.InPause) :
    s.pushPacket packet = s := by
  obtain ⟨hprimed, hempty, hpos, hle⟩ := hpause
  obtain ⟨_, last, hlast, hnext⟩ := h.underrun hprimed hempty
  have hseq : s.hasSeq = true := by
    cases hseq : s.hasSeq with
    | false =>
        have hunprimed := (h.fresh hseq).2
        rw [hprimed] at hunprimed
        cases hunprimed
    | true => rfl
  have hold : seqDiff s.nextSeq packet.seq < 0 := by
    rw [hnext, ← hchain.seq_last hlast]
    simp only [PLC_MAX_FRAMES] at hle
    rw [seqDiff_behind (by omega)]
    omega
  unfold UserStream.pushPacket
  simp only [hseq, if_true]
  rw [if_pos hold]

/-! ### Playing -/

theorem InStep.hasSeq_of_queued (h : InStep pushed s) (hne : s.packetQueue ≠ []) :
    s.hasSeq = true := by
  cases hseq : s.hasSeq with
  | false => exact absurd (h.fresh hseq).1 hne
  | true => rfl

/-- A slot of a stream with a queue plays its front packet. -/
theorem InStep.playSlot (h : InStep pushed s) (hchain : Contiguous pushed)
    (hprimed : s.primed = true) (hne : s.packetQueue ≠ []) : InStep pushed s.playSlot := by
  obtain ⟨front, rest, hentries⟩ := List.exists_cons_of_ne_nil hne
  have hseq := h.hasSeq_of_queued hne
  have hclock : s.nextSeq = front.seq := h.clock hseq front (by simp [hentries])
  have hzero : seqDiff s.nextSeq front.seq = 0 := by rw [hclock, seqDiff_self]
  have hplay : s.playSlot = s.playFront front := by
    have hdrop : s.packetQueue.dropWhile
        (fun packet => decide (seqDiff s.nextSeq packet.seq < 0)) = s.packetQueue := by
      rw [hentries, List.dropWhile_cons_of_neg (by simp [hzero])]
    have hhead : s.packetQueue.head? = some front := by simp [hentries]
    unfold UserStream.playSlot
    simp only [hdrop, hhead, hzero, RESYNC_GAP]
    simp
  have hplayed : s.playFront front = { s with
      decoder := s.decoder ++ [.normal front]
      nextSeq := front.seq + 1
      packetQueue := rest
      consecutiveEmpty := 0 } := by
    simp [playFront, hentries]
  have hpushed : pushed = normals s.decoder ++ front :: rest := by
    rw [h.lossless, hentries]
  rw [hplay, hplayed]
  exact {
    initialized := h.initialized
    lossless := by simp [hpushed]
    bounded := by
      have hbound := h.bounded
      rw [hentries, List.length_cons] at hbound
      exact Nat.le_of_succ_le hbound
    fresh := fun hnone => by simp [hseq] at hnone
    waiting := fun _ hunprimed => by simp [hprimed] at hunprimed
    clock := fun _ next hnext => by
      obtain ⟨rest', hrest⟩ := List.head?_eq_some_iff.mp hnext
      rw [hpushed] at hchain
      dsimp only at hrest
      rw [hrest] at hchain
      exact (List.isChain_cons_cons.mp hchain.suffix).1.symm
    underrun := fun _ hempty => by
      refine ⟨Nat.zero_le _, front, ?_, ?_⟩
      · dsimp only at hempty
        rw [hpushed, hempty]
        simp
      · simp }

/-- A slot of an underrun moves the clock only, or ends the talk spurt. -/
theorem InStep.underrun_slot (h : InStep pushed s) (hprimed : s.primed = true)
    (hempty : s.packetQueue = []) : InStep pushed s.underrun := by
  obtain ⟨hle, last, hlast, hnext⟩ := h.underrun hprimed hempty
  have hlossless := h.lossless
  unfold UserStream.underrun
  dsimp only
  split
  next hplc =>
    exact {
      initialized := h.initialized
      lossless := by simpa [conceal] using hlossless
      bounded := h.bounded
      fresh := h.fresh
      waiting := h.waiting
      clock := fun _ front hfront => by simp [conceal, hempty] at hfront
      underrun := fun _ _ => by
        refine ⟨hplc, last, hlast, ?_⟩
        simp only [conceal]
        rw [hnext, BitVec.ofNat_add, BitVec.add_assoc]
        rfl }
  · exact {
      initialized := h.initialized
      lossless := hlossless
      bounded := h.bounded
      fresh := fun _ => ⟨hempty, rfl⟩
      waiting := fun hnone => by cases hnone
      clock := fun hnone => by cases hnone
      underrun := fun hnone => by cases hnone }

/-- One slot keeps the stream in step. -/
theorem InStep.decodeFrame (h : InStep pushed s) (hchain : Contiguous pushed) :
    InStep pushed s.decodeFrame := by
  unfold UserStream.decodeFrame
  rw [if_neg (by simp [h.initialized])]
  by_cases hprimed : s.primed = true
  · simp only [prime, if_pos hprimed]
    split
    next hempty =>
      exact h.underrun_slot hprimed (List.isEmpty_iff.mp hempty)
    next hsome =>
      exact h.playSlot hchain hprimed fun hempty => hsome (List.isEmpty_iff.mpr hempty)
  · simp only [prime, if_neg hprimed]
    by_cases hfew : s.packetQueue.length < JITTER_PRE_BUFFER
    · simp only [if_pos hfew]
      exact h
    · simp only [if_neg hfew]
      -- the clock starts at the front packet, where it already stood
      have hne : s.packetQueue ≠ [] := by
        intro hempty
        simp [hempty, JITTER_PRE_BUFFER] at hfew
      obtain ⟨front, rest, hentries⟩ := List.exists_cons_of_ne_nil hne
      have hseq := h.hasSeq_of_queued hne
      have hclock := h.clock hseq front (by simp [hentries])
      have hstart : (s.packetQueue.head?.map JitterPacket.seq).getD s.nextSeq = s.nextSeq := by
        simp [hentries, hclock]
      rw [hstart, if_neg (by simp [hentries])]
      refine InStep.playSlot (s := { s with primed := true }) ?_ hchain rfl hne
      exact { h with
        fresh := fun hnone => absurd (h.fresh hnone).1 hne
        waiting := fun _ hunprimed => by cases hunprimed
        underrun := fun _ hempty => absurd hempty hne }

theorem InStep.mixLoop (h : InStep pushed s) (hchain : Contiguous pushed) (fuel remaining : Nat) :
    InStep pushed (s.mixLoop fuel remaining) := by
  induction fuel generalizing remaining s with
  | zero => exact h
  | succ fuel ih =>
      unfold UserStream.mixLoop
      split
      · exact h
      · refine ih ?_ _
        -- the cursor into the decoded samples is not part of the invariant
        split
        · exact { h.decodeFrame hchain with }
        · exact { h with }

end UserStream

namespace VoiceMixer

open UserStream

/-! ### Runs -/

/-- The packets a run pushes for `user`. -/
def pushedBy (user : UserId) (ops : List Op) : List JitterPacket :=
  ops.filterMap fun
    | .pushPacket u packet => if u = user then some packet else none
    | _ => none

/-- Every packet pushed for `user` is queued or has been decoded by exactly one
normal decode, in the order of the pushes. -/
def Lossless (user : UserId) (ops : List Op) : Prop :=
  let stream := (run {} ops).getOrCreateStream user
  pushedBy user ops = normals stream.decoder ++ stream.packetQueue

/-- The queue of `user` has room for a packet that is pushed. -/
def HasRoom (user : UserId) (m : VoiceMixer) (op : Op) : Prop :=
  ∀ packet, op = .pushPacket user packet →
    (m.getOrCreateStream user).packetQueue.length < MAX_JITTER_PACKETS

/-- What a lossless network makes of one sender: contiguous packets in order,
never more than the bound queued, and a stream that stays. -/
structure Schedule (user : UserId) (ops : List Op) : Prop where
  contiguous : Contiguous (pushedBy user ops)
  room : Machine.AllSteps step (HasRoom user) {} ops
  stays : ∀ op ∈ ops, op ≠ .removeUser user ∧ op ≠ .clear

/-- No packet arrives while the stream of `user` conceals an underrun. -/
def NotInPause (user : UserId) (m : VoiceMixer) (op : Op) : Prop :=
  ∀ packet, op = .pushPacket user packet → ¬ (m.getOrCreateStream user).InPause

/-- One call keeps the stream of `user` in step with what was pushed to it. -/
theorem step_inStep {user : UserId} {m : VoiceMixer} {op : Op} {pushed : List JitterPacket}
    (h : InStep pushed (m.getOrCreateStream user))
    (hchain : Contiguous (pushed ++ pushedBy user [op])) (hroom : HasRoom user m op)
    (hstays : op ≠ .removeUser user ∧ op ≠ .clear) (hpause : NotInPause user m op) :
    InStep (pushed ++ pushedBy user [op]) ((m.step op).getOrCreateStream user) := by
  cases op with
  | pushPacket u packet =>
      by_cases hu : u = user
      · subst hu
        simp only [pushedBy, List.filterMap_cons, if_true, List.filterMap_nil] at hchain ⊢
        simp only [step, getOrCreateStream, if_true, Option.getD_some]
        exact h.pushPacket hchain (hroom packet rfl) (hpause packet rfl)
      · simp only [pushedBy, List.filterMap_cons, if_neg hu, List.filterMap_nil, List.append_nil]
        simp only [step, getOrCreateStream, if_neg (Ne.symm hu)]
        exact h
  | mixOutput frameCount =>
      simp only [pushedBy, List.filterMap_cons, List.filterMap_nil, List.append_nil] at hchain ⊢
      simp only [step, getOrCreateStream] at h ⊢
      cases hstream : m.streams user with
      | none =>
          rw [hstream] at h
          exact h
      | some s =>
          rw [hstream] at h
          exact h.mixLoop hchain frameCount frameCount
  | removeUser u =>
      have hu : user ≠ u := fun heq => hstays.1 (by rw [heq])
      simp only [pushedBy, List.filterMap_cons, List.filterMap_nil, List.append_nil]
      simp only [step, getOrCreateStream, if_neg hu]
      exact h
  | clear => exact absurd rfl hstays.2

theorem pushedBy_cons (user : UserId) (op : Op) (ops : List Op) :
    pushedBy user (op :: ops) = pushedBy user [op] ++ pushedBy user ops := by
  rw [pushedBy, pushedBy, pushedBy, ← List.filterMap_append]
  rfl

/-- From a stream in step: every prefix of the run is lossless exactly when no
packet arrives in a pause. -/
theorem lossless_iff_from {user : UserId} {m : VoiceMixer} {ops : List Op}
    {pushed : List JitterPacket} (h : InStep pushed (m.getOrCreateStream user))
    (hchain : Contiguous (pushed ++ pushedBy user ops))
    (hroom : Machine.AllSteps step (HasRoom user) m ops)
    (hstays : ∀ op ∈ ops, op ≠ .removeUser user ∧ op ≠ .clear) :
    (∀ pre, pre <+: ops →
      pushed ++ pushedBy user pre = normals ((m.run pre).getOrCreateStream user).decoder ++
        ((m.run pre).getOrCreateStream user).packetQueue) ↔
      Machine.AllSteps step (NotInPause user) m ops := by
  induction ops generalizing m pushed with
  | nil =>
      simp only [List.prefix_nil, forall_eq, Machine.allSteps_nil, iff_true]
      simpa [pushedBy, run] using h.lossless
  | cons op ops ih =>
      rw [pushedBy_cons, ← List.append_assoc] at hchain
      have hstays' := fun op' hop' => hstays op' (List.mem_cons_of_mem op hop')
      have hnext : NotInPause user m op →
          InStep (pushed ++ pushedBy user [op]) ((m.step op).getOrCreateStream user) :=
        step_inStep h hchain.prefix hroom.1 (hstays op (by simp))
      constructor
      · intro hall
        -- a packet that arrives in a pause is gone after its own step
        have hhead : NotInPause user m op := by
          rintro packet rfl hpause
          have hone := hall [.pushPacket user packet] ⟨ops, rfl⟩
          simp only [pushedBy, List.filterMap_cons, if_true, List.filterMap_nil] at hone hchain
          simp only [run, Machine.run_cons, Machine.run_nil, step, getOrCreateStream, if_true,
            Option.getD_some] at hone
          have hsame := h.pushPacket_discarded hchain.prefix hpause
          simp only [getOrCreateStream] at hsame
          rw [hsame] at hone
          have hlossless := h.lossless
          simp only [getOrCreateStream] at hlossless
          rw [← hlossless] at hone
          simp at hone
        refine ⟨hhead, (ih (hnext hhead) hchain hroom.2 hstays').mp fun pre hpre => ?_⟩
        have hpre' := hall (op :: pre) (List.cons_prefix_cons.mpr ⟨rfl, hpre⟩)
        rw [pushedBy_cons, ← List.append_assoc] at hpre'
        exact hpre'
      · rintro ⟨hhead, htail⟩ pre hpre
        cases pre with
        | nil => simpa [pushedBy, run] using h.lossless
        | cons first pre =>
            obtain ⟨heq, hpre'⟩ := List.cons_prefix_cons.mp hpre
            subst heq
            have hrest := (ih (hnext hhead) hchain hroom.2 hstays').mpr htail pre hpre'
            rw [pushedBy_cons, ← List.append_assoc]
            exact hrest

/-- On a lossless network a run loses nothing of a sender at any time, exactly
when none of its packets arrives while its stream conceals an underrun. -/
theorem lossless_iff_notInPause (user : UserId) (ops : List Op) (h : Schedule user ops) :
    (∀ pre, pre <+: ops → Lossless user pre) ↔
      Machine.AllSteps step (NotInPause user) {} ops := by
  have hfrom := lossless_iff_from (m := {}) inStep_created h.contiguous h.room h.stays
  simpa [Lossless] using hfrom

/-- Four packets, played to the end; then silence until `frameCount` samples
are out, and a fifth packet. -/
def pausedSpurt (frameCount : Nat) : List Op :=
  [.pushPacket 7 ⟨0, [1]⟩, .pushPacket 7 ⟨1, [1]⟩, .pushPacket 7 ⟨2, [1]⟩, .pushPacket 7 ⟨3, [1]⟩,
    .mixOutput frameCount, .pushPacket 7 ⟨4, [1]⟩]

/-- A pause of fifteen slots outlasts the concealment: nothing is lost. -/
theorem lossless_iff_notInPause_long : Lossless 7 (pausedSpurt (15 * OPUS_FRAME_SIZE)) := by
  refine (lossless_iff_notInPause 7 _ ⟨?_, ?_, ?_⟩).mpr ?_ _ List.prefix_rfl
  · simp [pushedBy, pausedSpurt, Contiguous]
  · refine ⟨?_, ?_, ?_, ?_, ?_, ?_, trivial⟩ <;> rintro packet heq <;> cases heq <;> decide
  · simp [pausedSpurt]
  · refine ⟨?_, ?_, ?_, ?_, ?_, ?_, trivial⟩ <;> rintro packet heq <;> cases heq <;> decide

/-- In a pause of a single concealed slot the next packet is discarded. -/
theorem not_lossless_short :
    ¬ ∀ (user : UserId) (ops : List Op), Schedule user ops →
      ∀ pre, pre <+: ops → Lossless user pre := by
  intro hclaim
  have hschedule : Schedule 7 (pausedSpurt (5 * OPUS_FRAME_SIZE)) := by
    refine ⟨?_, ?_, ?_⟩
    · simp [pushedBy, pausedSpurt, Contiguous]
    · refine ⟨?_, ?_, ?_, ?_, ?_, ?_, trivial⟩ <;> rintro packet heq <;> cases heq <;> decide
    · simp [pausedSpurt]
  have hlossless := hclaim 7 _ hschedule _ List.prefix_rfl
  have hlost : ¬ Lossless 7 (pausedSpurt (5 * OPUS_FRAME_SIZE)) := by
    unfold Lossless
    decide
  exact hlost hlossless

end VoiceMixer

end Parties.Voice

import Parties.Voice.StreamAudioPlayer

/-!
# What is heard of a share

The player against its purpose: packets wait in the order they came, the oldest makes room for an
eleventh, and a callback takes the samples of the frames decoded so far end to end. `Heard` is what
is left of the history of the events; each event is allowed or not by that alone. That a run
conforms to it is one case for each step, and what it means for whole runs follows from the events.
-/

namespace Parties.Voice

variable {δ α ν : Type}

/-- What has become of the packets and the samples: the packets that wait, the samples decoded and
not heard yet, the frames concealed since a packet was there, and whether the decoder has just
given nothing. -/
structure Heard (α ν : Type) where
  volume : ν
  waiting : List Bytes := []
  audible : List α := []
  playing : Bool := false
  concealed : Nat := 0
  refused : Bool := false
  call : Option (MixCall ν) := none

namespace Heard

def after (h : Heard α ν) : PlayerEvent α ν → Heard α ν
  | .volumeSet volume => { h with volume }
  | .arrived packet => { h with waiting := h.waiting ++ [packet], concealed := 0 }
  | .discarded _ => { h with waiting := h.waiting.tail }
  | .began frameCount => { h with call := some { frameCount, volume := h.volume } }
  | .decoded (some _) frame =>
    { h with waiting := h.waiting.tail, audible := frame, playing := true, concealed := 0 }
  | .decoded none frame => { h with audible := frame, concealed := h.concealed + 1 }
  | .failed (some _) =>
    { h with waiting := h.waiting.tail, playing := true, concealed := 0, refused := true }
  | .failed none => { h with concealed := h.concealed + 1, refused := true }
  | .ranDry => { h with playing := false, concealed := h.concealed + 1, refused := true }
  | .mixed _ _ samples =>
    { h with
      audible := h.audible.drop samples.length
      call := h.call.map fun call =>
        { call with written := call.written + samples.length / kChannels } }
  | .starved => { h with call := none, refused := false }
  | .finished => { h with call := none }

/-- A callback asks for more than has been decoded. -/
def Wanting (h : Heard α ν) : Prop :=
  h.audible = [] ∧ ∃ call, h.call = some call ∧ call.written < call.frameCount

/-- The decoder may be asked for this: the packet that waits longest, once enough of them did, or
while playing, for lack of packets, a few concealments. -/
def Due (h : Heard α ν) : Option Bytes → Prop
  | some packet => h.Wanting ∧ h.waiting.head? = some packet ∧
      (h.playing = true ∨ kPreBuffer ≤ h.waiting.length)
  | none => h.Wanting ∧ h.waiting = [] ∧ h.playing = true ∧ h.concealed < kPlcMaxFrames

def Allowed (h : Heard α ν) : PlayerEvent α ν → Prop
  | .volumeSet _ => True
  | .arrived _ => h.waiting.length < kMaxJitterPackets
  | .discarded packet => h.waiting.head? = some packet ∧ h.waiting.length = kMaxJitterPackets
  | .began _ => h.call = none
  | .decoded packet frame => h.Due packet ∧ frame.length = frameSamples
  | .failed packet => h.Due packet
  | .ranDry => h.Wanting ∧ h.waiting = [] ∧ h.playing = true ∧ kPlcMaxFrames ≤ h.concealed
  | .mixed frame volume samples =>
    samples ≠ [] ∧ ∃ call, h.call = some call ∧ frame = call.written ∧ volume = call.volume ∧
      samples = h.audible.take ((call.frameCount - call.written) * kChannels)
  | .starved => h.Wanting ∧
      (h.refused = true ∨ (h.playing = false ∧ h.waiting.length < kPreBuffer))
  | .finished => ∃ call, h.call = some call ∧ call.frameCount ≤ call.written

end Heard

/-! ### Whole histories -/

/-- The packets that arrived. -/
def arrivedPackets (log : List (PlayerEvent α ν)) : List Bytes :=
  log.filterMap fun
    | .arrived packet => some packet
    | _ => none

/-- The packets given to the decoder or discarded. -/
def handledPackets (log : List (PlayerEvent α ν)) : List Bytes :=
  log.filterMap fun
    | .discarded packet => some packet
    | .decoded packet _ => packet
    | .failed packet => packet
    | _ => none

/-- The samples of all frames, end to end. -/
def decodedSamples (log : List (PlayerEvent α ν)) : List α :=
  log.flatMap fun
    | .decoded _ frame => frame
    | _ => []

/-- The samples the callbacks were given, end to end. -/
def mixedSamples (log : List (PlayerEvent α ν)) : List α :=
  log.flatMap fun
    | .mixed _ _ samples => samples
    | _ => []

section

variable {h : Heard α ν} {log : List (PlayerEvent α ν)}

/-- Nothing that was decoded is left out, repeated or moved. -/
theorem samples_of_conforms (hconforms : Machine.AllSteps Heard.after Heard.Allowed h log) :
    mixedSamples log ++ (Machine.run Heard.after h log).audible =
      h.audible ++ decodedSamples log := by
  induction log generalizing h with
  | nil => simp [mixedSamples, decodedSamples]
  | cons event log ih =>
      obtain ⟨hallowed, hrest⟩ := hconforms
      have hafter := ih hrest
      simp only [mixedSamples, decodedSamples, List.flatMap_cons, Machine.run_cons,
        List.append_assoc] at hafter ⊢
      rw [hafter]
      cases event with
      | decoded packet frame =>
          have hempty : h.audible = [] := by
            cases packet <;> exact hallowed.1.1.1
          cases packet <;> simp [Heard.after, hempty]
      | mixed frame volume samples =>
          obtain ⟨_, call, _, _, _, hsamples⟩ := hallowed
          have htake : h.audible.take samples.length = samples := by
            rw [hsamples, List.length_take, ← List.take_eq_take_min]
          have hwhole : samples ++ h.audible.drop samples.length = h.audible := by
            have hsplit := List.take_append_drop samples.length h.audible
            rwa [htake] at hsplit
          simp only [Heard.after, List.nil_append]
          rw [← List.append_assoc, hwhole]
      | failed packet => cases packet <;> simp [Heard.after]
      | _ => simp [Heard.after]

/-- Packets are handled in the order they arrived, each of them once. -/
theorem packets_of_conforms (hconforms : Machine.AllSteps Heard.after Heard.Allowed h log) :
    handledPackets log ++ (Machine.run Heard.after h log).waiting =
      h.waiting ++ arrivedPackets log := by
  induction log generalizing h with
  | nil => simp [handledPackets, arrivedPackets]
  | cons event log ih =>
      obtain ⟨hallowed, hrest⟩ := hconforms
      have hafter := ih hrest
      have hfront : ∀ {packet}, h.waiting.head? = some packet →
          packet :: h.waiting.tail = h.waiting := fun hhead => by
        rw [← List.cons_head?_tail hhead]
        rfl
      simp only [handledPackets, arrivedPackets, List.filterMap_cons, Machine.run_cons] at hafter ⊢
      cases event with
      | arrived packet =>
          rw [hafter]
          simp [Heard.after]
      | discarded packet =>
          simp only [List.cons_append, hafter]
          simp [Heard.after, ← List.cons_append, hfront hallowed.1]
      | decoded packet frame =>
          cases packet with
          | none => simpa [Heard.after] using hafter
          | some packet =>
              simp only [List.cons_append, hafter]
              simp [Heard.after, ← List.cons_append, hfront hallowed.1.2.1]
      | failed packet =>
          cases packet with
          | none => simpa [Heard.after] using hafter
          | some packet =>
              simp only [List.cons_append, hafter]
              simp [Heard.after, ← List.cons_append, hfront hallowed.2.1]
      | _ => simpa [Heard.after] using hafter

end

/-! ### The player conforms -/

namespace StreamAudioPlayer

/-- What the code relies on: a whole frame in the buffer, read at a frame boundary, and a bounded
queue. -/
structure Sound (s : StreamAudioPlayer δ α ν) : Prop where
  buffer : s.pcmBuf.length = frameSamples
  within : s.pcmPos ≤ frameSamples
  aligned : s.pcmPos % kChannels = 0
  bounded : s.packetQueue.length ≤ kMaxJitterPackets

/-- The player as its history sees it. -/
def heard (s : StreamAudioPlayer δ α ν) : Heard α ν where
  volume := s.volume
  waiting := s.packetQueue
  audible := s.pcmBuf.drop s.pcmPos
  playing := s.primed
  concealed := s.consecutiveEmpty
  call := s.call

/-- The player is sound and stands where its history says. -/
def Follows (s : StreamAudioPlayer δ α ν) (h : Heard α ν) : Prop := s.Sound ∧ h = s.heard

theorem Sound.audible_eq_nil {s : StreamAudioPlayer δ α ν} (hs : s.Sound) :
    s.heard.audible = [] ↔ frameSamples ≤ s.pcmPos := by
  rw [heard, List.drop_eq_nil_iff, hs.buffer]

theorem Sound.wanting {s : StreamAudioPlayer δ α ν} (hs : s.Sound) {call : MixCall ν}
    (hcall : s.call = some call) (hwants : call.written < call.frameCount)
    (hused : frameSamples ≤ s.pcmPos) : s.heard.Wanting :=
  ⟨hs.audible_eq_nil.mpr hused, call, hcall, hwants⟩

theorem pushPacket_accounts {s : StreamAudioPlayer δ α ν} (hs : s.Sound) (packet : Bytes) :
    EventLog.Accounts Follows Heard.after Heard.Allowed s.heard (s.pushPacket packet) := by
  obtain ⟨hbuffer, hwithin, haligned, hbounded⟩ := hs
  by_cases hfull : kMaxJitterPackets ≤ s.packetQueue.length
  · have hlength : s.packetQueue.length = kMaxJitterPackets := le_antisymm hbounded hfull
    cases hqueue : s.packetQueue with
    | nil => simp [hqueue, kMaxJitterPackets] at hlength
    | cons oldest rest =>
        rw [hqueue] at hlength
        have hrest : rest.length < kMaxJitterPackets := by
          simp only [List.length_cons] at hlength
          omega
        refine ⟨?_, ⟨hbuffer, hwithin, haligned, ?_⟩, ?_⟩
        · simp [pushPacket, hqueue, hlength, heard, Heard.Allowed, Heard.after, hrest]
        · simpa [pushPacket, hqueue, hlength] using Nat.succ_le_of_lt hrest
        · simp [pushPacket, hqueue, hlength, heard, Heard.after]
  · have hroom : s.packetQueue.length < kMaxJitterPackets := not_le.mp hfull
    refine ⟨?_, ⟨hbuffer, hwithin, haligned, ?_⟩, ?_⟩
    · simp [pushPacket, hfull, heard, Heard.Allowed, hroom]
    · simpa [pushPacket, hfull] using Nat.succ_le_of_lt hroom
    · simp [pushPacket, hfull, heard, Heard.after]

/-- What one call of the decoder does. -/
theorem decode_cases (dec : StreamDecoder δ α) (s : StreamAudioPlayer δ α ν)
    (packet : Option Bytes) (hbuffer : s.pcmBuf.length = frameSamples) :
    (∃ decoder, s.decode dec packet = ({ s with decoder }, false, [.failed packet])) ∨
      ∃ decoder frame, frame.length = frameSamples ∧
        s.decode dec packet =
          ({ s with decoder, pcmBuf := frame }, true, [.decoded packet frame]) := by
  have hlength := dec.bounded s.decoder packet
  rcases hdecode : dec.decode s.decoder packet with ⟨decoder, samples⟩
  simp only [hdecode] at hlength
  by_cases hempty : samples.isEmpty
  · exact .inl ⟨decoder, by simp [decode, hdecode, hempty]⟩
  · refine .inr ⟨decoder, samples ++ s.pcmBuf.drop samples.length, ?_, ?_⟩
    · simp only [List.length_append, List.length_drop, hbuffer]
      omega
    · simp [decode, hdecode, hempty]

/-- What a decoded frame, a failure and a refusal leave for the callback. -/
def Refills (s : StreamAudioPlayer δ α ν)
    (r : StreamAudioPlayer δ α ν × Bool × List (PlayerEvent α ν)) : Prop :=
  Machine.AllSteps Heard.after Heard.Allowed s.heard r.2.2 ∧ r.1.Sound ∧ r.1.call = s.call ∧
    (r.2.1 = true →
      Machine.run Heard.after s.heard r.2.2 = { r.1 with pcmPos := 0 }.heard) ∧
    (r.2.1 = false → r.1.heard.audible = [] ∧ ∃ refused,
      Machine.run Heard.after s.heard r.2.2 = { r.1.heard with refused } ∧
        (refused = true ∨ (r.1.primed = false ∧ r.1.packetQueue.length < kPreBuffer)))

/-- The decoder is asked once the packet is off the queue. -/
theorem decode_refills (dec : StreamDecoder δ α) {s taken : StreamAudioPlayer δ α ν}
    {packet : Option Bytes} (hdue : s.heard.Due packet) (htaken : taken.Sound)
    (hcall : taken.call = s.call) (hused : taken.heard.audible = [])
    (hfailed : s.heard.after (.failed packet) = { taken.heard with refused := true })
    (hdecoded : ∀ frame, s.heard.after (.decoded packet frame) =
      { taken with pcmBuf := frame, pcmPos := 0 }.heard) :
    s.Refills (taken.decode dec packet) := by
  obtain ⟨hbuffer, hwithin, haligned, hbounded⟩ := htaken
  obtain ⟨decoder, hdecode⟩ | ⟨decoder, frame, hframe, hdecode⟩ :=
    decode_cases dec taken packet hbuffer
  · rw [hdecode]
    exact ⟨⟨hdue, trivial⟩, ⟨hbuffer, hwithin, haligned, hbounded⟩, hcall, nofun,
      fun _ => ⟨hused, true, hfailed, .inl rfl⟩⟩
  · rw [hdecode]
    exact ⟨⟨⟨hdue, hframe⟩, trivial⟩, ⟨hframe, hwithin, haligned, hbounded⟩, hcall,
      fun _ => hdecoded frame, nofun⟩

theorem decodeFrame_refills (dec : StreamDecoder δ α) {s : StreamAudioPlayer δ α ν}
    (hs : s.Sound) (hwanting : s.heard.Wanting) : s.Refills (s.decodeFrame dec) := by
  have hused := hwanting.1
  obtain ⟨hbuffer, hwithin, haligned, hbounded⟩ := id hs
  by_cases hwaits : (!s.primed && s.packetQueue.length < kPreBuffer) = true
  · have hfew : s.primed = false ∧ s.packetQueue.length < kPreBuffer := by simpa using hwaits
    rw [decodeFrame, if_pos hwaits]
    exact ⟨trivial, hs, rfl, nofun, fun _ => ⟨hused, false, rfl, .inr hfew⟩⟩
  · have hstarted : s.primed = true ∨ kPreBuffer ≤ s.packetQueue.length := by
      rcases hprimed : s.primed with _ | _
      · simpa [hprimed] using hwaits
      · exact .inl rfl
    rw [decodeFrame, if_neg hwaits]
    cases hqueue : s.packetQueue with
    | cons packet rest =>
        have hdue : s.heard.Due (some packet) := ⟨hwanting, by simp [heard, hqueue], hstarted⟩
        have hrest : rest.length ≤ kMaxJitterPackets := by
          rw [hqueue] at hbounded
          exact Nat.le_of_succ_le hbounded
        refine decode_refills dec hdue ⟨hbuffer, hwithin, haligned, hrest⟩ rfl hused ?_ ?_
        · simp [Heard.after, heard, hqueue]
        · simp [Heard.after, heard, hqueue]
    | nil =>
        have hprimed : s.primed = true := by
          rcases hstarted with hprimed | hmany
          · exact hprimed
          · simp [hqueue, kPreBuffer] at hmany
        simp only
        split
        · next hfew =>
          have hdue : s.heard.Due none := ⟨hwanting, hqueue, hprimed, hfew⟩
          refine decode_refills dec hdue ⟨hbuffer, hwithin, haligned, by simp⟩ rfl hused ?_ ?_
          · simp [Heard.after, heard, hqueue, hprimed]
          · simp [Heard.after, heard, hqueue, hprimed]
        · next hmany =>
          have hmany : kPlcMaxFrames ≤ s.heard.concealed := Nat.lt_succ_iff.mp (not_le.mp hmany)
          refine ⟨⟨⟨hwanting, hqueue, hprimed, hmany⟩, trivial⟩,
            ⟨hbuffer, hwithin, haligned, by simp⟩, rfl, nofun, fun _ => ⟨hused, true, ?_, .inl rfl⟩⟩
          simp [Heard.after, heard, hqueue]

/-- A turn that finds samples gives the callback as many as it wants. -/
theorem copyChunk_accounts {s : StreamAudioPlayer δ α ν} (hs : s.Sound) {call : MixCall ν}
    (hcall : s.call = some call) (hwants : call.written < call.frameCount)
    (hleft : s.pcmPos < frameSamples) :
    EventLog.Accounts Follows Heard.after Heard.Allowed s.heard (s.copyChunk call) := by
  obtain ⟨hbuffer, hwithin, haligned, hbounded⟩ := hs
  obtain ⟨chunk, hchunk⟩ :
      ∃ chunk, min ((frameSamples - s.pcmPos) / kChannels) (call.frameCount - call.written) = chunk :=
    ⟨_, rfl⟩
  have hsome : 0 < chunk ∧ s.pcmPos + chunk * kChannels ≤ frameSamples := by
    simp only [frameSamples, kFrameSize, kChannels] at *
    omega
  have hlength : ((s.pcmBuf.drop s.pcmPos).take (chunk * kChannels)).length = chunk * kChannels := by
    rw [List.length_take, List.length_drop, hbuffer]
    omega
  have htake : (s.pcmBuf.drop s.pcmPos).take (chunk * kChannels) =
      (s.pcmBuf.drop s.pcmPos).take ((call.frameCount - call.written) * kChannels) := by
    rw [List.take_eq_take_iff, List.length_drop, hbuffer]
    simp only [frameSamples, kFrameSize, kChannels] at *
    omega
  simp only [copyChunk, hchunk]
  refine EventLog.Accounts.event ⟨?_, call, hcall, rfl, rfl, htake⟩
    ⟨⟨hbuffer, hsome.2, ?_, hbounded⟩, ?_⟩
  · rw [← List.length_pos_iff_ne_nil, hlength]
    exact Nat.mul_pos hsome.1 (by decide)
  · simpa [Nat.add_mul_mod_self_right] using haligned
  · have hframes := Nat.mul_div_cancel chunk (by decide : 0 < kChannels)
    simp only [Heard.after, heard, hlength, hcall, List.drop_drop, Option.map_some, hframes]

theorem turn_accounts (dec : StreamDecoder δ α) {s : StreamAudioPlayer δ α ν} (hs : s.Sound)
    {call : MixCall ν} (hcall : s.call = some call) :
    EventLog.Accounts Follows Heard.after Heard.Allowed s.heard (s.turn dec call) := by
  by_cases hdone : call.frameCount ≤ call.written
  · simp only [turn, if_pos hdone]
    obtain ⟨hbuffer, hwithin, haligned, hbounded⟩ := hs
    exact EventLog.Accounts.event ⟨call, hcall, hdone⟩
      ⟨⟨hbuffer, hwithin, haligned, hbounded⟩, rfl⟩
  · have hwants : call.written < call.frameCount := not_le.mp hdone
    by_cases hleft : s.pcmPos < frameSamples
    · simp only [turn, if_neg hdone, if_pos hleft]
      exact copyChunk_accounts hs hcall hwants hleft
    · have hwanting := hs.wanting hcall hwants (not_lt.mp hleft)
      obtain ⟨hconforms, hsound, hcall', hdecoded, hrefused⟩ := decodeFrame_refills dec hs hwanting
      simp only [turn, if_neg hdone, if_neg hleft]
      rcases hframe : s.decodeFrame dec with ⟨s', _ | _, events⟩
      · rw [hframe] at hconforms hsound hcall' hrefused
        obtain ⟨hempty, refused, hrun, hwhy⟩ := hrefused rfl
        have hstarved : EventLog.Accounts Follows Heard.after Heard.Allowed
            (Machine.run Heard.after s.heard events) ({ s' with call := none }, [.starved]) := by
          rw [hrun]
          exact EventLog.Accounts.event ⟨⟨hempty, call, hcall'.trans hcall, hwants⟩, hwhy⟩
            ⟨⟨hsound.buffer, hsound.within, hsound.aligned, hsound.bounded⟩, rfl⟩
        refine ⟨Machine.allSteps_append.mpr ⟨hconforms, hstarved.1⟩, ?_⟩
        rw [Machine.run_append]
        exact hstarved.2
      · rw [hframe] at hconforms hsound hcall' hdecoded
        have hready : Follows { s' with pcmPos := 0 } (Machine.run Heard.after s.heard events) :=
          ⟨⟨hsound.buffer, Nat.zero_le _, rfl, hsound.bounded⟩, hdecoded rfl⟩
        have hdecodes : EventLog.Accounts Follows Heard.after Heard.Allowed s.heard
            ({ s' with pcmPos := 0 }, events) := ⟨hconforms, hready⟩
        refine hdecodes.append ?_
        rw [hready.2]
        exact copyChunk_accounts hready.1 (hcall'.trans hcall) hwants (by decide : 0 < frameSamples)

theorem step_accounts (dec : StreamDecoder δ α) (clamp : ν → ν) (s : StreamAudioPlayer δ α ν)
    (h : Heard α ν) (op : Op ν) (hfollows : s.Follows h) :
    EventLog.Accounts Follows Heard.after Heard.Allowed h (s.step dec clamp op) := by
  obtain ⟨hs, rfl⟩ := hfollows
  obtain ⟨hbuffer, hwithin, haligned, hbounded⟩ := id hs
  cases op with
  | pushPacket packet => exact pushPacket_accounts hs packet
  | setVolume volume =>
      exact EventLog.Accounts.event trivial ⟨⟨hbuffer, hwithin, haligned, hbounded⟩, rfl⟩
  | mixOutput frameCount =>
      simp only [step]
      split
      · exact EventLog.Accounts.quiet ⟨hs, rfl⟩
      · next hcall =>
        split
        · exact EventLog.Accounts.quiet ⟨hs, rfl⟩
        · exact EventLog.Accounts.event hcall ⟨⟨hbuffer, hwithin, haligned, hbounded⟩, rfl⟩
  | turn =>
      simp only [step]
      split
      · next call hcall => exact turn_accounts dec hs hcall
      · exact EventLog.Accounts.quiet ⟨hs, rfl⟩
  | shutdown =>
      exact EventLog.Accounts.quiet ⟨⟨hbuffer, hwithin, haligned, hbounded⟩, rfl⟩

theorem run_accounts (dec : StreamDecoder δ α) (clamp : ν → ν) (decoder : δ) (silence : α)
    (volume : ν) (ops : List (Op ν)) :
    EventLog.Accounts Follows Heard.after Heard.Allowed { volume }
      (run dec clamp (initialized decoder silence volume) ops) := by
  have hfollows : Follows (initialized decoder silence volume) { volume } := by
    refine ⟨⟨List.length_replicate, le_refl _, (by decide : frameSamples % kChannels = 0),
      Nat.zero_le _⟩, ?_⟩
    simp [heard, initialized]
  exact EventLog.run_accounts (step_accounts dec clamp) hfollows ops

/-- In every run the player does what the history of its events allows: packets are handled in the
order they arrived, each of them once, and the callbacks are given the decoded frames end to end. -/
theorem heard_in_order (dec : StreamDecoder δ α) (clamp : ν → ν) (decoder : δ) (silence : α)
    (volume : ν) (ops : List (Op ν)) :
    let log := (run dec clamp (initialized decoder silence volume) ops).2
    let last := Machine.run Heard.after { volume } log
    Machine.AllSteps Heard.after Heard.Allowed { volume } log ∧
      handledPackets log ++ last.waiting = arrivedPackets log ∧
      mixedSamples log ++ last.audible = decodedSamples log := by
  obtain ⟨hconforms, -⟩ := run_accounts dec clamp decoder silence volume ops
  exact ⟨hconforms, packets_of_conforms hconforms, samples_of_conforms hconforms⟩

end StreamAudioPlayer

end Parties.Voice

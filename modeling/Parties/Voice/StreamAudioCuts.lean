import Parties.Voice.StreamAudioOrder

/-!
# Callbacks of any size

How much the audio device asks for at a time does not matter: as long as there is audio, callbacks
of any sizes are given what one callback of their total size is. The loop of `mix_output` is shown
to read one frame after the other, whatever chunks it copies.
-/

namespace Parties.Voice

variable {δ α ν : Type}

namespace StreamAudioPlayer

/-! ### One frame after the other -/

/-- The next frame for the listener: from the buffer, or from a newly decoded one. -/
def nextFrame (dec : StreamDecoder δ α) (s : StreamAudioPlayer δ α ν) :
    Option (StreamAudioPlayer δ α ν × List α) :=
  if s.pcmPos < frameSamples then
    some ({ s with pcmPos := s.pcmPos + kChannels }, (s.pcmBuf.drop s.pcmPos).take kChannels)
  else
    match s.decodeFrame dec with
    | (s, true, _) => some ({ s with pcmPos := kChannels }, s.pcmBuf.take kChannels)
    | (_, false, _) => none

/-- The next `count` frames, if there are so many. -/
def frames (dec : StreamDecoder δ α) :
    Nat → StreamAudioPlayer δ α ν → Option (StreamAudioPlayer δ α ν × List α)
  | 0, s => some (s, [])
  | count + 1, s => do
    let (s, frame) ← s.nextFrame dec
    let (s, rest) ← frames dec count s
    return (s, frame ++ rest)

theorem frames_add (dec : StreamDecoder δ α) (m n : Nat) (s : StreamAudioPlayer δ α ν) :
    frames dec (m + n) s = do
      let (s, front) ← frames dec m s
      let (s, rest) ← frames dec n s
      return (s, front ++ rest) := by
  induction m generalizing s with
  | zero => simp [frames]
  | succ m ih =>
      rw [Nat.succ_add]
      simp only [frames]
      rcases s.nextFrame dec with _ | ⟨s', frame⟩
      · rfl
      · simp [ih, Option.bind_assoc]

theorem frames_buffered (dec : StreamDecoder δ α) {count : Nat} {s : StreamAudioPlayer δ α ν}
    (hwithin : s.pcmPos + count * kChannels ≤ frameSamples) :
    frames dec count s = some ({ s with pcmPos := s.pcmPos + count * kChannels },
      (s.pcmBuf.drop s.pcmPos).take (count * kChannels)) := by
  induction count generalizing s with
  | zero => simp [frames]
  | succ count ih =>
      have hnext : s.pcmPos < frameSamples := by
        simp only [kChannels] at hwithin
        omega
      have hrest : s.pcmPos + kChannels + count * kChannels ≤ frameSamples := by
        simp only [kChannels] at hwithin ⊢
        omega
      have hsplit := @List.take_add _ (s.pcmBuf.drop s.pcmPos) kChannels (count * kChannels)
      have hsum : (count + 1) * kChannels = kChannels + count * kChannels := by
        simp only [kChannels]
        omega
      simp only [frames, nextFrame, if_pos hnext, Option.bind_eq_bind, Option.bind_some,
        @ih { s with pcmPos := s.pcmPos + kChannels } hrest, hsum, Nat.add_assoc]
      simpa [List.drop_drop] using hsplit.symm

/-- A frame that is decoded for its first sample could have been decoded before. -/
theorem frames_refilled (dec : StreamDecoder δ α) {count : Nat} {s s' : StreamAudioPlayer δ α ν}
    {events : List (PlayerEvent α ν)} (hused : frameSamples ≤ s.pcmPos)
    (hdecoded : s.decodeFrame dec = (s', true, events)) :
    frames dec (count + 1) s = frames dec (count + 1) { s' with pcmPos := 0 } := by
  have hnext : s.nextFrame dec = nextFrame dec { s' with pcmPos := 0 } := by
    simp [nextFrame, if_neg (not_lt.mpr hused), hdecoded, kFrameSize, kChannels]
  simp only [frames, hnext]

/-! ### The callback does not matter to the frames -/

theorem decodeFrame_call (dec : StreamDecoder δ α) (s : StreamAudioPlayer δ α ν)
    (call : Option (MixCall ν)) : decodeFrame dec { s with call } =
      ({ (s.decodeFrame dec).1 with call }, (s.decodeFrame dec).2) := by
  simp only [decodeFrame, decode]
  grind

theorem frames_call (dec : StreamDecoder δ α) (count : Nat) (s : StreamAudioPlayer δ α ν)
    (call : Option (MixCall ν)) : frames dec count { s with call } =
      (frames dec count s).map fun r => ({ r.1 with call }, r.2) := by
  induction count generalizing s with
  | zero => rfl
  | succ count ih =>
      have hnext : nextFrame dec { s with call } =
          (s.nextFrame dec).map fun r => ({ r.1 with call }, r.2) := by
        simp only [nextFrame, decodeFrame_call]
        split
        · rfl
        · rcases s.decodeFrame dec with ⟨s', _ | _, events⟩ <;> rfl
      simp only [frames, hnext]
      rcases s.nextFrame dec with _ | ⟨s', frame⟩
      · rfl
      · simp only [Option.map_some, Option.bind_eq_bind, Option.bind_some, ih]
        rcases frames dec count s' with _ | ⟨s'', rest⟩ <;> rfl

/-- The callback is given nothing by these events, and they do not end it. -/
def Silent (events : List (PlayerEvent α ν)) : Prop :=
  mixedSamples events = [] ∧ .starved ∉ events

theorem decode_silent (dec : StreamDecoder δ α) (s : StreamAudioPlayer δ α ν)
    (packet : Option Bytes) : Silent (s.decode dec packet).2.2 := by
  simp only [decode]
  split
  · simp [Silent, mixedSamples]
  · simp [Silent, mixedSamples]

theorem decodeFrame_silent (dec : StreamDecoder δ α) (s : StreamAudioPlayer δ α ν) :
    Silent (s.decodeFrame dec).2.2 := by
  simp only [decodeFrame]
  split
  · simp [Silent, mixedSamples]
  · split
    · exact decode_silent dec _ _
    · split
      · exact decode_silent dec _ _
      · simp [Silent, mixedSamples]

/-! ### A callback reads frames -/

/-- The calls of one callback: every turn writes a frame at least, so that one turn more than there
are frames is enough. -/
def callbackOps (frameCount : Nat) : List (Op ν) :=
  .mixOutput frameCount :: List.replicate (frameCount + 1) .turn

def callback (dec : StreamDecoder δ α) (clamp : ν → ν) (s : StreamAudioPlayer δ α ν)
    (frameCount : Nat) : StreamAudioPlayer δ α ν × List (PlayerEvent α ν) :=
  run dec clamp s (callbackOps frameCount)

/-- What the callback was given is what could be read; it was starved if there was not so much. -/
def Gives (r : StreamAudioPlayer δ α ν × List (PlayerEvent α ν)) :
    Option (StreamAudioPlayer δ α ν × List α) → Prop
  | some (s, samples) => r.1 = { s with call := none } ∧ mixedSamples r.2 = samples ∧ .starved ∉ r.2
  | none => .starved ∈ r.2

section

variable {dec : StreamDecoder δ α} {clamp : ν → ν} {s : StreamAudioPlayer δ α ν} {call : MixCall ν}

theorem run_append (xs ys : List (Op ν)) :
    run dec clamp s (xs ++ ys) = ((run dec clamp (run dec clamp s xs).1 ys).1,
      (run dec clamp s xs).2 ++ (run dec clamp (run dec clamp s xs).1 ys).2) := by
  rw [run, Machine.run_append]
  exact Machine.run_logged _ _ _ _

theorem run_cons (op : Op ν) (ops : List (Op ν)) :
    run dec clamp s (op :: ops) = ((run dec clamp (s.step dec clamp op).1 ops).1,
      (s.step dec clamp op).2 ++ (run dec clamp (s.step dec clamp op).1 ops).2) :=
  run_append [op] ops

theorem turns_idle (hidle : s.call = none) (count : Nat) :
    run dec clamp s (List.replicate count .turn) = (s, []) := by
  induction count with
  | zero => rfl
  | succ count ih =>
      rw [List.replicate_succ, run_cons]
      simp [step, hidle, ih]

theorem Gives.behind {r : StreamAudioPlayer δ α ν × List (PlayerEvent α ν)}
    {o : Option (StreamAudioPlayer δ α ν × List α)} {events : List (PlayerEvent α ν)}
    (hgives : Gives r o) (hevents : .starved ∉ events) :
    Gives (r.1, events ++ r.2) (o.map fun p => (p.1, mixedSamples events ++ p.2)) := by
  rcases o with _ | ⟨s', samples⟩
  · exact List.mem_append_right _ hgives
  · obtain ⟨hstate, hsamples, hfed⟩ := hgives
    refine ⟨hstate, ?_, ?_⟩
    · simpa [mixedSamples] using hsamples
    · simp [hevents, hfed]

theorem Gives.silent {r : StreamAudioPlayer δ α ν × List (PlayerEvent α ν)}
    {o : Option (StreamAudioPlayer δ α ν × List α)} {events : List (PlayerEvent α ν)}
    (hgives : Gives r o) (hevents : Silent events) : Gives (r.1, events ++ r.2) o := by
  have hbehind := hgives.behind hevents.2
  simpa [hevents.1] using hbehind

/-- Which callback reads the frames is forgotten when it is over. -/
theorem gives_call {r : StreamAudioPlayer δ α ν × List (PlayerEvent α ν)}
    {o : Option (StreamAudioPlayer δ α ν × List α)} {call : Option (MixCall ν)} :
    Gives r (o.map fun p => ({ p.1 with call }, p.2)) ↔ Gives r o := by
  rcases o with _ | ⟨s', samples⟩ <;> rfl

variable (dec) in
/-- A chunk is so many frames. -/
theorem copyChunk_gives (hs : s.Sound) (hwants : call.written < call.frameCount)
    (hleft : s.pcmPos < frameSamples) :
    ∃ chunk, 0 < chunk ∧ chunk ≤ call.frameCount - call.written ∧
      (s.copyChunk call).1.call = some { call with written := call.written + chunk } ∧
      ∀ r, Gives r (frames dec (call.frameCount - (call.written + chunk)) (s.copyChunk call).1) →
        Gives (r.1, (s.copyChunk call).2 ++ r.2)
          (frames dec (call.frameCount - call.written) s) := by
  obtain ⟨chunk, hchunk⟩ :
      ∃ chunk, min ((frameSamples - s.pcmPos) / kChannels) (call.frameCount - call.written) = chunk :=
    ⟨_, rfl⟩
  have haligned := hs.aligned
  have hsome : 0 < chunk ∧ chunk ≤ call.frameCount - call.written ∧
      s.pcmPos + chunk * kChannels ≤ frameSamples := by
    simp only [frameSamples, kFrameSize, kChannels] at *
    omega
  obtain ⟨hpos, hwanted, hwithin⟩ := hsome
  refine ⟨chunk, hpos, hwanted, by simp only [copyChunk, hchunk], fun r hr => ?_⟩
  have hcount : call.frameCount - call.written =
      chunk + (call.frameCount - (call.written + chunk)) := by omega
  have hfed : PlayerEvent.starved ∉ (s.copyChunk call).2 := by simp [copyChunk]
  have hread : Gives r (frames dec (call.frameCount - (call.written + chunk))
      { s with pcmPos := s.pcmPos + chunk * kChannels }) := by
    rw [← gives_call, ← frames_call]
    simpa only [copyChunk, hchunk] using hr
  have hbehind := hread.behind hfed
  rw [hcount, frames_add, frames_buffered dec hwithin]
  simp only [copyChunk, hchunk] at hbehind ⊢
  simpa [mixedSamples, Option.map_eq_bind, Function.comp_def] using hbehind

theorem turns_done (hcall : s.call = some call) (hdone : call.frameCount ≤ call.written)
    (count : Nat) : Gives (run dec clamp s (List.replicate (count + 1) .turn))
      (frames dec (call.frameCount - call.written) s) := by
  have hturn : s.step dec clamp .turn = ({ s with call := none }, [.finished]) := by
    simp [step, hcall, turn, hdone]
  rw [Nat.sub_eq_zero_of_le hdone, List.replicate_succ, run_cons, hturn, turns_idle rfl]
  exact ⟨rfl, rfl, by simp⟩

/-- The turns of a callback read what it still wants. -/
theorem turns_give {fuel : Nat} (hs : s.Sound) (hcall : s.call = some call)
    (hfuel : call.frameCount - call.written ≤ fuel) :
    Gives (run dec clamp s (List.replicate (fuel + 1) .turn))
      (frames dec (call.frameCount - call.written) s) := by
  induction fuel generalizing s call with
  | zero => exact turns_done hcall (Nat.le_of_sub_eq_zero (Nat.le_zero.mp hfuel)) 0
  | succ fuel ih =>
      by_cases hdone : call.frameCount ≤ call.written
      · exact turns_done hcall hdone _
      · have hwants : call.written < call.frameCount := not_le.mp hdone
        rw [List.replicate_succ, run_cons]
        by_cases hleft : s.pcmPos < frameSamples
        · obtain ⟨chunk, hpos, hwanted, hcall', hgives⟩ :=
            copyChunk_gives dec hs hwants hleft
          have hturn : s.step dec clamp .turn = s.copyChunk call := by
            simp only [step, hcall, turn, if_neg hdone, if_pos hleft]
          have hsound := (copyChunk_accounts hs hcall hwants hleft).2.1
          rw [hturn]
          exact hgives _ (ih hsound hcall' (by simp only; omega))
        · have hused := not_lt.mp hleft
          obtain ⟨-, hsound, hcall', -⟩ :=
            decodeFrame_refills dec hs (hs.wanting hcall hwants hused)
          have hsilent := decodeFrame_silent dec s
          obtain ⟨count, hcount⟩ : ∃ count, call.frameCount - call.written = count + 1 :=
            Nat.exists_eq_succ_of_ne_zero (Nat.sub_ne_zero_of_lt hwants)
          rcases hframe : s.decodeFrame dec with ⟨s', _ | _, events⟩
          · have hturn : s.step dec clamp .turn = ({ s' with call := none }, events ++ [.starved]) := by
              simp only [step, hcall, turn, if_neg hdone, if_neg hleft, hframe]
            have hnone : frames dec (count + 1) s = none := by
              simp only [frames, nextFrame, if_neg hleft, hframe]
              rfl
            rw [hturn, turns_idle rfl, hcount, hnone]
            simp [Gives]
          · rw [hframe] at hsound hcall' hsilent
            have hready : Sound { s' with pcmPos := 0 } :=
              ⟨hsound.buffer, Nat.zero_le _, rfl, hsound.bounded⟩
            obtain ⟨chunk, hpos, hwanted, hcopied, hgives⟩ :=
              copyChunk_gives dec hready hwants (by decide : 0 < frameSamples)
            have hturn : s.step dec clamp .turn =
                ((copyChunk { s' with pcmPos := 0 } call).1,
                  events ++ (copyChunk { s' with pcmPos := 0 } call).2) := by
              simp only [step, hcall, turn, if_neg hdone, if_neg hleft, hframe]
            have hcopy := (copyChunk_accounts hready (hcall'.trans hcall) hwants
              (by decide : 0 < frameSamples)).2.1
            have hrest := hgives _ (ih hcopy hcopied (by simp only; omega))
            rw [hcount, ← frames_refilled dec hused hframe, ← hcount] at hrest
            rw [hturn, List.append_assoc]
            exact hrest.silent hsilent

variable (dec clamp)

theorem callback_gives (hs : s.Sound) (hinitialized : s.decoderInitialized = true)
    (hidle : s.call = none) (frameCount : Nat) :
    Gives (callback dec clamp s frameCount) (frames dec frameCount s) := by
  have hbegan : s.step dec clamp (.mixOutput frameCount) =
      ({ s with call := some { frameCount, volume := s.volume } }, [.began frameCount]) := by
    simp [step, hidle, hinitialized]
  have hturns := @turns_give _ _ _ dec clamp { s with call := some { frameCount, volume := s.volume } }
    _ frameCount ⟨hs.buffer, hs.within, hs.aligned, hs.bounded⟩ rfl (Nat.le_refl _)
  rw [frames_call, gives_call] at hturns
  rw [callback, callbackOps, run_cons, hbegan]
  exact hturns.silent ⟨rfl, by simp⟩

theorem callback_shut_down (hshut : s.decoderInitialized = false) (hidle : s.call = none)
    (frameCount : Nat) : callback dec clamp s frameCount = (s, []) := by
  have hignored : s.step dec clamp (.mixOutput frameCount) = (s, []) := by
    simp [step, hidle, hshut]
  rw [callback, callbackOps, run_cons, hignored, turns_idle hidle]
  rfl

theorem callbacks_shut_down (hshut : s.decoderInitialized = false) (hidle : s.call = none)
    (sizes : List Nat) : run dec clamp s (sizes.flatMap callbackOps) = (s, []) := by
  induction sizes with
  | nil => rfl
  | cons size sizes ih =>
      have hfirst : run dec clamp s (callbackOps size) = (s, []) :=
        callback_shut_down dec clamp hshut hidle size
      rw [List.flatMap_cons, run_append, hfirst, ih]
      rfl

theorem decodeFrame_keeps : (s.decodeFrame dec).1.decoderInitialized = s.decoderInitialized ∧
    (s.decodeFrame dec).1.call = s.call := by
  simp only [decodeFrame, decode]
  grind

theorem frames_keep {count : Nat} {s' : StreamAudioPlayer δ α ν} {samples : List α}
    (hframes : frames dec count s = some (s', samples)) :
    s'.decoderInitialized = s.decoderInitialized ∧ s'.call = s.call := by
  induction count generalizing s samples with
  | zero =>
      obtain ⟨rfl, rfl⟩ : s = s' ∧ [] = samples := by simpa [frames] using hframes
      exact ⟨rfl, rfl⟩
  | succ count ih =>
      simp only [frames, Option.bind_eq_bind, Option.bind_eq_some_iff, Option.pure_def] at hframes
      obtain ⟨⟨s₁, frame⟩, hnext, ⟨s₂, rest⟩, hrest, hdone⟩ := hframes
      obtain ⟨rfl, -⟩ : s₂ = s' ∧ frame ++ rest = samples := by simpa using hdone
      obtain ⟨hinitialized, hcall⟩ := ih hrest
      have hkeeps := @decodeFrame_keeps _ _ _ dec s
      rw [hinitialized, hcall]
      simp only [nextFrame] at hnext
      split at hnext
      · obtain ⟨rfl, -⟩ := Prod.mk.inj (Option.some.inj hnext)
        exact ⟨rfl, rfl⟩
      · rcases hframe : s.decodeFrame dec with ⟨s₃, _ | _, events⟩
        · simp [hframe] at hnext
        · simp only [hframe] at hnext hkeeps
          obtain ⟨rfl, -⟩ := Prod.mk.inj (Option.some.inj hnext)
          exact hkeeps

theorem run_sound (hs : s.Sound) (ops : List (Op ν)) : (run dec clamp s ops).1.Sound :=
  (EventLog.run_accounts (step_accounts dec clamp) ⟨hs, rfl⟩ ops).2.1

/-- Callbacks of these sizes read as many frames as there are. -/
theorem callbacks_give {sizes : List Nat} {s' : StreamAudioPlayer δ α ν} {samples : List α}
    (hs : s.Sound) (hinitialized : s.decoderInitialized = true) (hidle : s.call = none)
    (hframes : frames dec sizes.sum s = some (s', samples)) :
    Gives (run dec clamp s (sizes.flatMap callbackOps)) (some (s', samples)) := by
  induction sizes generalizing s samples with
  | nil =>
      obtain ⟨rfl, rfl⟩ : s = s' ∧ [] = samples := by simpa [frames] using hframes
      exact ⟨by simp [run, hidle.symm], rfl, by simp [run]⟩
  | cons size sizes ih =>
      simp only [List.sum_cons, frames_add, Option.bind_eq_bind, Option.bind_eq_some_iff,
        Option.pure_def] at hframes
      obtain ⟨⟨s₁, front⟩, hfront, ⟨s₂, rest⟩, hrest, hdone⟩ := hframes
      obtain ⟨rfl, rfl⟩ : s₂ = s' ∧ front ++ rest = samples := by simpa using hdone
      obtain ⟨hinitialized₁, hidle₁⟩ := frames_keep dec hfront
      have hgives := callback_gives dec clamp hs hinitialized hidle size
      rw [hfront] at hgives
      obtain ⟨hstate, hsamples, hfed⟩ := hgives
      have hstate : (callback dec clamp s size).1 = s₁ := by
        rw [hstate, ← hidle, ← hidle₁]
      have hsound := run_sound dec clamp hs (callbackOps size)
      change (callback dec clamp s size).1.Sound at hsound
      rw [hstate] at hsound
      have hlater := ih hsound (hinitialized₁.trans hinitialized) (hidle₁.trans hidle) hrest
      have hwhole := hlater.behind hfed
      rw [hsamples] at hwhole
      rw [List.flatMap_cons, run_append]
      change Gives ((run dec clamp (callback dec clamp s size).1 _).1,
        (callback dec clamp s size).2 ++ (run dec clamp (callback dec clamp s size).1 _).2) _
      rw [hstate]
      exact hwhole

/-- In every state reached between two callbacks, callbacks of any sizes are given what one callback
of their total size is, if there is enough for that one. -/
theorem callbacks_cut (decoder : δ) (silence : α) (volume : ν) (ops : List (Op ν))
    (sizes : List Nat) (hidle : (run dec clamp (initialized decoder silence volume) ops).1.call = none)
    (hfed : .starved ∉ (callback dec clamp
      (run dec clamp (initialized decoder silence volume) ops).1 sizes.sum).2) :
    let s := (run dec clamp (initialized decoder silence volume) ops).1
    let cut := run dec clamp s (sizes.flatMap callbackOps)
    let whole := callback dec clamp s sizes.sum
    cut.1 = whole.1 ∧ mixedSamples cut.2 = mixedSamples whole.2 ∧ .starved ∉ cut.2 := by
  intro s cut whole
  have hs : s.Sound := (run_accounts dec clamp decoder silence volume ops).2.1
  rcases hinitialized : s.decoderInitialized with _ | _
  · have hwhole : whole = (s, []) := callback_shut_down dec clamp hinitialized hidle sizes.sum
    have hcut : cut = (s, []) := callbacks_shut_down dec clamp hinitialized hidle sizes
    rw [hwhole, hcut]
    exact ⟨rfl, rfl, by simp⟩
  · have hgives : Gives whole (frames dec sizes.sum s) :=
      callback_gives dec clamp hs hinitialized hidle sizes.sum
    rcases hframes : frames dec sizes.sum s with _ | ⟨s', samples⟩
    · rw [hframes] at hgives
      exact absurd hgives hfed
    · rw [hframes] at hgives
      obtain ⟨hstate, hsamples, -⟩ := hgives
      obtain ⟨hstate', hsamples', hfed'⟩ := callbacks_give dec clamp hs hinitialized hidle hframes
      exact ⟨hstate'.trans hstate.symm, hsamples'.trans hsamples.symm, hfed'⟩

/-- Three frames at once, or one and two. -/
theorem callbacks_cut_three :
    let s := (run StreamDecoder.flat id (initialized () 0 1)
      [.pushPacket [1], .pushPacket [1, 2], .pushPacket [1, 2, 3]]).1
    let cut := run StreamDecoder.flat id s ([1, 2].flatMap callbackOps)
    let whole := callback StreamDecoder.flat id s [1, 2].sum
    cut.1 = whole.1 ∧ mixedSamples cut.2 = mixedSamples whole.2 ∧ .starved ∉ cut.2 :=
  callbacks_cut StreamDecoder.flat id () 0 1 _ [1, 2] rfl (by decide +kernel)

end

end StreamAudioPlayer

end Parties.Voice

import Mathlib.Data.List.Basic
import Mathlib.Data.Nat.Cast.Order.Ring
import Parties.Lib.Machine
import Parties.Voice.Mixer

/-!
# The capture path

Mirror of `AudioEngine::process_capture` (`client/src/audio_engine.cpp`): samples
are collected into frames of 10 ms, and frames that are neither muted nor cut by
the voice activity detection into Opus frames of two. The echo canceller, the
denoiser and the encoder are functions of one frame and their own state. Each
call also reports what became of the samples, in order; no branch reads that
report.
-/

namespace Parties.Voice

def FRAME_SIZE : Nat := 480
def VAD_HOLD_COUNT : Nat := 30

/-- The samples of 10 ms. -/
abbrev Frame (F : Type) : Type := { samples : List F // samples.length = FRAME_SIZE }

/-- The signal processing of the capture path; `F` is the type of samples, levels
and thresholds. -/
structure Dsp (F Filter : Type) where
  /-- The echo canceller, which works in place. -/
  processCapture : Filter → Frame F → Filter × Frame F
  denoise : Filter → Frame F → Filter × Frame F
  rms : Frame F → F
  /-- The level against the threshold in the perceptual scale. -/
  reaches : F → F → Bool
  /-- The packet, empty if the encoder fails. -/
  encode : Filter → List F → Filter × Bytes

/-- What became of the samples: copied into the frame being captured, which is
then dropped, cut, held for its successor or encoded together with the frame
held before. A mute stands between them. -/
inductive Event where
  | copied (samples : Nat)
  | dropped
  | cut
  | held
  | encoded (packet : Bytes)
  | muted
deriving DecidableEq, Repr

/-- The buffers hold what the source keeps below their positions. -/
structure CaptureEngine (F Filter : Type) where
  filter : Filter
  vadThreshold : F
  voiceLevel : F
  captureBuf : List F := []
  encodeBuf : List F := []
  muted : Bool := false
  onEncodedFrame : Bool := false
  denoiseEnabled : Bool := true
  vadEnabled : Bool := true
  vadHoldFrames : Nat := 0
  transmitting : Bool := false
  room : captureBuf.length < FRAME_SIZE := by simp [FRAME_SIZE]

namespace CaptureEngine

variable {F Filter : Type}

/-- The voice activity check of a frame: the hold it leaves, or `none` for a cut. -/
def vad (d : Dsp F Filter) (e : CaptureEngine F Filter) (rms : F) : Option Nat :=
  if !e.vadEnabled then some e.vadHoldFrames
  else if d.reaches rms e.vadThreshold then some VAD_HOLD_COUNT
  else if 0 < e.vadHoldFrames then some (e.vadHoldFrames - 1)
  else none

/-- Append a frame to the encode buffer, and encode the buffer once it is full. -/
def appendFrame (d : Dsp F Filter) (e : CaptureEngine F Filter) (processed : Frame F) :
    CaptureEngine F Filter × Event :=
  let encodeBuf := e.encodeBuf ++ processed.val
  if OPUS_FRAME_SIZE ≤ encodeBuf.length then
    let (filter, packet) := d.encode e.filter encodeBuf
    ({ e with filter, encodeBuf := [] }, .encoded packet)
  else ({ e with encodeBuf }, .held)

/-- The body of the loop for a full capture buffer. -/
def processFrame (d : Dsp F Filter) (e : CaptureEngine F Filter) (frame : Frame F) :
    CaptureEngine F Filter × Event :=
  let (filter, frame) := d.processCapture e.filter frame
  let e := { e with filter, captureBuf := [], room := Nat.zero_lt_succ _ }
  if e.muted || !e.onEncodedFrame then ({ e with transmitting := false }, .dropped)
  else
    let (filter, processed) :=
      if e.denoiseEnabled then d.denoise e.filter frame else (e.filter, frame)
    let e := { e with filter, voiceLevel := d.rms processed }
    match e.vad d e.voiceLevel with
    | none => ({ e with transmitting := false }, .cut)
    | some vadHoldFrames =>
      { e with vadHoldFrames, transmitting := true }.appendFrame d processed

/-- The number of samples the next copy takes. -/
def toCopy (e : CaptureEngine F Filter) (input : List F) : Nat :=
  min input.length (FRAME_SIZE - e.captureBuf.length)

theorem length_copied (e : CaptureEngine F Filter) (input : List F) :
    (e.captureBuf ++ input.take (e.toCopy input)).length ≤ FRAME_SIZE := by
  have hroom := e.room
  simp only [toCopy, List.length_append, List.length_take]
  omega

theorem toCopy_pos (e : CaptureEngine F Filter) {input : List F} (hinput : input ≠ []) :
    0 < e.toCopy input := by
  have hroom := e.room
  have hpos := List.length_pos_of_ne_nil hinput
  simp only [toCopy]
  omega

/-- Copy what fits into the capture buffer, and process the buffer once it is full. -/
def captureChunk (d : Dsp F Filter) (e : CaptureEngine F Filter) (input : List F) :
    CaptureEngine F Filter × List Event :=
  let buf := e.captureBuf ++ input.take (e.toCopy input)
  if hfull : FRAME_SIZE ≤ buf.length then
    let (e', event) := e.processFrame d ⟨buf, (e.length_copied input).antisymm hfull⟩
    (e', [.copied (e.toCopy input), event])
  else
    ({ e with captureBuf := buf, room := Nat.lt_of_not_le hfull }, [.copied (e.toCopy input)])

/-- `process_capture`: the loop over the samples of one callback. -/
def processCapture (d : Dsp F Filter) (e : CaptureEngine F Filter) (input : List F) :
    CaptureEngine F Filter × List Event :=
  if _hinput : input = [] then (e, [])
  else
    let (e', events) := e.captureChunk d input
    let (e'', rest) := processCapture d e' (input.drop (e.toCopy input))
    (e'', events ++ rest)
termination_by input.length
decreasing_by
  have hpos := e.toCopy_pos _hinput
  have hinput := List.length_pos_of_ne_nil _hinput
  rw [List.length_drop]
  omega

/-! ### The size of callbacks -/

/-- The events other than the copies. -/
def outcomes (events : List Event) : List Event :=
  events.filter fun
    | .copied _ => false
    | _ => true

section Callbacks

variable {d : Dsp F Filter} {e : CaptureEngine F Filter}

@[simp] theorem processCapture_nil : e.processCapture d [] = (e, []) := by
  rw [processCapture, dif_pos rfl]

theorem processCapture_of_chunk {input : List F} (hinput : input ≠ []) :
    e.processCapture d input =
      (((e.captureChunk d input).1.processCapture d (input.drop (e.toCopy input))).1,
        (e.captureChunk d input).2 ++
          ((e.captureChunk d input).1.processCapture d (input.drop (e.toCopy input))).2) := by
  rw [processCapture, dif_neg hinput]

/-- Samples that do not fill the buffer are only copied. -/
theorem processCapture_short {xs : List F} (hxs : xs ≠ [])
    (hroom : (e.captureBuf ++ xs).length < FRAME_SIZE) :
    e.processCapture d xs =
      ({ e with captureBuf := e.captureBuf ++ xs, room := hroom }, [.copied xs.length]) := by
  have hcopy : e.toCopy xs = xs.length := by
    rw [List.length_append] at hroom
    simp only [toCopy]
    omega
  have hchunk : e.captureChunk d xs =
      ({ e with captureBuf := e.captureBuf ++ xs, room := hroom }, [.copied xs.length]) := by
    unfold captureChunk
    simp only [hcopy, List.take_length]
    rw [dif_neg (Nat.not_le.mpr hroom)]
  rw [processCapture_of_chunk hxs, hchunk, hcopy, List.drop_length, processCapture_nil,
    List.append_nil]

/-- The samples of one frame, in step with the buffer. -/
theorem processCapture_frame (hempty : e.captureBuf = []) (frame : Frame F) :
    e.processCapture d frame.val =
      ((e.processFrame d frame).1, [.copied FRAME_SIZE, (e.processFrame d frame).2]) := by
  have hlength : frame.val.length = FRAME_SIZE := frame.property
  have hcopy : e.toCopy frame.val = FRAME_SIZE := by simp [toCopy, hempty, hlength]
  have htake : frame.val.take FRAME_SIZE = frame.val := List.take_of_length_le hlength.le
  have hdrop : frame.val.drop FRAME_SIZE = [] := List.drop_of_length_le hlength.le
  have hne : frame.val ≠ [] := by
    intro hnil
    simp [hnil, FRAME_SIZE] at hlength
  have hchunk : e.captureChunk d frame.val =
      ((e.processFrame d frame).1, [.copied FRAME_SIZE, (e.processFrame d frame).2]) := by
    unfold captureChunk
    simp only [hcopy, hempty, htake, List.nil_append]
    rw [dif_pos hlength.ge]
  rw [processCapture_of_chunk hne, hchunk, hcopy, hdrop, processCapture_nil, List.append_nil]

/-- Samples that fill the buffer decide the chunk, whatever follows them. -/
theorem captureChunk_filled (d : Dsp F Filter) {xs : List F} (ys : List F)
    (hfull : FRAME_SIZE ≤ (e.captureBuf ++ xs).length) :
    e.toCopy (xs ++ ys) = e.toCopy xs ∧ e.toCopy xs ≤ xs.length ∧
      e.captureChunk d (xs ++ ys) = e.captureChunk d xs := by
  have hle : e.toCopy xs ≤ xs.length := Nat.min_le_left _ _
  have hcopy : e.toCopy (xs ++ ys) = e.toCopy xs := by
    rw [List.length_append] at hfull
    simp only [toCopy, List.length_append]
    omega
  have htake : (xs ++ ys).take (e.toCopy xs) = xs.take (e.toCopy xs) :=
    List.take_append_of_le_length hle
  refine ⟨hcopy, hle, ?_⟩
  unfold captureChunk
  simp only [hcopy, htake]

/-- A chunk may be copied in two pieces, if the first does not fill the buffer. -/
theorem captureChunk_append (d : Dsp F Filter) {xs : List F} (ys : List F)
    (hroom : (e.captureBuf ++ xs).length < FRAME_SIZE) :
    let e' : CaptureEngine F Filter := { e with captureBuf := e.captureBuf ++ xs, room := hroom }
    e.toCopy (xs ++ ys) = xs.length + e'.toCopy ys ∧
      (e.captureChunk d (xs ++ ys)).1 = (e'.captureChunk d ys).1 ∧
      outcomes (e.captureChunk d (xs ++ ys)).2 = outcomes (e'.captureChunk d ys).2 := by
  intro e'
  have hcopy : e.toCopy (xs ++ ys) = xs.length + e'.toCopy ys := by
    simp only [toCopy, e', List.length_append] at hroom ⊢
    omega
  have hbuf : e.captureBuf ++ (xs ++ ys).take (e.toCopy (xs ++ ys)) =
      e'.captureBuf ++ ys.take (e'.toCopy ys) := by
    rw [hcopy, List.take_length_add_append, ← List.append_assoc]
  refine ⟨hcopy, ?_⟩
  unfold captureChunk
  simp only [hbuf]
  split
  · exact ⟨rfl, rfl⟩
  · exact ⟨rfl, rfl⟩

/-- The state after two callbacks, and what became of the frames, is that of one
callback with the samples of both. -/
theorem processCapture_append (xs ys : List F) :
    (e.processCapture d (xs ++ ys)).1 = ((e.processCapture d xs).1.processCapture d ys).1 ∧
      outcomes (e.processCapture d (xs ++ ys)).2 =
        outcomes (e.processCapture d xs).2 ++
          outcomes ((e.processCapture d xs).1.processCapture d ys).2 := by
  induction e, xs using processCapture.induct d with
  | case1 e =>
      rw [processCapture_nil]
      exact ⟨rfl, rfl⟩
  | case2 e xs hxs e' events hchunk e'' rest hloop ih =>
      have happend : xs ++ ys ≠ [] := by simp [hxs]
      rcases Nat.lt_or_ge (e.captureBuf ++ xs).length FRAME_SIZE with hroom | hfull
      · rw [processCapture_short hxs hroom]
        by_cases hys : ys = []
        · rw [hys, List.append_nil, processCapture_short hxs hroom, processCapture_nil]
          exact ⟨rfl, rfl⟩
        · obtain ⟨hcopy, hstate, hevents⟩ := captureChunk_append d ys hroom
          rw [processCapture_of_chunk happend, processCapture_of_chunk hys, hcopy, hstate,
            List.drop_length_add_append]
          refine ⟨rfl, ?_⟩
          simp only [outcomes, List.filter_append] at hevents ⊢
          rw [hevents]
          rfl
      · obtain ⟨hcopy, hle, hsame⟩ := captureChunk_filled d ys hfull
        rw [processCapture_of_chunk happend, processCapture_of_chunk hxs, hcopy, hsame,
          List.drop_append_of_le_length hle]
        rw [hchunk]
        refine ⟨ih.1, ?_⟩
        simp only [outcomes, List.filter_append] at ih ⊢
        rw [ih.2, List.append_assoc]

end Callbacks

/-! ### Runs -/

/-- What happens to the capture path: callbacks, and the setters of the engine. -/
inductive Op (F : Type) where
  | processCapture (input : List F)
  | setMuted (muted : Bool)
  | setOnEncodedFrame (present : Bool)
  | setDenoiseEnabled (enabled : Bool)
  | setVadEnabled (enabled : Bool)
  | setVadThreshold (threshold : F)

def setMuted (e : CaptureEngine F Filter) (muted : Bool) : CaptureEngine F Filter × List Event :=
  if muted then ({ e with muted := true, transmitting := false }, [.muted])
  else ({ e with muted := false }, [])

def step (d : Dsp F Filter) (e : CaptureEngine F Filter) :
    Op F → CaptureEngine F Filter × List Event
  | .processCapture input => e.processCapture d input
  | .setMuted muted => e.setMuted muted
  | .setOnEncodedFrame present => ({ e with onEncodedFrame := present }, [])
  | .setDenoiseEnabled enabled => ({ e with denoiseEnabled := enabled }, [])
  | .setVadEnabled enabled => ({ e with vadEnabled := enabled }, [])
  | .setVadThreshold threshold => ({ e with vadThreshold := threshold }, [])

/-- The engine as it is constructed. -/
def created (filter : Filter) (vadThreshold voiceLevel : F) : CaptureEngine F Filter :=
  { filter, vadThreshold, voiceLevel }

/-- What became of the samples over a run. -/
def events (d : Dsp F Filter) (e : CaptureEngine F Filter) (ops : List (Op F)) : List Event :=
  (Machine.run (Machine.logged (step d)) (e, []) ops).2

end CaptureEngine

end Parties.Voice

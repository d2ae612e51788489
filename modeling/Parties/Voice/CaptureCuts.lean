import Parties.Voice.Capture

/-!
# What an Opus frame is made of

The encode buffer of the capture path waits for a second frame of 10 ms. A mute,
a cut of the voice activity detection and a frame that is dropped reset the
capture buffer only, so the frame that waits survives them and is sent with the
first frame after them. The history below numbers the captured frames and
remembers the last mute or cut; a run is proper exactly if none of them comes
between a captured sample and the Opus frame it is encoded in.
-/

namespace Parties.Voice

/-- What has been captured: whole frames, samples of the next one, the number of
samples at the last mute or cut, and the frame held for its successor. -/
structure History where
  frames : Nat := 0
  part : Nat := 0
  lastCut : Nat := 0
  held : Option Nat := none
deriving DecidableEq, Repr

namespace History

/-- The number of samples captured so far. -/
def captured (h : History) : Nat := FRAME_SIZE * h.frames + h.part

/-- The frame being captured is complete. -/
def nextFrame (h : History) : History := { h with frames := h.frames + 1, part := 0 }

def observe (h : History) : Event → History
  | .copied samples => { h with part := h.part + samples }
  | .dropped => h.nextFrame
  | .cut => { h.nextFrame with lastCut := h.nextFrame.captured }
  | .held => { h.nextFrame with held := some h.frames }
  | .encoded _ => { h.nextFrame with held := none }
  | .muted => { h with lastCut := h.captured }

/-- An Opus frame is made of two frames captured consecutively, and if it is sent,
of samples captured after the last mute or cut. -/
def Proper (h : History) : Event → Prop
  | .encoded packet =>
    ∃ first, h.held = some first ∧ h.frames = first + 1 ∧
      (packet ≠ [] → h.lastCut ≤ FRAME_SIZE * first)
  | _ => True

/-- A mute, a cut and a dropped frame find no frame held, and a frame is held only
if no mute came after its first sample. -/
def Clean (h : History) : Event → Prop
  | .dropped => h.held = none
  | .cut => h.held = none
  | .muted => h.held = none
  | .held => h.lastCut ≤ FRAME_SIZE * h.frames
  | .copied _ => True
  | .encoded _ => True

/-- The next Opus frame. -/
def nextPacket : List Event → Option Bytes
  | [] => none
  | .encoded packet :: _ => some packet
  | _ :: events => nextPacket events

/-- The next Opus frame is sent. -/
def NextSent (events : List Event) : Prop :=
  ∃ packet, nextPacket events = some packet ∧ packet ≠ []

/-- Something is encoded after the event; after a mute, or the frame held, it has
to be sent as well. -/
def Matters (events : List Event) : Event → Prop
  | .dropped => nextPacket events ≠ none
  | .cut => nextPacket events ≠ none
  | .muted => NextSent events
  | .held => NextSent events
  | .copied _ => False
  | .encoded _ => False

/-! ### The order of events -/

/-- What the two buffers of the engine allow. -/
def Legal (h : History) : Event → Prop
  | .copied samples => h.part + samples ≤ FRAME_SIZE
  | .dropped => h.part = FRAME_SIZE
  | .cut => h.part = FRAME_SIZE
  | .held => h.part = FRAME_SIZE ∧ h.held = none
  | .encoded _ => h.part = FRAME_SIZE ∧ h.held ≠ none
  | .muted => h.part < FRAME_SIZE

/-- A frame that is held was captured before. -/
def HeldBefore (h : History) : Prop := ∀ first, h.held = some first → first < h.frames

theorem HeldBefore.observe {h : History} (hheld : HeldBefore h) (event : Event) :
    HeldBefore (h.observe event) := by
  intro first hfirst
  cases event with
  | copied samples => exact hheld first hfirst
  | dropped => exact Nat.lt_succ_of_lt (hheld first hfirst)
  | cut => exact Nat.lt_succ_of_lt (hheld first hfirst)
  | held =>
      obtain rfl : h.frames = first := by simpa [History.observe] using hfirst
      exact Nat.lt_succ_self _
  | encoded packet => simp [History.observe] at hfirst
  | muted => exact hheld first hfirst

/-- The frame that is held will be in order when the next Opus frame is encoded, if
nothing comes between. -/
def Waiting (h : History) (events : List Event) : Prop :=
  ∀ first, h.held = some first → ∀ packet, nextPacket events = some packet →
    h.frames = first + 1 ∧ (packet ≠ [] → h.lastCut ≤ FRAME_SIZE * first)

/-- A discarded frame separates the frame that is held from every later one. -/
theorem waiting_discarded {h h' : History} {events : List Event} (hheld : HeldBefore h)
    (hsame : h'.held = h.held) (hframes : h'.frames = h.frames + 1) :
    Waiting h' events ↔ (nextPacket events ≠ none → h.held = none) := by
  constructor
  · intro hwaiting hnext
    obtain ⟨packet, hpacket⟩ := Option.ne_none_iff_exists'.mp hnext
    cases hfirst : h.held with
    | none => rfl
    | some first =>
        have hconsecutive := (hwaiting first (hsame.trans hfirst) packet hpacket).1
        have hbefore := hheld first hfirst
        omega
  · intro hnone first hfirst packet hpacket
    have hempty := hnone (by simp [hpacket])
    rw [hsame, hempty] at hfirst
    cases hfirst

theorem waiting_of_none {h : History} {events : List Event}
    (hnone : nextPacket events ≠ none → h.held = none) : Waiting h events := by
  intro first hfirst packet hpacket
  have hempty := hnone (by simp [hpacket])
  rw [hempty] at hfirst
  cases hfirst

theorem waiting_muted {h : History} {events : List Event} (hheld : HeldBefore h) :
    Waiting (h.observe .muted) events ↔
      Waiting h events ∧ (NextSent events → h.held = none) := by
  have hcaptured : FRAME_SIZE * h.frames ≤ h.captured := Nat.le_add_right _ _
  constructor
  · intro hwaiting
    -- what is held was captured before the mute, so nothing that is sent can follow
    have hunsent : ∀ first, h.held = some first → ∀ packet, nextPacket events = some packet →
        h.frames = first + 1 ∧ packet = [] := by
      intro first hfirst packet hpacket
      obtain ⟨hconsecutive, hcut⟩ := hwaiting first hfirst packet hpacket
      refine ⟨hconsecutive, ?_⟩
      by_contra hsent
      have hlate : h.captured ≤ FRAME_SIZE * first := hcut hsent
      have hbefore : first < h.frames := hheld first hfirst
      simp only [FRAME_SIZE] at hlate hcaptured
      omega
    constructor
    · intro first hfirst packet hpacket
      obtain ⟨hconsecutive, hempty⟩ := hunsent first hfirst packet hpacket
      exact ⟨hconsecutive, fun hsent => absurd hempty hsent⟩
    · rintro ⟨packet, hpacket, hsent⟩
      cases hfirst : h.held with
      | none => rfl
      | some first => exact absurd (hunsent first hfirst packet hpacket).2 hsent
  · rintro ⟨hwaiting, hclean⟩ first hfirst packet hpacket
    refine ⟨(hwaiting first hfirst packet hpacket).1, ?_⟩
    intro hsent
    have hempty := hclean ⟨packet, hpacket, hsent⟩
    have hheld' : h.held = some first := hfirst
    rw [hempty] at hheld'
    cases hheld'

theorem waiting_held {h : History} {events : List Event} :
    Waiting (h.observe .held) events ↔
      (NextSent events → h.lastCut ≤ FRAME_SIZE * h.frames) := by
  constructor
  · rintro hwaiting ⟨packet, hpacket, hsent⟩
    exact (hwaiting h.frames rfl packet hpacket).2 hsent
  · intro hclean first hfirst packet hpacket
    obtain rfl : h.frames = first := by simpa [observe] using hfirst
    exact ⟨rfl, fun hsent => hclean ⟨packet, hpacket, hsent⟩⟩

theorem proper_encoded_iff {h : History} {packet : Bytes} {events : List Event}
    (hheld : h.held ≠ none) :
    Proper h (.encoded packet) ↔ Waiting h (.encoded packet :: events) := by
  obtain ⟨first, hfirst⟩ := Option.ne_none_iff_exists'.mp hheld
  constructor
  · rintro ⟨first', hfirst', hproper⟩ first'' hfirst'' packet' hpacket
    obtain rfl : first' = first'' := by simpa [hfirst'] using hfirst''
    obtain rfl : packet = packet' := by simpa [nextPacket] using hpacket
    exact hproper
  · intro hwaiting
    exact ⟨first, hfirst, hwaiting first hfirst packet rfl⟩

/-- One event: what is proper now and will be in order later was in order before
the event, and undisturbed by it. -/
theorem proper_waiting_iff {h : History} {event : Event} {events : List Event}
    (hlegal : Legal h event) (hheld : HeldBefore h) :
    Proper h event ∧ Waiting (h.observe event) events ↔
      Waiting h (event :: events) ∧ (Matters events event → Clean h event) := by
  cases event with
  | copied samples =>
      simp only [Proper, Matters, false_imp_iff, true_and, and_true]
      exact Iff.rfl
  | dropped =>
      have hdiscarded : Waiting (h.observe .dropped) events ↔ _ := waiting_discarded hheld rfl rfl
      simp only [Proper, Matters, Clean, true_and]
      rw [hdiscarded]
      exact (and_iff_right_of_imp waiting_of_none).symm
  | cut =>
      have hdiscarded : Waiting (h.observe .cut) events ↔ _ := waiting_discarded hheld rfl rfl
      simp only [Proper, Matters, Clean, true_and]
      rw [hdiscarded]
      exact (and_iff_right_of_imp waiting_of_none).symm
  | held =>
      simp only [Proper, Matters, Clean, true_and]
      rw [waiting_held]
      refine (and_iff_right ?_).symm
      exact waiting_of_none fun _ => hlegal.2
  | encoded packet =>
      simp only [Matters, false_imp_iff, and_true]
      rw [← proper_encoded_iff hlegal.2]
      refine and_iff_left ?_
      exact waiting_of_none fun _ => rfl
  | muted =>
      simp only [Proper, Matters, Clean, true_and]
      exact waiting_muted hheld

/-- Every event that matters for a later Opus frame leaves it alone. -/
def Undisturbed (h : History) (events : List Event) : Prop :=
  ∀ before event behind, events = before ++ event :: behind → Matters behind event →
    Clean (Machine.run observe h before) event

theorem undisturbed_cons {h : History} {event : Event} {events : List Event} :
    Undisturbed h (event :: events) ↔
      (Matters events event → Clean h event) ∧ Undisturbed (h.observe event) events := by
  constructor
  · intro hall
    refine ⟨hall [] event events rfl, ?_⟩
    intro before event' behind hsplit
    exact hall (event :: before) event' behind (by rw [hsplit, List.cons_append])
  · rintro ⟨hhead, htail⟩ before event' behind hsplit
    cases before with
    | nil =>
        obtain ⟨rfl, rfl⟩ := List.cons_eq_cons.mp hsplit
        exact hhead
    | cons first before =>
        obtain ⟨rfl, hrest⟩ := List.cons_eq_cons.mp hsplit
        exact htail before event' behind hrest

/-- From any history: the log is proper exactly if what is held will be in order
and nothing disturbs a later Opus frame. -/
theorem proper_iff_from {h : History} {events : List Event}
    (hlegal : Machine.AllSteps observe Legal h events) (hheld : HeldBefore h) :
    Machine.AllSteps observe Proper h events ↔ Waiting h events ∧ Undisturbed h events := by
  induction events generalizing h with
  | nil =>
      simp [Waiting, Undisturbed, nextPacket]
  | cons event events ih =>
      rw [Machine.allSteps_cons, ih hlegal.2 (hheld.observe event), undisturbed_cons,
        ← and_assoc, proper_waiting_iff hlegal.1 hheld, and_assoc]

end History

namespace CaptureEngine

open History (Legal Proper Clean Matters Undisturbed)

variable {F Filter : Type} {d : Dsp F Filter} {e : CaptureEngine F Filter} {h : History}

/-- The encode buffer is empty, or holds the frame of the history. -/
def HoldsFrame (e : CaptureEngine F Filter) (h : History) : Prop :=
  h.held = none ∧ e.encodeBuf = [] ∨ h.held ≠ none ∧ e.encodeBuf.length = FRAME_SIZE

/-- The buffers of the engine hold what the history says. -/
structure Linked (e : CaptureEngine F Filter) (h : History) : Prop where
  part : h.part = e.captureBuf.length
  held : e.HoldsFrame h

theorem appendFrame_linked {processed : Frame F} (hempty : e.captureBuf = [])
    (hpart : h.part = FRAME_SIZE) (hheld : e.HoldsFrame h) :
    Legal h (e.appendFrame d processed).2 ∧
      Linked (e.appendFrame d processed).1 (h.observe (e.appendFrame d processed).2) := by
  unfold appendFrame
  rcases hheld with ⟨hnone, hbuf⟩ | ⟨hsome, hlength⟩
  · have hfirst : ¬ OPUS_FRAME_SIZE ≤ (e.encodeBuf ++ processed.val).length := by
      simp [hbuf, processed.property, OPUS_FRAME_SIZE, FRAME_SIZE]
    rw [if_neg hfirst]
    refine ⟨⟨hpart, hnone⟩, ?_, Or.inr ⟨by simp [History.observe], ?_⟩⟩
    · simp [History.observe, History.nextFrame, hempty]
    · simp [hbuf, processed.property]
  · have hsecond : OPUS_FRAME_SIZE ≤ (e.encodeBuf ++ processed.val).length := by
      simp [hlength, processed.property, OPUS_FRAME_SIZE, FRAME_SIZE]
    rw [if_pos hsecond]
    refine ⟨⟨hpart, hsome⟩, ?_, Or.inl ⟨rfl, rfl⟩⟩
    simp [History.observe, History.nextFrame, hempty]

theorem processFrame_linked (frame : Frame F) (hpart : h.part = FRAME_SIZE)
    (hheld : e.HoldsFrame h) :
    Legal h (e.processFrame d frame).2 ∧
      Linked (e.processFrame d frame).1 (h.observe (e.processFrame d frame).2) := by
  unfold processFrame
  dsimp only
  split
  · exact ⟨hpart, rfl, hheld⟩
  · split
    · exact ⟨hpart, rfl, hheld⟩
    · exact appendFrame_linked rfl hpart hheld

theorem captureChunk_linked (hlinked : Linked e h) (input : List F) :
    Machine.AllSteps History.observe Legal h (e.captureChunk d input).2 ∧
      Linked (e.captureChunk d input).1
        (Machine.run History.observe h (e.captureChunk d input).2) := by
  have hpart : (h.observe (.copied (e.toCopy input))).part =
      (e.captureBuf ++ input.take (e.toCopy input)).length := by
    show h.part + e.toCopy input = _
    rw [hlinked.part, List.length_append, List.length_take]
    simp only [toCopy]
    omega
  have hcopied : Legal h (.copied (e.toCopy input)) := by
    show h.part + e.toCopy input ≤ FRAME_SIZE
    exact hpart.trans_le (e.length_copied input)
  unfold captureChunk
  dsimp only
  split
  next hfull =>
    have hframe : (h.observe (.copied (e.toCopy input))).part = FRAME_SIZE :=
      hpart.trans ((e.length_copied input).antisymm hfull)
    obtain ⟨hlegal, hnext⟩ := processFrame_linked (d := d)
      ⟨_, (e.length_copied input).antisymm hfull⟩ hframe hlinked.held
    exact ⟨⟨hcopied, hlegal, trivial⟩, hnext⟩
  · exact ⟨⟨hcopied, trivial⟩, hpart, hlinked.held⟩

theorem processCapture_linked {input : List F} (hlinked : Linked e h) :
    Machine.AllSteps History.observe Legal h (e.processCapture d input).2 ∧
      Linked (e.processCapture d input).1
        (Machine.run History.observe h (e.processCapture d input).2) := by
  induction e, input using processCapture.induct d generalizing h with
  | case1 e =>
      rw [processCapture, dif_pos rfl]
      exact ⟨trivial, hlinked⟩
  | case2 e input hinput e' events hchunk e'' rest hloop ih =>
      obtain ⟨hlegal, hnext⟩ := captureChunk_linked (d := d) hlinked input
      rw [hchunk] at hlegal hnext
      obtain ⟨hrest, hlast⟩ := ih hnext
      rw [processCapture, dif_neg hinput, hchunk]
      dsimp only
      rw [Machine.allSteps_append, Machine.run_append]
      exact ⟨⟨hlegal, hrest⟩, hlast⟩

theorem step_linked (hlinked : Linked e h) (op : Op F) :
    Machine.AllSteps History.observe Legal h (e.step d op).2 ∧
      Linked (e.step d op).1 (Machine.run History.observe h (e.step d op).2) := by
  cases op with
  | processCapture input => exact processCapture_linked hlinked
  | setMuted muted =>
      cases muted with
      | false => exact ⟨trivial, hlinked.part, hlinked.held⟩
      | true =>
          have hroom : h.part < FRAME_SIZE := hlinked.part.trans_lt e.room
          exact ⟨⟨hroom, trivial⟩, hlinked.part, hlinked.held⟩
  | setOnEncodedFrame present => exact ⟨trivial, hlinked.part, hlinked.held⟩
  | setDenoiseEnabled enabled => exact ⟨trivial, hlinked.part, hlinked.held⟩
  | setVadEnabled enabled => exact ⟨trivial, hlinked.part, hlinked.held⟩
  | setVadThreshold threshold => exact ⟨trivial, hlinked.part, hlinked.held⟩

theorem linked_created {filter : Filter} {vadThreshold voiceLevel : F} :
    Linked (created filter vadThreshold voiceLevel) {} :=
  ⟨rfl, Or.inl ⟨rfl, rfl⟩⟩

/-- Over a run the events come in a legal order and the buffers stay linked. -/
theorem events_linked (hlinked : Linked e h) (ops : List (Op F)) :
    Machine.AllSteps History.observe Legal h (events d e ops) ∧
      Linked (Machine.run (Machine.logged (step d)) (e, []) ops).1
        (Machine.run History.observe h (events d e ops)) := by
  induction ops generalizing e h with
  | nil => exact ⟨trivial, hlinked⟩
  | cons op ops ih =>
      obtain ⟨hlegal, hnext⟩ := step_linked (d := d) hlinked op
      obtain ⟨hrest, hlast⟩ := ih hnext
      have hevents : events d e (op :: ops) = (e.step d op).2 ++ events d (e.step d op).1 ops := by
        unfold events
        rw [Machine.run_cons, Machine.logged, List.nil_append, Machine.run_logged]
      have hstate : (Machine.run (Machine.logged (step d)) (e, []) (op :: ops)).1 =
          (Machine.run (Machine.logged (step d)) ((e.step d op).1, []) ops).1 := by
        rw [Machine.run_cons, Machine.logged, List.nil_append, Machine.run_logged]
      rw [hevents, hstate, Machine.allSteps_append, Machine.run_append]
      exact ⟨⟨hlegal, hrest⟩, hlast⟩

/-- For every run of callbacks of any sizes, mutes and settings: each Opus frame is
made of two frames captured consecutively, and is not sent if a mute or cut came
after its first sample, exactly if no mute, cut or dropped frame disturbs an Opus
frame encoded later. -/
theorem capture_proper_iff (d : Dsp F Filter) (filter : Filter) (vadThreshold voiceLevel : F)
    (ops : List (Op F)) :
    Machine.AllSteps History.observe Proper {}
        (events d (created filter vadThreshold voiceLevel) ops) ↔
      Undisturbed {} (events d (created filter vadThreshold voiceLevel) ops) := by
  have hlinked : Linked (created filter vadThreshold voiceLevel) {} := linked_created
  have hlegal := (events_linked (d := d) hlinked ops).1
  rw [History.proper_iff_from hlegal (fun first hfirst => by cases hfirst)]
  refine and_iff_right ?_
  exact History.waiting_of_none fun _ => rfl

/-- Signal processing that changes nothing, with packets of one byte. -/
def plainDsp : Dsp Unit Unit where
  processCapture filter frame := (filter, frame)
  denoise filter frame := (filter, frame)
  rms _ := ()
  reaches _ _ := true
  encode filter _ := (filter, [1])

def silence : Frame Unit := ⟨List.replicate FRAME_SIZE (), List.length_replicate⟩

/-- Three frames, the second of them muted. -/
def mutedFrame : List (Op Unit) :=
  [.setOnEncodedFrame true, .processCapture silence.val, .setMuted true,
    .processCapture silence.val, .setMuted false, .processCapture silence.val]

theorem events_mutedFrame :
    events plainDsp (created () () ()) mutedFrame =
      [.copied FRAME_SIZE, .held, .muted, .copied FRAME_SIZE, .dropped, .copied FRAME_SIZE,
        .encoded [1]] := by
  have hlength : silence.val.length = 480 := silence.property
  have hframe (e : CaptureEngine Unit Unit) (hempty : e.captureBuf = []) :=
    processCapture_frame (d := plainDsp) hempty silence
  have hecho (f : Unit) (x : Frame Unit) : plainDsp.processCapture f x = (f, x) := rfl
  have hdenoise (f : Unit) (x : Frame Unit) : plainDsp.denoise f x = (f, x) := rfl
  have hencode (f : Unit) (x : List Unit) : plainDsp.encode f x = (f, [1]) := rfl
  have hreaches (x y : Unit) : plainDsp.reaches x y = true := rfl
  simp [events, mutedFrame, Machine.logged, step, setMuted, hframe, created, processFrame, vad,
    appendFrame, hecho, hdenoise, hencode, hreaches, hlength, OPUS_FRAME_SIZE]

/-- The frame before a mute waits for the first frame after it, and both are sent as
one Opus frame. -/
theorem not_capture_proper :
    ¬ ∀ (F Filter : Type) (d : Dsp F Filter) (filter : Filter) (vadThreshold voiceLevel : F)
      (ops : List (Op F)), Machine.AllSteps History.observe Proper {}
        (events d (created filter vadThreshold voiceLevel) ops) := by
  intro hclaim
  have hproper := hclaim Unit Unit plainDsp () () () mutedFrame
  rw [events_mutedFrame] at hproper
  obtain ⟨first, hfirst, hconsecutive, _⟩ := hproper.2.2.2.2.2.2.1
  obtain rfl : 0 = first := by simpa [History.observe, History.nextFrame] using hfirst
  simp [History.observe, History.nextFrame] at hconsecutive

end CaptureEngine

end Parties.Voice

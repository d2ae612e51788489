import Mathlib.Data.List.Basic
import Parties.Voice.AudioDevices

/-!
# The devices are used in order

Whatever the system answers: a device is opened while it is closed, started while it is open and
closed once it is stopped, the microphone is started only beside the playback and, as the
playback, only in a voice channel, and another selection is applied or taken back as a whole.

To leave a channel the application first forgets it and then stops the devices. A stop asks for
no channel, so that the calls stay in order, but that the devices run only in a channel holds
between two operations and not within one.
-/

namespace Parties.Voice

/-! ### What has become of the devices -/

inductive DeviceState where
  | closed
  | stopped (device : Option Nat)
  | started (device : Option Nat)
deriving DecidableEq, Repr

namespace DeviceState

def start : DeviceState → DeviceState
  | .stopped device => .started device
  | s => s

def stop : DeviceState → DeviceState
  | .started device => .stopped device
  | s => s

def IsStopped (s : DeviceState) : Prop := ∃ device, s = .stopped device

def IsStarted (s : DeviceState) : Prop := ∃ device, s = .started device

end DeviceState

structure Devices where
  context : Bool := false
  captures : Nat := 0
  playbacks : Nat := 0
  capture : DeviceState := .closed
  playback : DeviceState := .closed
  inChannel : Bool := false
deriving DecidableEq, Repr

namespace Devices

def after (d : Devices) : DeviceCall → Devices
  | .contextInit captures playbacks =>
    { d with context := true, captures := captures, playbacks := playbacks }
  | .contextUninit => { d with context := false }
  | .captureInit device ok => if ok then { d with capture := .stopped device } else d
  | .playbackInit device ok => if ok then { d with playback := .stopped device } else d
  | .captureUninit => { d with capture := .closed }
  | .playbackUninit => { d with playback := .closed }
  | .captureStart ok => if ok then { d with capture := d.capture.start } else d
  | .playbackStart ok => if ok then { d with playback := d.playback.start } else d
  | .captureStop => { d with capture := d.capture.stop }
  | .playbackStop => { d with playback := d.playback.stop }
  | .entered => { d with inChannel := true }
  | .left => { d with inChannel := false }

/-- What the system asks of its callers, and the user of the microphone. A channel is asked for at
the start of a device only. -/
def Allowed (d : Devices) : DeviceCall → Prop
  | .contextInit .. => d.context = false
  | .contextUninit => d.context = true ∧ d.capture = .closed ∧ d.playback = .closed
  | .captureInit device _ =>
    d.context = true ∧ d.capture = .closed ∧ ∀ i ∈ device, i < d.captures
  | .playbackInit device _ =>
    d.context = true ∧ d.playback = .closed ∧ ∀ i ∈ device, i < d.playbacks
  | .captureUninit => d.capture.IsStopped
  | .playbackUninit => d.playback.IsStopped
  | .captureStart _ => d.inChannel = true ∧ d.capture.IsStopped ∧ d.playback.IsStarted
  | .playbackStart _ => d.inChannel = true ∧ d.playback.IsStopped
  | .captureStop => d.capture.IsStarted
  | .playbackStop => d.playback.IsStarted ∧ ¬ d.capture.IsStarted
  | .entered => True
  | .left => True

end Devices

/-! ### The engine and its devices -/

namespace AudioEngine

variable {e : AudioEngine} {inChannel : Bool}

/-- A device as the flags of the engine have it. -/
def stateOf (initialized running : Bool) (device : Option Nat) : DeviceState :=
  if !initialized then .closed else if running then .started device else .stopped device

theorem running_of_isStarted {initialized running : Bool} {device : Option Nat}
    (h : (stateOf initialized running device).IsStarted) : running = true := by
  obtain ⟨started, hstarted⟩ := h
  rcases initialized with _ | _ <;> rcases running with _ | _ <;> simp_all [stateOf]

def devices (e : AudioEngine) (inChannel : Bool) : Devices where
  context := e.contextInitialized
  captures := e.captureNames.length
  playbacks := e.playbackNames.length
  capture := stateOf e.captureInitialized e.running e.captureDevice
  playback := stateOf e.playbackInitialized e.running e.playbackDevice
  inChannel := inChannel

structure Sound (e : AudioEngine) (inChannel : Bool) : Prop where
  both : e.captureInitialized = e.playbackInitialized
  running : e.running = true → e.captureInitialized = true ∧ inChannel = true
  context : e.captureInitialized = true → e.contextInitialized = true
  /-- Without a context no device is known, so that none can be selected. -/
  unknown : e.contextInitialized = false → e.captureNames = [] ∧ e.playbackNames = []
  capture : validIndex e.captureNames e.selectedCapture = true
  playback : validIndex e.playbackNames e.selectedPlayback = true

def InStep (inChannel : Bool) (e : AudioEngine) (d : Devices) : Prop :=
  d = e.devices inChannel ∧ e.Sound inChannel

/-- The calls keep to what the devices allow, and leave the engine in step with them. -/
abbrev Follows (inChannel : Bool) (d : Devices) (r : AudioEngine × List DeviceCall) : Prop :=
  EventLog.Accounts (InStep inChannel) Devices.after Devices.Allowed d r

/-- The engines that differ in the state of their devices only. -/
structure SameSetup (e e' : AudioEngine) : Prop where
  captureNames : e'.captureNames = e.captureNames
  playbackNames : e'.playbackNames = e.playbackNames
  defaultCapture : e'.defaultCapture = e.defaultCapture
  defaultPlayback : e'.defaultPlayback = e.defaultPlayback
  contextInitialized : e'.contextInitialized = e.contextInitialized
  selectedCapture : e'.selectedCapture = e.selectedCapture
  selectedPlayback : e'.selectedPlayback = e.selectedPlayback

/-- Whatever has become of the devices, and of the answers. -/
theorem SameSetup.refl {running captureInitialized playbackInitialized : Bool}
    {answers : List Bool} :
    SameSetup e { e with
      running := running
      captureInitialized := captureInitialized
      playbackInitialized := playbackInitialized
      answers := answers } :=
  ⟨rfl, rfl, rfl, rfl, rfl, rfl, rfl⟩

theorem deviceOf_lt (names : List String) (selected : Int) :
    ∀ i ∈ deviceOf names selected, i < names.length := by
  intro i hi
  unfold deviceOf at hi
  split at hi
  next hvalid =>
    obtain rfl := Option.some.inj hi
    omega
  · simp at hi

/-! ### Stopping and closing -/

theorem Sound.closed (h : e.Sound inChannel) (inChannel' : Bool) :
    ({ e with
      running := false
      captureInitialized := false
      playbackInitialized := false } : AudioEngine).Sound inChannel' :=
  { h with
    both := rfl
    running := nofun
    context := nofun }

theorem Sound.stopped (h : e.Sound inChannel) (inChannel' : Bool) :
    ({ e with running := false } : AudioEngine).Sound inChannel' :=
  { h with running := nofun }

/-- The devices can be stopped in a channel and out of it. -/
theorem Sound.stop (h : e.Sound inChannel) (inChannel' : Bool) :
    Follows inChannel' (e.devices inChannel') e.stop ∧ e.stop.1 = { e with running := false } := by
  have hsound := h.stopped inChannel'
  unfold AudioEngine.stop
  rcases hrunning : e.running with _ | _
  · have hsame : { e with running := false } = e := by rw [← hrunning]
    rw [hsame] at hsound
    exact ⟨.quiet ⟨rfl, hsound⟩, hsame.symm⟩
  · obtain ⟨hinitialized, -⟩ := h.running hrunning
    have hboth := h.both.symm.trans hinitialized
    refine ⟨⟨⟨?_, ⟨?_, ?_⟩, trivial⟩, ?_, hsound⟩, rfl⟩
    · simp [Devices.Allowed, devices, stateOf, hinitialized, hrunning, DeviceState.IsStarted]
    · simp [Devices.after, devices, stateOf, hboth, hrunning, DeviceState.IsStarted]
    · simp [Devices.after, devices, stateOf, hinitialized, hrunning, DeviceState.stop,
        DeviceState.IsStarted]
    · simp [Devices.after, devices, stateOf, hinitialized, hboth, hrunning, DeviceState.stop,
        captureDevice, playbackDevice]

theorem Sound.uninitDevices (h : e.Sound inChannel) (hstopped : e.running = false) :
    Follows inChannel (e.devices inChannel) e.uninitDevices := by
  have hclosed := h.closed inChannel
  have hsame : { e with running := false, captureInitialized := false, playbackInitialized := false } =
      { e with captureInitialized := false, playbackInitialized := false } := by rw [← hstopped]
  rw [hsame] at hclosed
  unfold AudioEngine.uninitDevices
  rcases hinitialized : e.captureInitialized with _ | _
  · have hboth := h.both.symm.trans hinitialized
    rw [if_neg (by simp [hboth]), if_neg (by simp)]
    refine .quiet ⟨?_, hclosed⟩
    simp [devices, stateOf, hinitialized, hboth]
  · have hboth := h.both.symm.trans hinitialized
    rw [if_pos hboth, if_pos rfl]
    refine ⟨⟨?_, ?_, trivial⟩, ?_, hclosed⟩
    · simp [Devices.Allowed, devices, stateOf, hboth, hstopped, DeviceState.IsStopped]
    · simp [Devices.Allowed, Devices.after, devices, stateOf, hinitialized, hstopped,
        DeviceState.IsStopped]
    · simp [Devices.after, devices, stateOf]

theorem Sound.closeDevices (h : e.Sound inChannel) :
    Follows inChannel (e.devices inChannel) e.closeDevices ∧
      e.closeDevices.1 = { e with
        running := false
        captureInitialized := false
        playbackInitialized := false } := by
  obtain ⟨hstop, hstopped⟩ := h.stop inChannel
  have hsound : e.stop.1.Sound inChannel := hstop.2.2
  have hclose := hsound.uninitDevices (by rw [hstopped])
  rw [← hstop.2.1] at hclose
  refine ⟨hstop.append hclose, ?_⟩
  change { e.stop.1 with playbackInitialized := false, captureInitialized := false } = _
  rw [hstopped]

/-! ### Opening and starting -/

/-- The answers to come do not matter. -/
theorem Sound.asked (h : e.Sound inChannel) (answers : List Bool) :
    ({ e with answers } : AudioEngine).Sound inChannel := { h with }

theorem Sound.initDevices (h : e.Sound inChannel) (hcontext : e.contextInitialized = true)
    (hclosed : e.captureInitialized = false) (hstopped : e.running = false) :
    Follows inChannel (e.devices inChannel) e.initDevices.1 ∧ SameSetup e e.initDevices.1.1 ∧
      e.initDevices.1.1.running = false ∧
      (e.initDevices.2 = true → e.initDevices.1.1.captureInitialized = true) := by
  have hboth := h.both.symm.trans hclosed
  -- the microphone first, and what it leaves for the playback
  have hcapture : ∀ ok, (e.devices inChannel).Allowed (.captureInit e.captureDevice ok) := by
    intro ok
    have hlisted := deviceOf_lt e.captureNames e.selectedCapture
    refine ⟨hcontext, ?_, hlisted⟩
    simp [devices, stateOf, hclosed]
  have hplayback : ∀ ok, ((e.devices inChannel).after (.captureInit e.captureDevice true)).Allowed
      (.playbackInit e.playbackDevice ok) := by
    intro ok
    have hlisted := deviceOf_lt e.playbackNames e.selectedPlayback
    refine ⟨hcontext, ?_, hlisted⟩
    simp [Devices.after, devices, stateOf, hboth]
  have hundone : Machine.run Devices.after (e.devices inChannel)
      [.captureInit e.captureDevice true, .playbackInit e.playbackDevice false, .captureUninit] =
        e.devices inChannel := by
    simp [Devices.after, devices, stateOf, hclosed, hboth]
  have hopened : Machine.run Devices.after (e.devices inChannel)
      [.captureInit e.captureDevice true, .playbackInit e.playbackDevice true] =
        ({ e with captureInitialized := true, playbackInitialized := true } :
          AudioEngine).devices inChannel := by
    simp [Devices.after, devices, stateOf, hstopped, captureDevice, playbackDevice]
  have hsound : ({ e with captureInitialized := true, playbackInitialized := true } :
      AudioEngine).Sound inChannel :=
    { h with
      both := rfl
      running := fun hrunning => by simp [hstopped] at hrunning
      context := fun _ => hcontext }
  unfold AudioEngine.initDevices
  dsimp only [ask]
  split
  · exact ⟨.event (hcapture false) ⟨rfl, h.asked _⟩, .refl, hstopped, nofun⟩
  · split
    · have huninit : (Machine.run Devices.after (e.devices inChannel)
          [.captureInit e.captureDevice true, .playbackInit e.playbackDevice false]).Allowed
            .captureUninit := ⟨_, rfl⟩
      have hallowed : Machine.AllSteps Devices.after Devices.Allowed (e.devices inChannel)
          [.captureInit e.captureDevice true, .playbackInit e.playbackDevice false,
            .captureUninit] := ⟨hcapture true, hplayback false, huninit, trivial⟩
      exact ⟨⟨hallowed, hundone, h.asked _⟩, .refl, hstopped, nofun⟩
    · have hallowed : Machine.AllSteps Devices.after Devices.Allowed (e.devices inChannel)
          [.captureInit e.captureDevice true, .playbackInit e.playbackDevice true] :=
        ⟨hcapture true, hplayback true, trivial⟩
      exact ⟨⟨hallowed, hopened, hsound.asked _⟩, .refl, hstopped, fun _ => rfl⟩

theorem Sound.start (h : e.Sound inChannel) (hin : inChannel = true) :
    Follows inChannel (e.devices inChannel) e.start.1 ∧ SameSetup e e.start.1.1 ∧
      (e.start.2 = true → e.start.1.1.captureInitialized = true ∧ e.start.1.1.running = true) := by
  unfold AudioEngine.start
  dsimp only [ask]
  split
  · exact ⟨.quiet ⟨rfl, h⟩, .refl, nofun⟩
  · next hready =>
    simp only [Bool.or_eq_true, Bool.not_eq_true', not_or, Bool.not_eq_false, Bool.not_eq_true]
      at hready
    obtain ⟨⟨hcapture, hplayback⟩, hstopped⟩ := hready
    have hfirst : ∀ ok, (e.devices inChannel).Allowed (.playbackStart ok) := by
      intro ok
      refine ⟨hin, ?_⟩
      simp [devices, stateOf, hplayback, hstopped, DeviceState.IsStopped]
    have hsecond : ∀ ok, ((e.devices inChannel).after (.playbackStart true)).Allowed
        (.captureStart ok) := by
      intro ok
      refine ⟨hin, ?_, ?_⟩
      · simp [Devices.after, devices, stateOf, hcapture, hstopped, DeviceState.IsStopped]
      · simp [Devices.after, devices, stateOf, hplayback, hstopped, DeviceState.start,
          DeviceState.IsStarted]
    split
    · exact ⟨.event (hfirst false) ⟨rfl, h.asked _⟩, .refl, nofun⟩
    · split
      · have hundo : (Machine.run Devices.after (e.devices inChannel)
            [.playbackStart true, .captureStart false]).Allowed .playbackStop := by
          simp [Devices.Allowed, Devices.after, devices, stateOf, hcapture, hplayback, hstopped,
            DeviceState.start, DeviceState.IsStarted]
        have hundone : Machine.run Devices.after (e.devices inChannel)
            [.playbackStart true, .captureStart false, .playbackStop] = e.devices inChannel := by
          simp [Devices.after, devices, stateOf, hplayback, hstopped, DeviceState.start,
            DeviceState.stop]
        have hallowed : Machine.AllSteps Devices.after Devices.Allowed (e.devices inChannel)
            [.playbackStart true, .captureStart false, .playbackStop] :=
          ⟨hfirst true, hsecond false, hundo, trivial⟩
        exact ⟨⟨hallowed, hundone, h.asked _⟩, .refl, nofun⟩
      · have hstarted : Machine.run Devices.after (e.devices inChannel)
            [.playbackStart true, .captureStart true] =
              ({ e with running := true } : AudioEngine).devices inChannel := by
          simp [Devices.after, devices, stateOf, hcapture, hplayback, hstopped, DeviceState.start,
            captureDevice, playbackDevice]
        have hsound : ({ e with running := true } : AudioEngine).Sound inChannel :=
          { h with running := fun _ => ⟨hcapture, hin⟩ }
        have hallowed : Machine.AllSteps Devices.after Devices.Allowed (e.devices inChannel)
            [.playbackStart true, .captureStart true] := ⟨hfirst true, hsecond true, trivial⟩
        exact ⟨⟨hallowed, hstarted, hsound.asked _⟩, .refl, fun _ => ⟨hcapture, rfl⟩⟩

theorem SameSetup.trans {e' e'' : AudioEngine} (h : SameSetup e e') (h' : SameSetup e' e'') :
    SameSetup e e'' where
  captureNames := h'.captureNames.trans h.captureNames
  playbackNames := h'.playbackNames.trans h.playbackNames
  defaultCapture := h'.defaultCapture.trans h.defaultCapture
  defaultPlayback := h'.defaultPlayback.trans h.defaultPlayback
  contextInitialized := h'.contextInitialized.trans h.contextInitialized
  selectedCapture := h'.selectedCapture.trans h.selectedCapture
  selectedPlayback := h'.selectedPlayback.trans h.selectedPlayback

theorem Sound.openDevices (h : e.Sound inChannel) (hcontext : e.contextInitialized = true)
    (hclosed : e.captureInitialized = false) (hstopped : e.running = false) {wasRunning : Bool}
    (hin : wasRunning = true → inChannel = true) :
    Follows inChannel (e.devices inChannel) (e.openDevices wasRunning).1 ∧
      SameSetup e (e.openDevices wasRunning).1.1 ∧
      ((e.openDevices wasRunning).2 = true →
        (e.openDevices wasRunning).1.1.captureInitialized = true ∧
          (e.openDevices wasRunning).1.1.running = wasRunning) := by
  obtain ⟨hopened, hsetup, hquiet, hdone⟩ := h.initDevices hcontext hclosed hstopped
  unfold AudioEngine.openDevices
  dsimp only
  split
  · exact ⟨hopened, hsetup, nofun⟩
  next hok =>
    have hok : e.initDevices.2 = true := by simpa using hok
    split
    next hidle =>
      have hidle : wasRunning = false := by simpa using hidle
      exact ⟨hopened, hsetup, fun _ => ⟨hdone hok, by rw [hquiet, hidle]⟩⟩
    next hwas =>
      have hwas : wasRunning = true := by simpa using hwas
      obtain ⟨hstarted, hsetup', hruns⟩ := hopened.2.2.start (hin hwas)
      rw [← hopened.2.1] at hstarted
      refine ⟨hopened.append hstarted, hsetup.trans hsetup', fun hall => ?_⟩
      rw [hwas]
      exact hruns hall

/-! ### Selecting -/

/-- A selection of closed devices is nothing the system sees. -/
theorem devices_select (hcapture : e.captureInitialized = false)
    (hplayback : e.playbackInitialized = false) (captureIndex playbackIndex : Int) :
    ({ e with
      selectedCapture := captureIndex
      selectedPlayback := playbackIndex } : AudioEngine).devices inChannel = e.devices inChannel := by
  simp [devices, stateOf, hcapture, hplayback]

theorem Sound.select (h : e.Sound inChannel) {captureIndex playbackIndex : Int}
    (hcapture : validIndex e.captureNames captureIndex = true)
    (hplayback : validIndex e.playbackNames playbackIndex = true) :
    ({ e with
      selectedCapture := captureIndex
      selectedPlayback := playbackIndex } : AudioEngine).Sound inChannel :=
  { h with capture := hcapture, playback := hplayback }

/-- The devices are closed, and others opened in their place. -/
theorem Sound.reopen (h : e.Sound inChannel) (hcontext : e.contextInitialized = true)
    {captureIndex playbackIndex : Int} (hcapture : validIndex e.captureNames captureIndex = true)
    (hplayback : validIndex e.playbackNames playbackIndex = true) {wasRunning : Bool}
    (hin : wasRunning = true → inChannel = true) :
    let selected := { e.closeDevices.1 with
      selectedCapture := captureIndex
      selectedPlayback := playbackIndex }
    let opened := selected.openDevices wasRunning
    Follows inChannel (e.devices inChannel) (opened.1.1, e.closeDevices.2 ++ opened.1.2) ∧
      SameSetup { e with selectedCapture := captureIndex, selectedPlayback := playbackIndex }
        opened.1.1 ∧
      (opened.2 = true →
        opened.1.1.captureInitialized = true ∧ opened.1.1.running = wasRunning) := by
  intro selected opened
  obtain ⟨hclose, hclosed⟩ := h.closeDevices
  have hsound : selected.Sound inChannel := by
    refine hclose.2.2.select ?_ ?_ <;> rwa [hclosed]
  have hdevices : selected.devices inChannel = e.closeDevices.1.devices inChannel :=
    devices_select (by rw [hclosed]) (by rw [hclosed]) captureIndex playbackIndex
  have hsame : SameSetup { e with
      selectedCapture := captureIndex
      selectedPlayback := playbackIndex } selected := by
    simp only [selected, hclosed]
    exact ⟨rfl, rfl, rfl, rfl, rfl, rfl, rfl⟩
  obtain ⟨hopen, hsetup, hdone⟩ := hsound.openDevices
    (by simp only [selected, hclosed]; exact hcontext) (by simp only [selected, hclosed])
    (by simp only [selected, hclosed]) hin
  rw [hdevices, ← hclose.2.1] at hopen
  exact ⟨hclose.append hopen, hsame.trans hsetup, hdone⟩

theorem eq_of_validIndex_nil {index : Int} (h : validIndex [] index = true) : index = -1 := by
  simp only [validIndex, List.length_nil, Bool.or_eq_true, Bool.and_eq_true, decide_eq_true_eq] at h
  omega

/-- Without a context there is only one selection. -/
theorem Sound.context_of_select (h : e.Sound inChannel) {captureIndex playbackIndex : Int}
    (hcapture : validIndex e.captureNames captureIndex = true)
    (hplayback : validIndex e.playbackNames playbackIndex = true)
    (hother : ¬ (captureIndex = e.selectedCapture ∧ playbackIndex = e.selectedPlayback)) :
    e.contextInitialized = true := by
  by_contra hnone
  obtain ⟨hcaptures, hplaybacks⟩ := h.unknown (by simpa using hnone)
  have hcapture' := h.capture
  have hplayback' := h.playback
  rw [hcaptures] at hcapture hcapture'
  rw [hplaybacks] at hplayback hplayback'
  exact hother ⟨(eq_of_validIndex_nil hcapture).trans (eq_of_validIndex_nil hcapture').symm,
    (eq_of_validIndex_nil hplayback).trans (eq_of_validIndex_nil hplayback').symm⟩

/-- What the outcome of a selection says. -/
structure Selects (e : AudioEngine) (captureIndex playbackIndex : Int) (e' : AudioEngine)
    (ok : Bool) : Prop where
  captureNames : e'.captureNames = e.captureNames
  playbackNames : e'.playbackNames = e.playbackNames
  defaultCapture : e'.defaultCapture = e.defaultCapture
  defaultPlayback : e'.defaultPlayback = e.defaultPlayback
  applied : ok = true → e'.selectedCapture = captureIndex ∧ e'.selectedPlayback = playbackIndex ∧
    e'.running = e.running
  opened : ok = true →
    e' = e ∨ (e'.captureInitialized = true ∧ e'.playbackInitialized = true)
  kept : ok = false → e'.selectedCapture = e.selectedCapture ∧ e'.selectedPlayback = e.selectedPlayback

/-- Which device is shown as selected depends on the selection and on the default device. -/
theorem Selects.captureIndex_of_kept {captureIndex playbackIndex : Int} {e' : AudioEngine}
    {ok : Bool} (h : Selects e captureIndex playbackIndex e' ok)
    (hkept : e'.selectedCapture = e.selectedCapture) :
    e'.selectedCaptureIndex = e.selectedCaptureIndex := by
  rw [selectedCaptureIndex, selectedCaptureIndex, hkept, h.defaultCapture]

theorem Selects.playbackIndex_of_kept {captureIndex playbackIndex : Int} {e' : AudioEngine}
    {ok : Bool} (h : Selects e captureIndex playbackIndex e' ok)
    (hkept : e'.selectedPlayback = e.selectedPlayback) :
    e'.selectedPlaybackIndex = e.selectedPlaybackIndex := by
  rw [selectedPlaybackIndex, selectedPlaybackIndex, hkept, h.defaultPlayback]

theorem Sound.reconfigureDevices (h : e.Sound inChannel) (captureIndex playbackIndex : Int) :
    Follows inChannel (e.devices inChannel) (e.reconfigureDevices captureIndex playbackIndex).1 ∧
      Selects e captureIndex playbackIndex (e.reconfigureDevices captureIndex playbackIndex).1.1
        (e.reconfigureDevices captureIndex playbackIndex).2 := by
  unfold AudioEngine.reconfigureDevices
  dsimp only
  split
  · exact ⟨.quiet ⟨rfl, h⟩, rfl, rfl, rfl, rfl, nofun, nofun, fun _ => ⟨rfl, rfl⟩⟩
  next hvalid =>
    simp only [Bool.or_eq_true, Bool.not_eq_true', not_or, Bool.not_eq_false] at hvalid
    obtain ⟨hcapture, hplayback⟩ := hvalid
    split
    next hsame =>
      exact ⟨.quiet ⟨rfl, h⟩, rfl, rfl, rfl, rfl, fun _ => ⟨hsame.1.symm, hsame.2.symm, rfl⟩,
        fun _ => .inl rfl, nofun⟩
    next hother =>
      have hcontext := h.context_of_select hcapture hplayback hother
      have hin : e.running = true → inChannel = true := fun hrunning => (h.running hrunning).2
      obtain ⟨hfollows, hsetup, hdone⟩ := h.reopen hcontext hcapture hplayback hin
      split
      next hok =>
        obtain ⟨hopen, hruns⟩ := hdone hok
        have hboth := hfollows.2.2.both.symm.trans hopen
        exact ⟨hfollows, hsetup.captureNames, hsetup.playbackNames, hsetup.defaultCapture,
          hsetup.defaultPlayback, fun _ => ⟨hsetup.selectedCapture, hsetup.selectedPlayback, hruns⟩,
          fun _ => .inr ⟨hopen, hboth⟩, nofun⟩
      · obtain ⟨hfollows', hsetup', -⟩ := hfollows.2.2.reopen
          (hsetup.contextInitialized.trans hcontext)
          (hsetup.captureNames ▸ h.capture) (hsetup.playbackNames ▸ h.playback) hin
        rw [← hfollows.2.1] at hfollows'
        have hall := hfollows.append hfollows'
        rw [← List.append_assoc] at hall
        exact ⟨hall, hsetup'.captureNames.trans hsetup.captureNames,
          hsetup'.playbackNames.trans hsetup.playbackNames,
          hsetup'.defaultCapture.trans hsetup.defaultCapture,
          hsetup'.defaultPlayback.trans hsetup.defaultPlayback, nofun, nofun,
          fun _ => ⟨hsetup'.selectedCapture, hsetup'.selectedPlayback⟩⟩

/-! ### The beginning and the end -/

theorem init_follows (answers : List Bool) (listing : Option Listing) (parts : Bool) :
    Follows false {} (init answers listing parts).1 := by
  have hnothing : ({ answers } : AudioEngine).Sound false :=
    ⟨rfl, nofun, nofun, fun _ => ⟨rfl, rfl⟩, rfl, rfl⟩
  rcases listing with _ | ⟨captureNames, playbackNames, defaultCapture, defaultPlayback⟩
  · exact .quiet ⟨rfl, hnothing⟩
  · unfold init
    dsimp only
    have hlisted : ({
        captureNames := captureNames
        playbackNames := playbackNames
        defaultCapture := defaultCapture
        defaultPlayback := defaultPlayback
        contextInitialized := true
        answers := answers } : AudioEngine).Sound false :=
      ⟨rfl, nofun, nofun, nofun, rfl, rfl⟩
    split
    · exact .event rfl ⟨rfl, hlisted⟩
    · obtain ⟨hopened, -⟩ := hlisted.initDevices rfl rfl rfl
      exact ⟨⟨rfl, hopened.1⟩, hopened.2⟩

/-- The end leaves nothing open. -/
theorem Sound.shutdown (h : e.Sound inChannel) :
    Machine.AllSteps Devices.after Devices.Allowed (e.devices inChannel) e.shutdown.2 ∧
      (Machine.run Devices.after (e.devices inChannel) e.shutdown.2).capture = .closed ∧
      (Machine.run Devices.after (e.devices inChannel) e.shutdown.2).playback = .closed ∧
      (Machine.run Devices.after (e.devices inChannel) e.shutdown.2).context = false := by
  obtain ⟨⟨hallowed, hdevices, -⟩, hclosed⟩ := h.closeDevices
  have hcapture : (e.closeDevices.1.devices inChannel).capture = .closed := by
    rw [hclosed]
    rfl
  have hplayback : (e.closeDevices.1.devices inChannel).playback = .closed := by
    rw [hclosed]
    rfl
  unfold AudioEngine.shutdown
  dsimp only
  split
  next hcontext =>
    dsimp only
    rw [Machine.allSteps_append, Machine.run_append, hdevices]
    exact ⟨⟨hallowed, ⟨hcontext, hcapture, hplayback⟩, trivial⟩, hcapture, hplayback, rfl⟩
  next hcontext =>
    dsimp only
    rw [hdevices]
    exact ⟨hallowed, hcapture, hplayback, by simpa [devices] using hcontext⟩

end AudioEngine

/-! ### The callbacks -/

namespace AudioControl

open AudioEngine

variable {c : AudioControl}

/-- The page shows the selections of the engine. -/
structure Shows (c : AudioControl) : Prop where
  capture : c.selectedCapture = c.engine.selectedCaptureIndex
  playback : c.selectedPlayback = c.engine.selectedPlaybackIndex

/-- The engine is in step with the devices, and the page with the engine. -/
def InOrder (c : AudioControl) (d : Devices) : Prop :=
  InStep c.inChannel c.engine d ∧ c.Shows

abbrev Follows (d : Devices) (r : AudioControl × List DeviceCall) : Prop :=
  EventLog.Accounts InOrder Devices.after Devices.Allowed d r

theorem Shows.moved (h : c.Shows) {e : AudioEngine} (hsetup : SameSetup c.engine e)
    (inChannel : Bool) : ({ c with engine := e, inChannel } : AudioControl).Shows := by
  refine ⟨h.capture.trans ?_, h.playback.trans ?_⟩
  · simp [selectedCaptureIndex, hsetup.selectedCapture, hsetup.defaultCapture]
  · simp [selectedPlaybackIndex, hsetup.selectedPlayback, hsetup.defaultPlayback]

/-- What is not selected stays. -/
theorem selectedPlaybackIndex_of_selects {e e' : AudioEngine} {index : Int} {ok : Bool}
    (h : Selects e index e.selectedPlayback e' ok) :
    e'.selectedPlaybackIndex = e.selectedPlaybackIndex := by
  refine h.playbackIndex_of_kept ?_
  rcases ok with _ | _
  · exact (h.kept rfl).2
  · exact (h.applied rfl).2.1

theorem selectedCaptureIndex_of_selects {e e' : AudioEngine} {index : Int} {ok : Bool}
    (h : Selects e e.selectedCapture index e' ok) :
    e'.selectedCaptureIndex = e.selectedCaptureIndex := by
  refine h.captureIndex_of_kept ?_
  rcases ok with _ | _
  · exact (h.kept rfl).1
  · exact (h.applied rfl).1

/-- Another channel, or none. -/
theorem InOrder.enterChannel (h : InOrder c (c.engine.devices c.inChannel)) :
    Follows (c.engine.devices c.inChannel) c.enterChannel := by
  obtain ⟨⟨-, hsound⟩, hshows⟩ := h
  have hin : c.engine.Sound true :=
    { hsound with running := fun hrunning => ⟨(hsound.running hrunning).1, rfl⟩ }
  obtain ⟨hstart, hsetup, -⟩ := hin.start rfl
  exact ⟨⟨trivial, hstart.1⟩, hstart.2, hshows.moved hsetup true⟩

/-- The devices are stopped when the channel is forgotten already. -/
theorem InOrder.leaveChannel (h : InOrder c (c.engine.devices c.inChannel)) :
    Follows (c.engine.devices c.inChannel) c.leaveChannel := by
  obtain ⟨⟨-, hsound⟩, hshows⟩ := h
  obtain ⟨hstop, hstopped⟩ := hsound.stop false
  have hsetup : SameSetup c.engine c.engine.stop.1 := by
    rw [hstopped]
    exact .refl
  have hleft : (c.engine.devices c.inChannel).after .left = c.engine.devices false := rfl
  rw [← hleft] at hstop
  exact ⟨⟨trivial, hstop.1⟩, hstop.2, hshows.moved hsetup false⟩

/-- The capture device becomes another, or does not. -/
theorem InOrder.setCapture (h : InOrder c (c.engine.devices c.inChannel)) {index : Int}
    (hindex : 0 ≤ index) {shown : Int}
    (hshown : (c.engine.setCaptureDevice index).2 = false →
      shown = (c.engine.setCaptureDevice index).1.1.selectedCaptureIndex) :
    Follows (c.engine.devices c.inChannel) ({ c with
      engine := (c.engine.setCaptureDevice index).1.1
      selectedCapture := if (c.engine.setCaptureDevice index).2 then index else shown },
      (c.engine.setCaptureDevice index).1.2) := by
  obtain ⟨⟨-, hsound⟩, hshows⟩ := h
  obtain ⟨hfollows, hselects⟩ := hsound.reconfigureDevices index c.engine.selectedPlayback
  refine ⟨hfollows.1, hfollows.2, ?_,
    hshows.playback.trans (selectedPlaybackIndex_of_selects hselects).symm⟩
  change (if (c.engine.setCaptureDevice index).2 then index else shown) = _
  rcases hok : (c.engine.setCaptureDevice index).2 with _ | _
  · exact hshown hok
  · have happlied := (hselects.applied hok).1
    change index =
      (c.engine.reconfigureDevices index c.engine.selectedPlayback).1.1.selectedCaptureIndex
    rw [selectedCaptureIndex, happlied, if_pos hindex]

theorem InOrder.setPlayback (h : InOrder c (c.engine.devices c.inChannel)) {index : Int}
    (hindex : 0 ≤ index) {shown : Int}
    (hshown : (c.engine.setPlaybackDevice index).2 = false →
      shown = (c.engine.setPlaybackDevice index).1.1.selectedPlaybackIndex) :
    Follows (c.engine.devices c.inChannel) ({ c with
      engine := (c.engine.setPlaybackDevice index).1.1
      selectedPlayback := if (c.engine.setPlaybackDevice index).2 then index else shown },
      (c.engine.setPlaybackDevice index).1.2) := by
  obtain ⟨⟨-, hsound⟩, hshows⟩ := h
  obtain ⟨hfollows, hselects⟩ := hsound.reconfigureDevices c.engine.selectedCapture index
  refine ⟨hfollows.1, hfollows.2,
    hshows.capture.trans (selectedCaptureIndex_of_selects hselects).symm, ?_⟩
  change (if (c.engine.setPlaybackDevice index).2 then index else shown) = _
  rcases hok : (c.engine.setPlaybackDevice index).2 with _ | _
  · exact hshown hok
  · have happlied := (hselects.applied hok).2.1
    change index =
      (c.engine.reconfigureDevices c.engine.selectedCapture index).1.1.selectedPlaybackIndex
    rw [selectedPlaybackIndex, happlied, if_pos hindex]

/-- A selection that fails leaves the old one. -/
theorem selectedCaptureIndex_of_failed (hsound : c.engine.Sound c.inChannel) {index : Int}
    (hfailed : (c.engine.setCaptureDevice index).2 = false) :
    (c.engine.setCaptureDevice index).1.1.selectedCaptureIndex =
      c.engine.selectedCaptureIndex := by
  obtain ⟨-, hselects⟩ := hsound.reconfigureDevices index c.engine.selectedPlayback
  exact hselects.captureIndex_of_kept (hselects.kept hfailed).1

theorem selectedPlaybackIndex_of_failed (hsound : c.engine.Sound c.inChannel) {index : Int}
    (hfailed : (c.engine.setPlaybackDevice index).2 = false) :
    (c.engine.setPlaybackDevice index).1.1.selectedPlaybackIndex =
      c.engine.selectedPlaybackIndex := by
  obtain ⟨-, hselects⟩ := hsound.reconfigureDevices c.engine.selectedCapture index
  exact hselects.playbackIndex_of_kept (hselects.kept hfailed).2

theorem InOrder.step {d : Devices} (h : InOrder c d) (op : AudioOp) : Follows d (c.step op) := by
  obtain rfl : d = c.engine.devices c.inChannel := h.1.1
  have hsound := h.1.2
  have hshows := h.2
  cases op with
  | enterChannel => exact h.enterChannel
  | leaveChannel => exact h.leaveChannel
  | selectCapture index =>
      simp only [AudioControl.step, AudioControl.selectCapture]
      split
      next hlisted =>
        exact h.setCapture hlisted.1 fun _ => rfl
      · exact .quiet ⟨⟨rfl, hsound⟩, rfl, hshows.playback⟩
  | selectPlayback index =>
      simp only [AudioControl.step, AudioControl.selectPlayback]
      split
      next hlisted =>
        exact h.setPlayback hlisted.1 fun _ => rfl
      · exact .quiet ⟨⟨rfl, hsound⟩, hshows.capture, rfl⟩
  | restoreCapture name =>
      simp only [AudioControl.step, AudioControl.restoreCapture]
      split
      · exact .quiet h
      · exact h.setCapture (Int.natCast_nonneg _) fun hfailed =>
          hshows.capture.trans (selectedCaptureIndex_of_failed hsound hfailed).symm
  | restorePlayback name =>
      simp only [AudioControl.step, AudioControl.restorePlayback]
      split
      · exact .quiet h
      · exact h.setPlayback (Int.natCast_nonneg _) fun hfailed =>
          hshows.playback.trans (selectedPlaybackIndex_of_failed hsound hfailed).symm

theorem run_follows (answers : List Bool) (listing : Option Listing) (parts : Bool)
    (ops : List AudioOp) : Follows {} (run answers listing parts ops) := by
  have hinit := init_follows answers listing parts
  have hsetup : Follows {} (setup (init answers listing parts).1.1, (init answers listing parts).1.2) :=
    ⟨hinit.1, hinit.2, rfl, rfl⟩
  exact Machine.run_preserves (fun r op hr => hr.append (InOrder.step hr.2 op)) hsetup ops

/-- In every state reached, a selection that succeeds is in effect, with open devices unless
nothing changed, and running as before; one that fails leaves the selection that was. -/
theorem selection_whole (answers : List Bool) (listing : Option Listing) (parts : Bool)
    (ops : List AudioOp) (captureIndex playbackIndex : Int) :
    let e := (run answers listing parts ops).1.engine
    let outcome := e.reconfigureDevices captureIndex playbackIndex
    Selects e captureIndex playbackIndex outcome.1.1 outcome.2 :=
  ((run_follows answers listing parts ops).2.1.2.reconfigureDevices captureIndex playbackIndex).2

end AudioControl

end Parties.Voice

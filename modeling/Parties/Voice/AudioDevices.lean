import Parties.Lib.EventLog

/-!
# The audio devices

Mirror of what `AudioEngine` (`client/src/audio_engine.cpp`) does with its two devices, and of the
callbacks of `AppCore` (`client/src/app_core.cpp`) that select them and start and stop them with
the voice channel. Every call on the system can fail; what it will answer is part of the state.
The frames that pass through the devices are in `Capture` and `Mixer`.

Every call is logged when it is made, and so is the moment at which the application enters or
leaves a channel: it leaves before it stops the devices, in `leave_channel` as in the cleanup behind
a lost connection.
-/

namespace Parties.Voice

/-- The calls on the system, and what moves the user into and out of a voice channel. A device is
named by its index, `none` for the default of the system. -/
inductive DeviceCall where
  | contextInit (captures playbacks : Nat)
  | contextUninit
  | captureInit (device : Option Nat) (ok : Bool)
  | playbackInit (device : Option Nat) (ok : Bool)
  | captureUninit
  | playbackUninit
  | captureStart (ok : Bool)
  | playbackStart (ok : Bool)
  | captureStop
  | playbackStop
  | entered
  | left
deriving DecidableEq, Repr

structure AudioEngine where
  captureNames : List String := []
  playbackNames : List String := []
  defaultCapture : Nat := 0
  defaultPlayback : Nat := 0
  contextInitialized : Bool := false
  captureInitialized : Bool := false
  playbackInitialized : Bool := false
  running : Bool := false
  /-- `-1` is the default of the system. -/
  selectedCapture : Int := -1
  selectedPlayback : Int := -1
  /-- What the system will answer. -/
  answers : List Bool
deriving DecidableEq, Repr

namespace AudioEngine

/-- The next answer of the system. -/
def ask (e : AudioEngine) : Bool × AudioEngine :=
  (e.answers.headD false, { e with answers := e.answers.tail })

/-- The device to open for a selection. -/
def deviceOf (names : List String) (selected : Int) : Option Nat :=
  if 0 ≤ selected ∧ selected < names.length then some selected.toNat else none

def captureDevice (e : AudioEngine) : Option Nat := deviceOf e.captureNames e.selectedCapture

def playbackDevice (e : AudioEngine) : Option Nat := deviceOf e.playbackNames e.selectedPlayback

def initDevices (e : AudioEngine) : (AudioEngine × List DeviceCall) × Bool :=
  let (ok, e) := e.ask
  if !ok then ((e, [.captureInit e.captureDevice false]), false)
  else
    let (ok, e) := e.ask
    if !ok then
      ((e, [.captureInit e.captureDevice true, .playbackInit e.playbackDevice false,
        .captureUninit]), false)
    else
      (({ e with captureInitialized := true, playbackInitialized := true },
        [.captureInit e.captureDevice true, .playbackInit e.playbackDevice true]), true)

def start (e : AudioEngine) : (AudioEngine × List DeviceCall) × Bool :=
  if !e.captureInitialized || !e.playbackInitialized || e.running then ((e, []), false)
  else
    let (ok, e) := e.ask
    if !ok then ((e, [.playbackStart false]), false)
    else
      let (ok, e) := e.ask
      if !ok then ((e, [.playbackStart true, .captureStart false, .playbackStop]), false)
      else (({ e with running := true }, [.playbackStart true, .captureStart true]), true)

def stop (e : AudioEngine) : AudioEngine × List DeviceCall :=
  if !e.running then (e, [])
  else ({ e with running := false }, [.captureStop, .playbackStop])

def uninitDevices (e : AudioEngine) : AudioEngine × List DeviceCall :=
  ({ e with playbackInitialized := false, captureInitialized := false },
    (if e.playbackInitialized then [.playbackUninit] else []) ++
      if e.captureInitialized then [.captureUninit] else [])

/-- `stop`, then `uninit_devices`. -/
def closeDevices (e : AudioEngine) : AudioEngine × List DeviceCall :=
  let (e, stopped) := e.stop
  let (e, closed) := e.uninitDevices
  (e, stopped ++ closed)

/-- `init_devices() && (!was_running || start())`. -/
def openDevices (e : AudioEngine) (wasRunning : Bool) : (AudioEngine × List DeviceCall) × Bool :=
  let ((e, opened), ok) := e.initDevices
  if !ok then ((e, opened), false)
  else if !wasRunning then ((e, opened), true)
  else
    let ((e, started), ok) := e.start
    ((e, opened ++ started), ok)

def validIndex (names : List String) (index : Int) : Bool :=
  index = -1 || (0 ≤ index && index < names.length)

def reconfigureDevices (e : AudioEngine) (captureIndex playbackIndex : Int) :
    (AudioEngine × List DeviceCall) × Bool :=
  if !validIndex e.captureNames captureIndex || !validIndex e.playbackNames playbackIndex then
    ((e, []), false)
  else if captureIndex = e.selectedCapture ∧ playbackIndex = e.selectedPlayback then ((e, []), true)
  else
    let (closed, closing) := e.closeDevices
    let ((applied, applying), ok) := { closed with
      selectedCapture := captureIndex
      selectedPlayback := playbackIndex }.openDevices e.running
    if ok then ((applied, closing ++ applying), true)
    else
      -- back to the devices that worked
      let (closed', closing') := applied.closeDevices
      let ((restored, restoring), _) := { closed' with
        selectedCapture := e.selectedCapture
        selectedPlayback := e.selectedPlayback }.openDevices e.running
      ((restored, closing ++ applying ++ closing' ++ restoring), false)

def setCaptureDevice (e : AudioEngine) (index : Int) : (AudioEngine × List DeviceCall) × Bool :=
  e.reconfigureDevices index e.selectedPlayback

def setPlaybackDevice (e : AudioEngine) (index : Int) : (AudioEngine × List DeviceCall) × Bool :=
  e.reconfigureDevices e.selectedCapture index

def selectedCaptureIndex (e : AudioEngine) : Int :=
  if 0 ≤ e.selectedCapture then e.selectedCapture else e.defaultCapture

def selectedPlaybackIndex (e : AudioEngine) : Int :=
  if 0 ≤ e.selectedPlayback then e.selectedPlayback else e.defaultPlayback

/-- The devices the system lists, with its defaults, if it answers at all. -/
structure Listing where
  captureNames : List String
  playbackNames : List String
  defaultCapture : Nat
  defaultPlayback : Nat

/-- `parts`: the denoiser, the echo canceller and the encoder could be made. -/
def init (answers : List Bool) (listing : Option Listing) (parts : Bool) :
    (AudioEngine × List DeviceCall) × Bool :=
  match listing with
  | none => (({ answers := answers }, []), false)
  | some l =>
    let e : AudioEngine := {
      captureNames := l.captureNames
      playbackNames := l.playbackNames
      defaultCapture := l.defaultCapture
      defaultPlayback := l.defaultPlayback
      contextInitialized := true
      answers := answers }
    let listed := .contextInit l.captureNames.length l.playbackNames.length
    if !parts then ((e, [listed]), false)
    else
      let ((e, opened), ok) := e.initDevices
      ((e, listed :: opened), ok)

def shutdown (e : AudioEngine) : AudioEngine × List DeviceCall :=
  let (e, closed) := e.closeDevices
  if e.contextInitialized then
    ({ e with contextInitialized := false }, closed ++ [.contextUninit])
  else (e, closed)

end AudioEngine

/-! ### The callbacks -/

/-- What `AppCore` keeps of the devices: the selections the settings page shows. -/
structure AudioControl where
  engine : AudioEngine
  /-- `current_channel_` is set. -/
  inChannel : Bool := false
  selectedCapture : Int
  selectedPlayback : Int
deriving DecidableEq, Repr

inductive AudioOp where
  /-- The acknowledgement of a join. -/
  | enterChannel
  /-- Also the end of the connection. -/
  | leaveChannel
  | selectCapture (index : Int)
  | selectPlayback (index : Int)
  -- the saved devices, by name
  | restoreCapture (name : String)
  | restorePlayback (name : String)
deriving DecidableEq, Repr

namespace AudioControl

/-- The page shows what the engine has selected. -/
def setup (engine : AudioEngine) : AudioControl where
  engine := engine
  selectedCapture := engine.selectedCaptureIndex
  selectedPlayback := engine.selectedPlaybackIndex

def enterChannel (c : AudioControl) : AudioControl × List DeviceCall :=
  let ((engine, started), _) := c.engine.start
  ({ c with engine := engine, inChannel := true }, .entered :: started)

/-- `current_channel_` is cleared before the engine stops, so that for a moment the devices run
outside of a channel. -/
def leaveChannel (c : AudioControl) : AudioControl × List DeviceCall :=
  let (engine, stopped) := c.engine.stop
  ({ c with engine := engine, inChannel := false }, .left :: stopped)

/-- `on_select_capture`; the page already shows the new selection. -/
def selectCapture (c : AudioControl) (index : Int) : AudioControl × List DeviceCall :=
  let c := { c with selectedCapture := index }
  if 0 ≤ index ∧ index < c.engine.captureNames.length then
    let ((engine, calls), ok) := c.engine.setCaptureDevice index
    ({ c with
      engine := engine
      selectedCapture := if ok then index else engine.selectedCaptureIndex }, calls)
  else ({ c with selectedCapture := c.engine.selectedCaptureIndex }, [])

def selectPlayback (c : AudioControl) (index : Int) : AudioControl × List DeviceCall :=
  let c := { c with selectedPlayback := index }
  if 0 ≤ index ∧ index < c.engine.playbackNames.length then
    let ((engine, calls), ok) := c.engine.setPlaybackDevice index
    ({ c with
      engine := engine
      selectedPlayback := if ok then index else engine.selectedPlaybackIndex }, calls)
  else ({ c with selectedPlayback := c.engine.selectedPlaybackIndex }, [])

def restoreCapture (c : AudioControl) (name : String) : AudioControl × List DeviceCall :=
  match c.engine.captureNames.findIdx? (· = name) with
  | none => (c, [])
  | some i =>
    let ((engine, calls), ok) := c.engine.setCaptureDevice i
    ({ c with engine := engine, selectedCapture := if ok then i else c.selectedCapture }, calls)

def restorePlayback (c : AudioControl) (name : String) : AudioControl × List DeviceCall :=
  match c.engine.playbackNames.findIdx? (· = name) with
  | none => (c, [])
  | some i =>
    let ((engine, calls), ok) := c.engine.setPlaybackDevice i
    ({ c with engine := engine, selectedPlayback := if ok then i else c.selectedPlayback }, calls)

def step (c : AudioControl) : AudioOp → AudioControl × List DeviceCall
  | .enterChannel => c.enterChannel
  | .leaveChannel => c.leaveChannel
  | .selectCapture index => c.selectCapture index
  | .selectPlayback index => c.selectPlayback index
  | .restoreCapture name => c.restoreCapture name
  | .restorePlayback name => c.restorePlayback name

/-- The calls of a run, from the start of the application on. -/
def run (answers : List Bool) (listing : Option AudioEngine.Listing) (parts : Bool)
    (ops : List AudioOp) : AudioControl × List DeviceCall :=
  let ((engine, calls), _) := AudioEngine.init answers listing parts
  Machine.run (Machine.logged step) (setup engine, calls) ops

end AudioControl

end Parties.Voice

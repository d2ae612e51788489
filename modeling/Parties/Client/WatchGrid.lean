import Parties.Client.Roster
import Parties.Video.ReceiveRouter

/-!
# The watched streams and the pages

Mirror of the rest of what `AppCore` (`client/src/app_core.cpp`) does when a watch begins or ends,
of `LobbyModel` (`client/src/lobby_model.cpp`) and of `DocumentRouter`
(`client/include/client/document_router.h`): the receive router, the decoders of the platform, the
focus of the stream audio, the grid of cells and the page that is shown. The part of the client
below it is `AppCore`; the names of the users, the chat and the sounds are left out.
-/

namespace Parties.Client

open Parties.Video

/-! ### The pages -/

inductive DocumentRoute where
  | room
  | chat
  | settings
  | sharePicker
  | streams
deriving DecidableEq, Repr

structure DocumentRouter where
  current : DocumentRoute := .room
  /-- The pages to go back to, the last one first. -/
  history : List DocumentRoute := []
deriving DecidableEq, Repr

namespace DocumentRouter

def is (r : DocumentRouter) (route : DocumentRoute) : Bool := r.current = route

/-- Primary navigation starts a fresh history. -/
def go (_ : DocumentRouter) (route : DocumentRoute) : DocumentRouter := { current := route }

/-- Transient pages keep their caller. -/
def push (r : DocumentRouter) (route : DocumentRoute) : DocumentRouter :=
  if r.is route then r else { current := route, history := r.current :: r.history }

def back (r : DocumentRouter) : DocumentRouter :=
  match r.history with
  | [] => { r with current := .room }
  | route :: history => { current := route, history := history }

/-- Back must not lead to a page whose streams are gone. -/
def leaveStreams (r : DocumentRouter) : DocumentRouter :=
  let history := r.history.map fun (route : DocumentRoute) => if route = .streams then .room else route
  let r := { r with history := history }
  if r.is .streams then r.go .room else r

end DocumentRouter

/-! ### The client -/

structure ActiveSharer where
  id : StreamId
  userId : UserId
  watching : Bool := false
  camera : Bool
deriving DecidableEq, Repr

/-- A cell of the grid. -/
structure WatchedStream where
  id : StreamId
  userId : UserId
  camera : Bool
  /-- Our own camera reads like a mirror. -/
  mirror : Bool
deriving DecidableEq, Repr

def ActiveSharer.of (stream : StreamId) : ActiveSharer where
  id := stream
  userId := videoStreamOwner stream
  camera := videoStreamSource stream = some .camera

/-- The cell of a sharer, for the user who watches. -/
def ActiveSharer.cell (viewer : UserId) (s : ActiveSharer) : WatchedStream where
  id := s.id
  userId := s.userId
  camera := s.camera
  mirror := s.camera && s.userId = viewer

structure LobbyClient (φ : Type) extends AppCore where
  videoRx : VideoReceiveRouter φ := VideoReceiveRouter.new {}
  /-- The streams the platform has a decoder for. -/
  videoStreams : List StreamId := []
  /-- Whose stream audio is played. -/
  audioSharer : StreamId := 0
  -- the properties the pages are bound to
  activeSharers : List ActiveSharer := []
  someoneSharing : Bool := false
  grid : List WatchedStream := []
  watchingCount : Nat := 0
  viewingSharerId : StreamId := 0
  streamFullscreen : Bool := false
  router : DocumentRouter := {}

namespace LobbyClient

variable {φ : Type}

/-- Change what is not shown. -/
def onCore (c : LobbyClient φ) (f : AppCore → AppCore) : LobbyClient φ :=
  { c with toAppCore := f c.toAppCore }

/-! ### The model -/

/-- The grid and the flags of the sharers follow `watched`, and so does the page. -/
def rebuildWatchedModel (c : LobbyClient φ) : LobbyClient φ :=
  let sharers := c.activeSharers.map fun s => { s with watching := decide (s.id ∈ c.watched) }
  let grid := (sharers.filter (·.watching)).map (·.cell c.userId)
  { c with
    activeSharers := sharers
    grid := grid
    watchingCount := grid.length
    router :=
      if grid.isEmpty then c.router.leaveStreams
      else if !c.router.is .settings && !c.router.is .sharePicker then c.router.go .streams
      else c.router }

/-- A room with streams that are watched is shown as these. -/
def showVoiceChannel (c : LobbyClient φ) (channel : ChannelId) : LobbyClient φ :=
  let resumeStreams := channel = c.currentChannel ∧ 0 < c.watchingCount
  { c with router := c.router.go (if resumeStreams then .streams else .room) }

/-- `add_channel_sharer`, behind its checks. -/
def addChannelSharer (c : LobbyClient φ) (stream : StreamId) : LobbyClient φ :=
  if stream ∈ c.sharers then { c with someoneSharing := true }
  else
    { c with
      sharers := c.sharers ++ [stream]
      activeSharers := c.activeSharers ++ [.of stream]
      someoneSharing := true }

def removeChannelSharer (c : LobbyClient φ) (stream : StreamId) : LobbyClient φ :=
  let sharers := c.activeSharers.filter (·.id ≠ stream)
  { c with
    sharers := c.sharers.filter (· ≠ stream)
    activeSharers := sharers
    someoneSharing := !sharers.isEmpty }

/-! ### Watching -/

def openVideoRx (c : LobbyClient φ) (nowUs : Int) (stream : StreamId) : LobbyClient φ :=
  { c with videoRx := c.videoRx.openStream stream nowUs }

/-- The bridge of a platform with a decoder for each stream. -/
def startVideoStream (c : LobbyClient φ) (stream : StreamId) : LobbyClient φ :=
  { c with videoStreams :=
      if c.multiStream ∧ stream ∉ c.videoStreams then stream :: c.videoStreams else c.videoStreams }

def stopVideoStreams (c : LobbyClient φ) (streams : List StreamId) : LobbyClient φ :=
  { c with videoStreams := c.videoStreams.filter (· ∉ streams) }

def screenOr0 (stream : StreamId) : StreamId :=
  if videoStreamSource stream = some .screen then stream else 0

/-- `watch_sharer` where there is a single decoder. -/
def watchSingle (c : LobbyClient φ) (nowUs : Int) (stream : StreamId) : LobbyClient φ :=
  if stream ∈ c.watched then c.showVoiceChannel c.currentChannel
  else
    let c := if c.viewingSharer ≠ 0 ∧ c.viewingSharer ≠ stream then
        c.stopVideoStreams [c.viewingSharer]
      else c
    let c := { c with
      watched := [stream]
      viewingSharer := stream
      audioSharer := screenOr0 stream
      videoRx := c.videoRx.closeAll }
    let c := (c.openVideoRx nowUs stream).startVideoStream stream
    let c := c.onCore (·.sendMessage (.screenShareView stream none))
    { c with viewingSharerId := stream }.rebuildWatchedModel

def addWatch (c : LobbyClient φ) (nowUs : Int) (stream : StreamId) : LobbyClient φ :=
  if stream = 0 ∨ stream ∉ c.sharers then c
  else if !c.multiStream then c.watchSingle nowUs stream
  else if stream ∈ c.watched then c.showVoiceChannel c.currentChannel
  else
    let c := { c with watched := stream :: c.watched }.openVideoRx nowUs stream
    let c := c.onCore (·.sendMessage (.screenShareView stream (some 1)))
    let c := c.startVideoStream stream
    -- the stream opened last is the primary one, and the screen opened last has the audio
    { c with
      viewingSharer := stream
      audioSharer := if videoStreamSource stream = some VideoSource.screen then stream else c.audioSharer
      viewingSharerId := stream }.rebuildWatchedModel

/-- Any other stream is the primary one now. -/
def refocusPrimary (c : LobbyClient φ) : LobbyClient φ :=
  match c.watched with
  | [] => { c with viewingSharer := 0, viewingSharerId := 0, streamFullscreen := false }
  | primary :: _ => { c with viewingSharer := primary, viewingSharerId := primary }

/-- Any other screen that is watched. -/
def refocusStreamAudio (c : LobbyClient φ) : LobbyClient φ :=
  { c with audioSharer :=
      (c.watched.find? fun watched => videoStreamSource watched = some VideoSource.screen).getD 0 }

def removeWatch (c : LobbyClient φ) (stream : StreamId) : LobbyClient φ :=
  if stream ∉ c.watched then c
  else
    let c := { c with watched := c.watched.filter (· ≠ stream) }
    let c := c.onCore (·.sendMessage (.screenShareView stream (some 0)))
    let c := c.stopVideoStreams [stream]
    let c := { c with videoRx := c.videoRx.close stream }.refocusPrimary
    let c := if c.audioSharer = stream then c.refocusStreamAudio else c
    c.rebuildWatchedModel

def toggleWatch (c : LobbyClient φ) (nowUs : Int) (stream : StreamId) : LobbyClient φ :=
  if stream ∈ c.watched then c.removeWatch stream else c.addWatch nowUs stream

def stopWatching (c : LobbyClient φ) : LobbyClient φ :=
  let c := { c.stopVideoStreams c.watched with watched := [], videoRx := c.videoRx.closeAll }
  let c := c.onCore (·.sendMessage (.screenShareView 0 none))
  { c with
    viewingSharer := 0
    audioSharer := 0
    viewingSharerId := 0
    streamFullscreen := false }.rebuildWatchedModel

def watchSharer (c : LobbyClient φ) (nowUs : Int) (stream : StreamId) : LobbyClient φ :=
  if stream = 0 then c.stopWatching
  else if stream ∉ c.sharers then c
  else if c.multiStream then c.addWatch nowUs stream
  else c.watchSingle nowUs stream

/-- Open what a user is publishing. The screen comes last, so that it has the focus; a single
decoder shows the screen if there is one. -/
def watchUser (c : LobbyClient φ) (nowUs : Int) (user : UserId) : LobbyClient φ :=
  let screen := videoStreamId user .screen
  let camera := videoStreamId user .camera
  let hasScreen := decide (screen ∈ c.sharers)
  let hasCamera := decide (camera ∈ c.sharers)
  if !c.multiStream then
    if hasScreen || hasCamera then c.addWatch nowUs (if hasScreen then screen else camera) else c
  else
    let c := if hasCamera then c.addWatch nowUs camera else c
    if hasScreen then c.addWatch nowUs screen else c

/-- `set_single_watched`, with the request its callers send. -/
def setSingleWatched (c : LobbyClient φ) (nowUs : Int) (stream : StreamId) : LobbyClient φ :=
  let c := c.onCore (·.sendMessage (.screenShareView stream none))
  let c := { c with
    watched := if stream ≠ 0 then [stream] else []
    videoRx := c.videoRx.closeAll }
  let c := if stream ≠ 0 then c.openVideoRx nowUs stream else c
  { c with
    viewingSharer := stream
    audioSharer := screenOr0 stream
    viewingSharerId := stream
    streamFullscreen := if stream = 0 then false else c.streamFullscreen }.rebuildWatchedModel

def clearAllSharers (c : LobbyClient φ) : LobbyClient φ :=
  { c.stopVideoStreams c.watched with
    watched := []
    videoRx := c.videoRx.closeAll
    viewingSharer := 0
    audioSharer := 0
    sharers := []
    activeSharers := []
    someoneSharing := false
    grid := []
    watchingCount := 0
    viewingSharerId := 0
    streamFullscreen := false
    router := c.router.leaveStreams }

/-- `remove_channel_sharer`, and the watch goes with it. -/
def dropSharer (c : LobbyClient φ) (stream : StreamId) : LobbyClient φ :=
  (c.removeChannelSharer stream).removeWatch stream

/-! ### The camera -/

def cameraFailed (c : LobbyClient φ) : LobbyClient φ :=
  let announced := c.announced
  let c := { c with
    cameraStarting := false
    cameraPreviewPending := false
    cameraRestartPending := false
    isCameraOn := false }
  (c.removeWatch c.camera).onCore (·.sendCameraStop announced)

def stopCamera (c : LobbyClient φ) (tellServer : Bool) : LobbyClient φ :=
  let running := c.isCameraOn || c.cameraStarting
  let announced := c.announced
  let c := { c with
    cameraStarting := false
    cameraPreviewPending := false
    cameraRestartPending := false }
  if !running then c
  else
    let c := { c with isCameraOn := false }
    (c.removeWatch c.camera).onCore (·.sendCameraStop (tellServer && announced))

def startCamera (c : LobbyClient φ) (devices begun : Bool) : LobbyClient φ :=
  if c.isCameraOn || c.cameraStarting then c
  else if !c.cameraSupported || c.currentChannel = 0 then c
  else if !devices then c
  else
    let c := { c with cameraStarting := true, isCameraOn := true }
    if begun then c else c.cameraFailed

def cameraStarted (c : LobbyClient φ) : LobbyClient φ :=
  if !c.cameraStarting then c
  else if c.currentChannel = 0 then { c with cameraStarting := false }.stopCamera true
  else c.onCore (·.cameraStarted)

def toggleCamera (c : LobbyClient φ) (devices begun : Bool) : LobbyClient φ :=
  if c.isCameraOn then c.stopCamera true else c.startCamera devices begun

/-! ### Channels -/

def joinChannel (c : LobbyClient φ) (channel : ChannelId) : LobbyClient φ :=
  (c.showVoiceChannel channel).onCore (·.joinChannel channel)

def leaveSharePicker (c : LobbyClient φ) : LobbyClient φ :=
  if c.router.is .sharePicker then { c with router := c.router.back } else c

def leaveChannel (c : LobbyClient φ) (tellServer : Bool) : LobbyClient φ :=
  if c.currentChannel = 0 then c
  else
    let c := c.leaveSharePicker.stopCamera tellServer
    let c := if c.viewingSharer ≠ 0 then c.stopWatching else c
    let c := c.clearAllSharers
    let c := if tellServer then c.onCore (·.sendMessage .channelLeave) else c
    { c with
      channels := ChannelInfo.modifyFirst c.currentChannel (·.eraseUser c.userId) c.channels
      currentChannel := 0
      router := c.router.go .room }

/-- A session ends, and the next one begins as `user`. Until then the client is in no channel and
hears no message. -/
def onDisconnectCleanup (c : LobbyClient φ) (user : UserId) : LobbyClient φ :=
  let c := c.stopCamera false
  let c := { c with
    currentChannel := 0
    viewingSharer := 0
    awaitingChannelJoin := false
    pendingChannelId := 0
    cameraStopsInFlight := 0
    videoRx := c.videoRx.closeAll }.clearAllSharers
  { c with channels := [], outgoing := [], userId := user, router := {} }

/-! ### The messages of the server -/

def enterChannel (c : LobbyClient φ) (channel : ChannelId) : LobbyClient φ :=
  let c := { c with awaitingChannelJoin := false }
  let c := if c.currentChannel ≠ channel then (c.stopCamera true).clearAllSharers else c
  let c := if c.currentChannel ≠ 0 ∧ c.currentChannel ≠ channel then
      { c with channels :=
          ChannelInfo.modifyFirst c.currentChannel (·.eraseUser c.userId) c.channels }
    else c
  { c with
    currentChannel := channel
    channels := ChannelInfo.modifyFirst channel (·.modifyUsers fun u =>
      if u.userId = c.userId then { u with muted := c.isMuted, deafened := c.isDeafened }
      else u) c.channels }

def onChannelUserList (c : LobbyClient φ) (channel : ChannelId) (users : List ChannelUser) :
    LobbyClient φ :=
  let c := { c with channels := ChannelInfo.modifyFirst channel (·.setUsers users) c.channels }
  if c.awaitingChannelJoin ∧ c.pendingChannelId = channel then c.enterChannel channel else c

def onUserLeft (c : LobbyClient φ) (user : UserId) (channel : ChannelId) : LobbyClient φ :=
  if user = c.userId ∧ channel = c.currentChannel ∧ c.currentChannel ≠ 0 then c.leaveChannel false
  else
    let c := if channel = c.currentChannel then
        ((c.dropSharer (videoStreamId user .screen)).dropSharer
          (videoStreamId user .camera)).rebuildWatchedModel
      else c
    { c with channels := ChannelInfo.modifyFirst channel (·.eraseUser user) c.channels }

def onScreenShareStarted (c : LobbyClient φ) (nowUs : Int) (stream : StreamId) (replay : Bool) :
    LobbyClient φ :=
  if !c.acceptsSharer stream then c
  else
    let c := c.addChannelSharer stream
    -- a live start of a stream still watched is a new share, and needs a fresh buffer
    let c := if !replay && c.videoRx.isOpen stream then c.openVideoRx nowUs stream else c
    if stream = c.camera ∧ c.cameraPreviewPending ∧ c.cameraStopsInFlight = 0 then
      { c with cameraPreviewPending := false }.addWatch nowUs stream
    else c.rebuildWatchedModel

def onScreenShareStopped (c : LobbyClient φ) (stream : StreamId) : LobbyClient φ :=
  let c := c.removeChannelSharer stream
  let c := if stream ∈ c.watched then c.removeWatch stream else c.rebuildWatchedModel
  if stream ≠ c.camera then c
  else if 0 < c.cameraStopsInFlight then { c with cameraStopsInFlight := c.cameraStopsInFlight - 1 }
  else if c.announced then { c with cameraPreviewPending := false, isCameraOn := false }
  else c

/-- `process_server_messages`. -/
def handle (c : LobbyClient φ) (nowUs : Int) : LobbyMessage → LobbyClient φ
  | .server (.channelUserList channel users) => c.onChannelUserList channel users
  | .server (.userLeftChannel user channel) => c.onUserLeft user channel
  | .server (.screenShareStarted stream _ _ _ replay) => c.onScreenShareStarted nowUs stream replay
  | .server (.screenShareStopped stream) => c.onScreenShareStopped stream
  | message => c.onCore (·.handle message)

end LobbyClient

/-! ### Runs -/

inductive ClientOp (φ : Type) where
  -- the user
  | joinChannel (channel : ChannelId)
  | leaveChannel
  | toggleMute
  | toggleDeafen
  | watchSharer (nowUs : Int) (stream : StreamId)
  | addWatch (nowUs : Int) (stream : StreamId)
  | watchUser (nowUs : Int) (user : UserId)
  | toggleWatch (nowUs : Int) (stream : StreamId)
  | stopWatching
  /-- The platforms with one decoder watch on their own. -/
  | setSingleWatched (nowUs : Int) (stream : StreamId)
  | toggleCamera (devices begun : Bool)
  | restartCamera
  -- the pages
  | selectTextChannel
  | openSettings
  | openSharePicker
  | closeSharePicker
  | routeBack
  | mobileBack
  /-- A double click on a cell of the grid. -/
  | toggleStreamFullscreen (cell : StreamId)
  | exitFullscreen
  -- the platform
  | cameraStarted
  | cameraFailed
  | stopScreenShare
  -- the network, and the threads of the receive router
  | message (nowUs : Int) (message : LobbyMessage)
  | receive (op : RouterOp φ)
  | disconnected (user : UserId)

/-- The calls the main thread alone makes. -/
def isWatch {φ : Type} : RouterOp φ → Bool
  | .openStream .. | .close _ | .closeAll => true
  | _ => false

namespace LobbyClient

variable {φ : Type} [FrameBytes φ]

def step (c : LobbyClient φ) : ClientOp φ → LobbyClient φ
  | .joinChannel channel => c.joinChannel channel
  | .leaveChannel => c.leaveChannel true
  | .toggleMute => c.onCore (·.toggleMute)
  | .toggleDeafen => c.onCore (·.toggleDeafen)
  | .watchSharer nowUs stream => c.watchSharer nowUs stream
  | .addWatch nowUs stream => c.addWatch nowUs stream
  | .watchUser nowUs user => c.watchUser nowUs user
  | .toggleWatch nowUs stream => c.toggleWatch nowUs stream
  | .stopWatching => c.stopWatching
  | .setSingleWatched nowUs stream => c.setSingleWatched nowUs stream
  | .toggleCamera devices begun => c.toggleCamera devices begun
  | .restartCamera => c.onCore (·.restartCamera)
  | .selectTextChannel => { c with router := c.router.go .chat }
  | .openSettings => { c with router := c.router.push .settings }
  | .openSharePicker => { c with router := c.router.push .sharePicker }
  | .closeSharePicker => c.leaveSharePicker
  | .routeBack => { c with router := c.router.back }
  | .mobileBack =>
    if c.router.is .streams then c.stopWatching else { c with router := c.router.back }
  -- the callback does not ask which cell it was, nor whether the cell is still there
  | .toggleStreamFullscreen _ => { c with streamFullscreen := !c.streamFullscreen }
  | .exitFullscreen => { c with streamFullscreen := false }
  | .cameraStarted => c.cameraStarted
  | .cameraFailed => c.cameraFailed
  -- the preview of our own screen
  | .stopScreenShare => c.removeWatch c.userId
  | .message nowUs message => c.handle nowUs message
  | .receive op => if isWatch op then c else { c with videoRx := (c.videoRx.step op).1 }
  | .disconnected user => c.onDisconnectCleanup user

/-- The pages offer the action as the client stands: the platforms with one decoder watch sharers
of the list, and cells are on the page of the streams only. The handlers themselves check neither,
so that a click on a page drawn a moment ago may miss what it shows. -/
def Offered (c : LobbyClient φ) : ClientOp φ → Prop
  | .setSingleWatched _ stream => c.multiStream = false ∧ (stream = 0 ∨ stream ∈ c.sharers)
  | .toggleStreamFullscreen cell => c.router.is .streams = true ∧ ∃ shown ∈ c.grid, shown.id = cell
  | _ => True

omit [FrameBytes φ] in
instance (c : LobbyClient φ) (op : ClientOp φ) : Decidable (c.Offered op) := by
  cases op <;> unfold Offered <;> infer_instance

/-- A client that has signed in. -/
def signedIn (user : UserId) (multiStream cameraSupported : Bool) : LobbyClient φ :=
  { userId := user, multiStream := multiStream, cameraSupported := cameraSupported }

def run (c : LobbyClient φ) (ops : List (ClientOp φ)) : LobbyClient φ := Machine.run step c ops

end LobbyClient

end Parties.Client

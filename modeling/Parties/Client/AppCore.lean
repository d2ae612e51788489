import Parties.Server.ChatHandlers

/-!
# The client between its user and the server

Mirror of the part of `AppCore` (`client/src/app_core.cpp`) and `LobbyModel`
(`client/src/lobby_model.cpp`) that keeps the channels with their users, moves the
user between channels and publishes the camera. The client is logged in, and the server
it talks to has the current protocol version. Control messages come parsed, and what the
client sends is appended to `outgoing`, the control stream on its way to the server.

What the platform does (decoders, the mixer, sounds, the capture itself) is left out. It
reports back through `camera_started` and `camera_failed`.
-/

namespace Parties

open Parties.Video

/-- The control messages about channels, users and streams that reach a client. -/
inductive LobbyMessage where
  | server (message : ServerMessage)
  | channelList (channels : List ListedChannel)
  | userVoiceState (userId : UserId) (muted deafened : Bool)
deriving DecidableEq, Repr

structure ChannelInfo where
  id : ChannelId
  name : String
  maxUsers : BitVec 32
  userCount : Nat
  users : List ChannelUser := []
deriving DecidableEq, Repr

namespace ChannelInfo

def setUsers (ch : ChannelInfo) (users : List ChannelUser) : ChannelInfo :=
  { ch with users := users, userCount := users.length }

/-- Erase the entries of a user. -/
def eraseUser (ch : ChannelInfo) (user : UserId) : ChannelInfo :=
  ch.setUsers (ch.users.filter fun u => u.userId ≠ user)

def modifyUsers (ch : ChannelInfo) (f : ChannelUser → ChannelUser) : ChannelInfo :=
  { ch with users := ch.users.map f }

/-- Change the first channel with the id, where the loops of the source break. -/
def modifyFirst (id : ChannelId) (f : ChannelInfo → ChannelInfo) : List ChannelInfo → List ChannelInfo
  | [] => []
  | ch :: rest => if ch.id = id then f ch :: rest else ch :: modifyFirst id f rest

end ChannelInfo

open ChannelInfo

structure AppCore where
  userId : UserId
  /-- The platform has a decoder for each watched stream. -/
  multiStream : Bool := true
  /-- `camera_supported`. -/
  cameraSupported : Bool := true
  currentChannel : ChannelId := 0
  awaitingChannelJoin : Bool := false
  pendingChannelId : ChannelId := 0
  channels : List ChannelInfo := []
  sharers : List StreamId := []
  watched : List StreamId := []
  viewingSharer : StreamId := 0
  isMuted : Bool := false
  isDeafened : Bool := false
  /-- Publishing or starting the camera. -/
  isCameraOn : Bool := false
  /-- The start was issued, and `camera_started` not seen yet. -/
  cameraStarting : Bool := false
  cameraPreviewPending : Bool := false
  cameraRestartPending : Bool := false
  /-- The stops of the camera the server has not echoed yet. -/
  cameraStopsInFlight : Nat := 0
  outgoing : List ControlMessage := []

namespace AppCore

def sendMessage (c : AppCore) (message : ControlMessage) : AppCore :=
  { c with outgoing := c.outgoing ++ [message] }

def camera (c : AppCore) : StreamId := videoStreamId c.userId .camera

/-! ### Watching -/

/-- `watch_sharer` where there is a single decoder. -/
def watchSharer (c : AppCore) (stream : StreamId) : AppCore :=
  if stream ∈ c.watched then c
  else { c with watched := [stream], viewingSharer := stream }.sendMessage
    (.screenShareView stream none)

def addWatch (c : AppCore) (stream : StreamId) : AppCore :=
  if stream = 0 ∨ stream ∉ c.sharers then c
  else if !c.multiStream then c.watchSharer stream
  else if stream ∈ c.watched then c
  else { c with watched := stream :: c.watched, viewingSharer := stream }.sendMessage
    (.screenShareView stream (some 1))

def removeWatch (c : AppCore) (stream : StreamId) : AppCore :=
  if stream ∉ c.watched then c
  else
    let watched := c.watched.filter (· ≠ stream)
    { c with watched := watched, viewingSharer := watched.headD 0 }.sendMessage
      (.screenShareView stream (some 0))

def stopWatching (c : AppCore) : AppCore :=
  { c with watched := [], viewingSharer := 0 }.sendMessage (.screenShareView 0 none)

def clearAllSharers (c : AppCore) : AppCore :=
  { c with watched := [], viewingSharer := 0, sharers := [] }

/-- `remove_channel_sharer`, and the watch goes with it. -/
def dropSharer (c : AppCore) (stream : StreamId) : AppCore :=
  { c with sharers := c.sharers.filter (· ≠ stream) }.removeWatch stream

/-! ### The camera -/

/-- The camera was announced to the server. -/
def announced (c : AppCore) : Bool := c.isCameraOn && !c.cameraStarting

/-- Tell the server that the camera stops, if it was announced. -/
def sendCameraStop (c : AppCore) (announced : Bool) : AppCore :=
  if announced && c.currentChannel ≠ 0 then
    { c.sendMessage (.screenShareStop 1) with cameraStopsInFlight := c.cameraStopsInFlight + 1 }
  else c

def cameraFailed (c : AppCore) : AppCore :=
  let announced := c.announced
  let c := { c with
    cameraStarting := false
    cameraPreviewPending := false
    cameraRestartPending := false
    isCameraOn := false }
  (c.removeWatch c.camera).sendCameraStop announced

def stopCamera (c : AppCore) (tellServer : Bool) : AppCore :=
  let running := c.isCameraOn || c.cameraStarting
  let announced := c.announced
  let c := { c with
    cameraStarting := false
    cameraPreviewPending := false
    cameraRestartPending := false }
  if !running then c
  else
    let c := { c with isCameraOn := false }
    (c.removeWatch c.camera).sendCameraStop (tellServer && announced)

/-- There may be no capture device, and the capture may not even begin. -/
def startCamera (c : AppCore) (devices begun : Bool) : AppCore :=
  if c.isCameraOn || c.cameraStarting then c
  else if !c.cameraSupported || c.currentChannel = 0 then c
  else if !devices then c
  else
    let c := { c with cameraStarting := true, isCameraOn := true }
    if begun then c else c.cameraFailed

/-- The device or the quality changed. A camera still opening is reopened once it is up. -/
def restartCamera (c : AppCore) : AppCore :=
  if c.isCameraOn && c.cameraStarting then { c with cameraRestartPending := true } else c

def cameraStarted (c : AppCore) : AppCore :=
  if !c.cameraStarting then c   -- stopped (or failed) while it was opening
  else
    let c := { c with cameraStarting := false }
    if c.currentChannel = 0 then c.stopCamera true
    else
      { c.sendMessage (.screenShareStart 0 0 0 1) with
        cameraPreviewPending := true
        cameraRestartPending := false }

def toggleCamera (c : AppCore) (devices begun : Bool) : AppCore :=
  if c.isCameraOn then c.stopCamera true else c.startCamera devices begun

/-! ### Channels -/

def joinChannel (c : AppCore) (channel : ChannelId) : AppCore :=
  if channel = c.currentChannel then c
  else
    { c with awaitingChannelJoin := true, pendingChannelId := channel }.sendMessage
      (.channelJoin channel (some (c.isMuted, c.isDeafened)))

def leaveChannel (c : AppCore) (tellServer : Bool) : AppCore :=
  if c.currentChannel = 0 then c
  else
    let c := c.stopCamera tellServer
    let c := if c.viewingSharer ≠ 0 then c.stopWatching else c
    let c := c.clearAllSharers
    let c := if tellServer then c.sendMessage .channelLeave else c
    { c with
      channels := modifyFirst c.currentChannel (·.eraseUser c.userId) c.channels
      currentChannel := 0 }

/-! ### The messages of the server -/

/-- The users a channel had before the list is replaced. -/
def oldUsers (c : AppCore) (channel : ChannelId) : Option (List ChannelUser) :=
  (c.channels.reverse.find? fun ch => ch.id = channel).map ChannelInfo.users

def onChannelList (c : AppCore) (rows : List ListedChannel) : AppCore :=
  { c with channels := rows.map fun row =>
      let users := c.oldUsers row.id
      { id := row.id
        name := row.name
        maxUsers := row.maxUsers
        userCount := if users.isSome ∧ row.id = c.currentChannel then (users.getD []).length
          else row.userCount.toNat
        users := users.getD [] } }

/-- The acknowledgement of a join: leave the old channel behind and enter the new one. -/
def enterChannel (c : AppCore) (channel : ChannelId) : AppCore :=
  let c := { c with awaitingChannelJoin := false }
  -- the server ended the streams with the old channel
  let c := if c.currentChannel ≠ channel then (c.stopCamera true).clearAllSharers else c
  let c := if c.currentChannel ≠ 0 ∧ c.currentChannel ≠ channel then
      { c with channels := modifyFirst c.currentChannel (·.eraseUser c.userId) c.channels }
    else c
  -- the own entry shows what the client does
  { c with
    currentChannel := channel
    channels := modifyFirst channel (·.modifyUsers fun u =>
      if u.userId = c.userId then { u with muted := c.isMuted, deafened := c.isDeafened }
      else u) c.channels }

def onChannelUserList (c : AppCore) (channel : ChannelId) (users : List ChannelUser) : AppCore :=
  let c := { c with channels := modifyFirst channel (·.setUsers users) c.channels }
  if c.awaitingChannelJoin ∧ c.pendingChannelId = channel then c.enterChannel channel else c

def onUserJoined (c : AppCore) (user : ChannelUser) (channel : ChannelId) : AppCore :=
  { c with channels := modifyFirst channel (fun ch =>
      ch.setUsers ((ch.users.filter fun u => u.userId ≠ user.userId) ++ [user])) c.channels }

def onUserLeft (c : AppCore) (user : UserId) (channel : ChannelId) : AppCore :=
  -- the server took us out of the channel and has already ended our streams
  if user = c.userId ∧ channel = c.currentChannel ∧ c.currentChannel ≠ 0 then c.leaveChannel false
  else
    let c := if channel = c.currentChannel then
        (c.dropSharer (videoStreamId user .screen)).dropSharer (videoStreamId user .camera)
      else c
    { c with channels := modifyFirst channel (·.eraseUser user) c.channels }

/-- Change the entries of a user in every channel. -/
def modifyUser (c : AppCore) (user : UserId) (f : ChannelUser → ChannelUser) : AppCore :=
  { c with channels := c.channels.map (·.modifyUsers fun u => if u.userId = user then f u else u) }

def onUserVoiceState (c : AppCore) (user : UserId) (muted deafened : Bool) : AppCore :=
  c.modifyUser user fun u => { u with muted := muted, deafened := deafened }

def onUserRoleChanged (c : AppCore) (user : UserId) (role : Role) : AppCore :=
  c.modifyUser user fun u => { u with role := role }

/-- `add_channel_sharer` finds the owner in the channel the client is in. -/
def acceptsSharer (c : AppCore) (stream : StreamId) : Bool :=
  c.currentChannel ≠ 0 && videoStreamValid stream &&
    c.channels.any fun ch => ch.id = c.currentChannel &&
      ch.users.any fun u => u.userId = videoStreamOwner stream

def onScreenShareStarted (c : AppCore) (stream : StreamId) : AppCore :=
  if !c.acceptsSharer stream then c
  else
    let c := { c with sharers := if stream ∈ c.sharers then c.sharers else c.sharers ++ [stream] }
    -- show our own camera, unless this is the echo of an earlier start
    if stream = c.camera ∧ c.cameraPreviewPending ∧ c.cameraStopsInFlight = 0 then
      { c with cameraPreviewPending := false }.addWatch stream
    else c

def onScreenShareStopped (c : AppCore) (stream : StreamId) : AppCore :=
  let c := c.dropSharer stream
  if stream ≠ c.camera then c
  else if 0 < c.cameraStopsInFlight then { c with cameraStopsInFlight := c.cameraStopsInFlight - 1 }
  else if c.announced then { c with cameraPreviewPending := false, isCameraOn := false }
  else c

/-- `process_server_messages`, for the messages that concern the lobby. -/
def handle (c : AppCore) : LobbyMessage → AppCore
  | .channelList rows => c.onChannelList rows
  | .userVoiceState user muted deafened => c.onUserVoiceState user muted deafened
  | .server message =>
    match message with
    | .channelUserList channel users => c.onChannelUserList channel users
    | .userJoinedChannel user channel => c.onUserJoined user channel
    | .userLeftChannel user channel => c.onUserLeft user channel
    | .userRoleChanged user role => c.onUserRoleChanged user role
    | .screenShareStarted stream _ _ _ _ => c.onScreenShareStarted stream
    | .screenShareStopped stream => c.onScreenShareStopped stream
    | .serverError .. | .authResponse .. | .screenShareViewer .. | .adminResult _ => c

end AppCore

end Parties

import Parties.Client.AppCore
import Parties.Lib.Machine
import Parties.Server.CameraRequests

/-!
# The camera between the client and the server

The client of one session, the server, and the control streams between them, which are in
order in both directions. Other sessions join, leave, share and delete channels meanwhile;
nobody logs in or is kicked. The lists of channels and the voice states that reach the client
are arbitrary.
-/

namespace Parties

open Parties.Video

/-! ### The system -/

structure CameraHop where
  server : Server
  client : AppCore
  /-- The control messages on their way to the client. -/
  incoming : List LobbyMessage := []

inductive CameraOp where
  -- the user and the platform
  | toggleCamera (devices begun : Bool)
  | cameraStarted
  | cameraFailed
  | restartCamera
  | joinChannel (channel : ChannelId)
  | leaveChannel
  | deleteChannel (channel : ChannelId) (dbOk : Bool)
  -- the next message of a control stream arrives
  | uplink
  | downlink
  -- the others
  | request (other : SessionId) (message : ControlMessage)
  | channelList (channels : List ListedChannel)
  | userVoiceState (userId : UserId) (muted deafened : Bool)

/-- A request of another session, which ends none. -/
def CameraOp.Admits (sid : SessionId) : CameraOp → Prop
  | .request other message => other ≠ sid ∧ message.KeepsSessions
  | _ => True

instance (sid : SessionId) : (op : CameraOp) → Decidable (op.Admits sid)
  | .request .. => inferInstanceAs (Decidable (_ ∧ _))
  | .toggleCamera .. | .cameraStarted | .cameraFailed | .restartCamera | .joinChannel _
  | .leaveChannel | .deleteChannel .. | .uplink | .downlink | .channelList _
  | .userVoiceState .. => isTrue trivial

namespace CameraHop

/-- The server takes a request, and its messages to the session are on their way. -/
def serve (h : CameraHop) (sid other : SessionId) (message : ControlMessage) : CameraHop :=
  let server := h.server.handleMessage other message
  { h with
    server := server
    incoming := h.incoming ++ ((server.sent.drop h.server.sent.length).filter
      fun m => m.1 = sid).map fun m => .server m.2 }

def step (sid : SessionId) (h : CameraHop) : CameraOp → CameraHop
  | .toggleCamera devices begun => { h with client := h.client.toggleCamera devices begun }
  | .cameraStarted => { h with client := h.client.cameraStarted }
  | .cameraFailed => { h with client := h.client.cameraFailed }
  | .restartCamera => { h with client := h.client.restartCamera }
  | .joinChannel channel => { h with client := h.client.joinChannel channel }
  | .leaveChannel => { h with client := h.client.leaveChannel true }
  | .deleteChannel channel dbOk =>
    { h with client := h.client.sendMessage (.adminDeleteChannel channel dbOk) }
  | .uplink =>
    match h.client.outgoing with
    | [] => h
    | message :: rest =>
      { h with client := { h.client with outgoing := rest } }.serve sid sid message
  | .downlink =>
    match h.incoming with
    | [] => h
    | message :: rest => { h with client := h.client.handle message, incoming := rest }
  | .request other message => h.serve sid other message
  | .channelList channels => { h with incoming := h.incoming ++ [.channelList channels] }
  | .userVoiceState user muted deafened =>
    { h with incoming := h.incoming ++ [.userVoiceState user muted deafened] }

end CameraHop

/-! ### What concerns the camera -/

inductive CameraOrder where
  | start
  | stop
deriving DecidableEq, Repr

def ControlMessage.order : ControlMessage → Option CameraOrder
  | .screenShareStart _ _ _ source => if source = 1 then some .start else none
  | .screenShareStop source => if source = 1 then some .stop else none
  | _ => none

def LobbyMessage.notice (user : UserId) : LobbyMessage → Option Notice
  | .server message => message.notice user
  | _ => none

/-- The starts and stops on their way to the server. -/
def AppCore.orders (k : AppCore) : List CameraOrder := k.outgoing.filterMap ControlMessage.order

namespace CameraHop

/-- The notices on their way to the client. -/
def notices (h : CameraHop) : List Notice :=
  h.incoming.filterMap (LobbyMessage.notice h.client.userId)

/-- The server lists the camera of the user in the channel of the user. -/
def Lists (sid : SessionId) (h : CameraHop) : Prop :=
  h.client.camera ∈ h.server.channelVideoStreams (h.server.sessions sid).channelId

instance (sid : SessionId) (h : CameraHop) : Decidable (h.Lists sid) :=
  inferInstanceAs (Decidable (_ ∈ _))

/-- No control message is in flight, and no capture is opening. -/
def AtRest (h : CameraHop) : Prop :=
  h.client.outgoing = [] ∧ h.incoming = [] ∧ h.client.cameraStarting = false

instance (h : CameraHop) : Decidable h.AtRest := inferInstanceAs (Decidable (_ ∧ _ ∧ _))

/-- At rest, client and server agree about the camera. -/
def Agrees (sid : SessionId) (h : CameraHop) : Prop :=
  h.AtRest → (h.client.isCameraOn = true ↔ h.Lists sid) ∧ h.client.cameraStopsInFlight = 0 ∧
    (h.client.isCameraOn = true → h.client.cameraPreviewPending = false)

instance (sid : SessionId) (h : CameraHop) : Decidable (h.Agrees sid) :=
  inferInstanceAs (Decidable (_ → _ ∧ _ ∧ (_ → _)))

/-- The session has signed in, and its camera is listed nowhere. -/
structure SignedIn (sid : SessionId) (h : CameraHop) : Prop where
  server : ∃ config env ops, h.server = Server.run config env ops
  inTable : sid ∈ h.server.sessionTable
  authenticated : (h.server.sessions sid).authenticated = true
  camera : (h.server.sessions sid).supportsCamera = true
  owner : (h.server.sessions sid).userId = h.client.userId
  nowhere : (h.server.sessions sid).channelId = 0
  unlisted : ∀ channel, h.client.camera ∉ h.server.channelVideoStreams channel
  outside : h.client.currentChannel = 0
  off : h.client.isCameraOn = false ∧ h.client.cameraStarting = false
  stops : h.client.cameraStopsInFlight = 0
  outgoing : h.client.outgoing = []
  notices : h.notices = []

/-! ### The condition on a step -/

/-- Behind a start on its way, the client has sent its stop, or it has that camera on. -/
def Upheld : List CameraOrder → Bool → Prop
  | [], announced => announced = true
  | order :: _, _ => order = .stop

instance : (behind : List CameraOrder) → (announced : Bool) → Decidable (Upheld behind announced)
  | [], _ => inferInstanceAs (Decidable (_ = _))
  | _ :: _, _ => inferInstanceAs (Decidable (_ = _))

/-- The server dropped the start of the camera the client has on: the start is not on its
way, the camera is not listed, and the stops on their way are those the client waits for. -/
def Dropped (sid : SessionId) (h : CameraHop) : Prop :=
  h.client.announced = true ∧ h.client.orders = [] ∧ ¬ h.Lists sid ∧
    h.notices.count .stopped = h.client.cameraStopsInFlight

instance (sid : SessionId) (h : CameraHop) : Decidable (h.Dropped sid) :=
  inferInstanceAs (Decidable (_ ∧ _ ∧ ¬ _ ∧ _))

/-- The step makes the client send a stop of its camera. -/
def SendsStop (h : CameraHop) : CameraOp → Prop
  | .toggleCamera .. | .cameraFailed | .leaveChannel => h.client.announced = true
  | .downlink => h.client.announced = true ∧ h.client.awaitingChannelJoin = true ∧
      h.client.pendingChannelId ≠ h.client.currentChannel ∧
      h.incoming.head?.bind (LobbyMessage.notice h.client.userId) =
        some (.entered h.client.pendingChannelId)
  | _ => False

instance (h : CameraHop) : (op : CameraOp) → Decidable (h.SendsStop op)
  | .toggleCamera .. | .cameraFailed | .leaveChannel => inferInstanceAs (Decidable (_ = _))
  | .downlink => inferInstanceAs (Decidable (_ ∧ _ ∧ _ ∧ _))
  | .cameraStarted | .restartCamera | .joinChannel _ | .deleteChannel .. | .uplink | .request ..
  | .channelList _ | .userVoiceState .. => inferInstanceAs (Decidable False)

/-- The next notice the client takes. -/
def nextNotice (h : CameraHop) : CameraOp → Option Notice
  | .downlink => h.incoming.head?.bind (LobbyMessage.notice h.client.userId)
  | _ => none

/-- The next order the server takes, and the orders behind it. -/
def takesStart (h : CameraHop) : CameraOp → Option (List CameraOrder)
  | .uplink =>
    match h.client.outgoing with
    | message :: rest =>
      if message.order = some .start then some (rest.filterMap ControlMessage.order) else none
    | [] => none
  | _ => none

/-- The step does not get the two sides out of step. -/
structure Orderly (sid : SessionId) (h : CameraHop) (op : CameraOp) : Prop where
  /-- A start that the server takes in a channel is of a camera that the client still has on
  or has sent the stop of. -/
  taken : ∀ behind, h.takesStart op = some behind →
    (h.server.sessions sid).channelId ≠ 0 → Upheld behind h.client.announced
  /-- A start that the server drops is of a camera that the client has left without a stop or
  is about to. -/
  dropped : ∀ behind, h.takesStart op = some behind → (h.server.sessions sid).channelId = 0 →
    Upheld behind h.client.announced → behind = [] ∧ .left h.client.currentChannel ∈ h.notices
  /-- The client sends no stop of a camera whose start was dropped. -/
  stops : h.SendsStop op → ¬ h.Dropped sid
  /-- The client leaves no camera without a stop that the server has taken. -/
  left : h.nextNotice op = some (.left h.client.currentChannel) → h.client.announced = true →
    h.client.orders.getLast? = some .start ∨ h.Dropped sid
  /-- The client is in its own list when it is to show the camera. -/
  shown : h.nextNotice op = some .started → h.client.cameraPreviewPending = true →
    h.client.cameraStopsInFlight = 0 → h.client.acceptsSharer h.client.camera = true

instance (sid : SessionId) (h : CameraHop) (op : CameraOp) : Decidable (h.Orderly sid op) :=
  decidable_of_iff
    ((∀ behind ∈ h.takesStart op, (h.server.sessions sid).channelId ≠ 0 →
        Upheld behind h.client.announced) ∧
      (∀ behind ∈ h.takesStart op, (h.server.sessions sid).channelId = 0 →
        Upheld behind h.client.announced →
          behind = [] ∧ .left h.client.currentChannel ∈ h.notices) ∧
      (h.SendsStop op → ¬ h.Dropped sid) ∧
      (h.nextNotice op = some (.left h.client.currentChannel) → h.client.announced = true →
        h.client.orders.getLast? = some .start ∨ h.Dropped sid) ∧
      (h.nextNotice op = some .started → h.client.cameraPreviewPending = true →
        h.client.cameraStopsInFlight = 0 → h.client.acceptsSharer h.client.camera = true))
    ⟨fun ⟨taken, dropped, stops, left, shown⟩ => ⟨taken, dropped, stops, left, shown⟩,
      fun ⟨taken, dropped, stops, left, shown⟩ => ⟨taken, dropped, stops, left, shown⟩⟩

end CameraHop

end Parties

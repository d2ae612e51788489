import Mathlib.Data.List.Sort
import Parties.Permissions
import Parties.Server.KeyframeRequests
import Parties.Video.FrameReorder

/-!
# The state of the server

Mirror of `Session` (`server/include/server/session.h`), of the session table and
the disconnect queue of `QuicServer`, and of the members of `Server`
(`server/include/server/server.h`) behind logins, channels and video streams.

A session object outlives its entry in the session table: queues and maps hold
pointers to it. So the objects live in a heap, `sessions`, under the ids the
transport gave out, and everything else holds ids. Ids are not reused.

What the server reads from its environment in the middle of a handler is a
function of the number of clock readings before: the clock itself, and what the
transport says at that moment. Some fields have no counterpart in the source; they
record what happened, and no handler reads them.
-/

namespace Parties

open Parties.Video

abbrev SessionId := Nat
abbrev PublicKey := Bytes
abbrev Fingerprint := String

/-! ### Sessions -/

/-- A session as the publisher of one source. -/
structure VideoSourceState where
  ingressAllowed : Bool := false
  generation : Nat := 0
  codec : BitVec 8 := 0
  width : BitVec 16 := 0
  height : BitVec 16 := 0
deriving DecidableEq, Repr

/-- A per-frame stream toward a viewer that has not shut down yet. -/
structure VideoOutStream where
  handle : Nat
  stream : StreamId
  frameSeq : BitVec 32
  keyframe : Bool
deriving DecidableEq, Repr

/-- What became of a stream at one of its viewers. -/
inductive ViewerEvent where
  /-- A frame went to the transport. -/
  | handed (hdr : VideoFrameHeader) (handle : Nat)
  /-- The gate dropped a frame or its send failed. -/
  | missed
  /-- Queued frames were aborted: all, or those older than a frame. -/
  | aborted (beforeSeq : Option (BitVec 32)) (streams : List VideoOutStream)
deriving DecidableEq, Repr

structure Session where
  authenticated : Bool := false
  userId : UserId := 0
  username : String := ""
  role : Role := Role.USER
  publicKey : PublicKey := []
  protocolVersion : BitVec 16 := PROTOCOL_VERSION_ASSUMED_LEGACY
  channelId : ChannelId := 0
  muted : Bool := false
  deafened : Bool := false
  alive : Bool := true
  videoSources : VideoSource → VideoSourceState := fun _ => {}
  videoPendingBytes : Int := 0
  subscribedSharers : List StreamId := []
  videoGates : StreamId → Option ViewerVideoGate := fun _ => none
  videoOutStreams : List VideoOutStream := []
  /-- The number of frames handed to this viewer, for the handles. -/
  framesHanded : Nat := 0
  /-- The record of each stream since its last subscription. -/
  viewerLog : StreamId → List ViewerEvent := fun _ => []

def VIDEO_INGRESS_MAX_BUFFERED_BYTES : Int := 4 * 4 * 1024 * 1024

namespace Session

def supportsFrameStreams (s : Session) : Bool := protocolSupportsFrameStreams s.protocolVersion

def supportsCamera (s : Session) : Bool := protocolSupportsCamera s.protocolVersion

def videoIngressAllowed (s : Session) (source : VideoSource) : Bool :=
  (s.videoSources source).ingressAllowed

def modifySource (s : Session) (source : VideoSource)
    (f : VideoSourceState → VideoSourceState) : Session :=
  { s with videoSources := Function.update s.videoSources source (f (s.videoSources source)) }

/-- Drop the subscription to a stream and its gate. -/
def unsubscribe (s : Session) (stream : StreamId) : Session :=
  { s with
    subscribedSharers := s.subscribedSharers.filter (· ≠ stream)
    videoGates := Function.update s.videoGates stream none }

def unsubscribeAll (s : Session) : Session :=
  { s with subscribedSharers := [], videoGates := fun _ => none }

def logViewer (s : Session) (stream : StreamId) (events : List ViewerEvent) : Session :=
  { s with viewerLog := Function.update s.viewerLog stream (s.viewerLog stream ++ events) }

end Session

/-- What the transport leaves for the main loop when a session ends. -/
structure SessionDisconnect where
  sessionId : SessionId
  userId : UserId
  channelId : ChannelId
deriving DecidableEq, Repr

/-! ### Video ingress -/

inductive IngressEvent where
  | frame (frame : ShareFrame)
  | started (hdr : VideoFrameHeader)
  /-- `none`: the stream died before its header. -/
  | aborted (frameSeq : Option (BitVec 32))

structure PendingVideoFrame where
  session : SessionId
  source : VideoSource
  generation : Nat
  event : IngressEvent

def PendingVideoFrame.size (p : PendingVideoFrame) : Int :=
  match p.event with
  | .frame frame => frameSize frame
  | _ => 0

structure VideoIngress where
  session : SessionId
  source : VideoSource
  reorder : VideoFrameReorderBuffer ShareFrame

/-- The record of the shares of a stream. -/
structure ShareLog where
  /-- The number of accepted starts. -/
  share : Nat := 0
  /-- The session the last share runs on, with its generation at the start. -/
  runsOn : Option (SessionId × Nat) := none
  /-- The frames of its session that waited at the start or completed while it runs. -/
  received : List ShareFrame := []
  /-- The frames passed to `forward_video_frame` since the start. -/
  passedOn : List ShareFrame := []

/-! ### Control messages -/

inductive ServerErrorCode where
  | generic
  | badVersion
  | badAuth
  | badPassword
  | kicked
  | replaced
  | permissionDenied
deriving DecidableEq, Repr

structure ChannelUser where
  userId : UserId
  username : String
  role : Role
  muted : Bool
  deafened : Bool
deriving DecidableEq, Repr

/-- The messages the handlers below send. -/
inductive ServerMessage where
  | serverError (code : ServerErrorCode) (text : String)
  | authResponse (userId : UserId) (role : Role)
  | channelUserList (channel : ChannelId) (users : List ChannelUser)
  | userJoinedChannel (user : ChannelUser) (channel : ChannelId)
  | userLeftChannel (userId : UserId) (channel : ChannelId)
  | screenShareStarted (stream : StreamId) (codec : BitVec 8) (width height : BitVec 16)
      (replay : Bool)
  | screenShareStopped (stream : StreamId)
  | screenShareViewer (viewer : UserId) (watching : Bool)
  | userRoleChanged (userId : UserId) (role : Role)
  | adminResult (text : String)
deriving DecidableEq, Repr

/-! ### Database and configuration -/

structure UserRow where
  id : UserId
  publicKey : PublicKey
  displayName : String
  role : Role
deriving DecidableEq, Repr

structure ChannelRow where
  id : ChannelId
  name : String
  maxUsers : Int
  sortOrder : Int := 0
deriving DecidableEq, Repr

/-- A name is bound up to its first zero character. -/
def bindName (name : String) : String := String.ofList (name.toList.takeWhile (· ≠ '\x00'))

structure Database where
  users : List UserRow := []
  channels : List ChannelRow := []
  /-- The largest row ids given out so far (`AUTOINCREMENT`). -/
  lastUserId : Nat := 0
  lastChannelId : Nat := 0
  channelPermission : ChannelId → Role → Option Permissions := fun _ _ => none

namespace Database

def getUserById (db : Database) (id : UserId) : Option UserRow := db.users.find? fun u => u.id = id

def getUserByPubkey (db : Database) (pubkey : PublicKey) : Option UserRow :=
  db.users.find? fun u => u.publicKey = pubkey

/-- A stream id has the user in its lower 30 bits and the source above them, so user ids stay below
`2 ^ 30` (`docs/protocol.md`). The server has no check of its own: a table that would come to that
bound refuses the account here, as if the statement had failed. -/
def createUser (db : Database) (pubkey : PublicKey) (displayName : String) (role : Role) :
    Option Database :=
  if 2 ^ 30 ≤ db.lastUserId + 1 then none
  else some { db with
    lastUserId := db.lastUserId + 1
    users := db.users ++ [{
      id := BitVec.ofNat 32 (db.lastUserId + 1)
      publicKey := pubkey
      displayName := displayName
      role := role }] }

def updateUser (db : Database) (id : UserId) (f : UserRow → UserRow) : Database :=
  { db with users := db.users.map fun u => if u.id = id then f u else u }

def setUserRole (db : Database) (id : UserId) (role : Role) : Database :=
  db.updateUser id fun u => { u with role := role }

def getChannel (db : Database) (channel : ChannelId) : Option ChannelRow :=
  db.channels.find? fun c => c.id = channel

/-- `ORDER BY sort_order, id`. -/
def getAllChannels (db : Database) : List ChannelRow :=
  db.channels.insertionSort fun a b =>
    a.sortOrder < b.sortOrder ∨ a.sortOrder = b.sortOrder ∧ a.id ≤ b.id

/-- Row ids do not reach `2 ^ 32`, and names are unique. -/
def createChannel (db : Database) (name : String) (maxUsers : Int) : Option Database :=
  if 2 ^ 32 ≤ db.lastChannelId + 1 ∨ db.channels.any (fun c => c.name = bindName name) then none
  else some { db with
    lastChannelId := db.lastChannelId + 1
    channels := db.channels ++ [{
      id := BitVec.ofNat 32 (db.lastChannelId + 1)
      name := bindName name
      maxUsers := maxUsers }] }

def deleteChannel (db : Database) (channel : ChannelId) : Database :=
  { db with
    channels := db.channels.filter fun c => c.id ≠ channel
    channelPermission := fun c => if c = channel then fun _ => none else db.channelPermission c }

end Database

structure Config where
  serverPassword : String := ""
  rootFingerprints : List Fingerprint := []
  maxUsersPerChannel : Int := 32
  /-- The functions of the crypto library. -/
  publicKeyFingerprint : PublicKey → Fingerprint
  ed25519Verify : (signedMessage signature : Bytes) → PublicKey → Bool

/-- A server without a password; the key `[0]` is the root's. -/
def Config.small : Config where
  rootFingerprints := ["root"]
  publicKeyFingerprint key := if key = [0] then "root" else "user"
  ed25519Verify _ _ _ := true

/-- What the server reads from outside. The argument of type `Nat` is the number of
clock readings before. -/
structure Environment where
  /-- `now_us`, a steady clock. -/
  clockUs : Nat → Int
  clock_pos : ∀ n, 0 < clockUs n
  clock_mono : ∀ n, clockUs n ≤ clockUs (n + 1)
  srttUs : Nat → SessionId → Nat
  /-- The bytes queued and in flight toward a viewer, and its budget. -/
  videoOutstandingBytes : Nat → SessionId → Int
  viewerBacklogThreshold : Nat → SessionId → Int
  /-- `send_video_frame_to` succeeds. -/
  videoFrameSent : Nat → SessionId → Bool

/-- A clock that moves by `stepUs` at every reading, and viewers without a backlog. -/
def Environment.ticking (stepUs : Nat) : Environment where
  clockUs n := (1 + n * stepUs : Nat)
  clock_pos n := Int.natCast_pos.mpr (by omega)
  clock_mono n := Int.ofNat_le.mpr
    (Nat.add_le_add_left (Nat.mul_le_mul_right stepUs n.le_succ) 1)
  srttUs _ _ := 0
  videoOutstandingBytes _ _ := 0
  viewerBacklogThreshold _ _ := 1
  videoFrameSent _ _ := true

/-! ### The server -/

structure Server where
  config : Config
  env : Environment
  /-- The clock readings so far. -/
  reads : Nat := 0
  db : Database := {}
  sessions : SessionId → Session := fun _ => {}
  /-- The keys of `QuicServer::sessions_`. -/
  sessionTable : List SessionId := []
  nextSessionId : SessionId := 1
  disconnects : List SessionDisconnect := []
  userSessions : UserId → Option SessionId := fun _ => none
  /-- The keys of `authed_sessions_`. -/
  authedSessions : SessionId → Bool := fun _ => false
  recentAuth : Fingerprint → Option (BitVec 64) := fun _ => none
  channelVideoStreams : ChannelId → List StreamId := fun _ => []
  videoIncoming : List PendingVideoFrame := []
  videoIngress : StreamId → Option VideoIngress := fun _ => none
  sharerVideoState : SharerVideoStates := fun _ => none
  /-- The time the last pass of `process_video_frames` took at its start. -/
  passUs : Option Int := none
  -- what happened
  acceptedAuths : List (PublicKey × BitVec 64) := []
  sent : List (SessionId × ServerMessage) := []
  keyframeCalls : List KeyframeCall := []
  keyframeRequests : List KeyframeRequest := []
  shareLog : StreamId → ShareLog := fun _ => {}

namespace Server

def nowUs (s : Server) : Int := s.env.clockUs s.reads

def readClock (s : Server) : Server := { s with reads := s.reads + 1 }

def getSession (s : Server) (sid : SessionId) : Option Session :=
  if sid ∈ s.sessionTable then some (s.sessions sid) else none

/-- The id of the session `session_for_user` returns. -/
def sessionForUser (s : Server) (user : UserId) : Option SessionId :=
  (s.userSessions user).filter fun sid => sid ∈ s.sessionTable

def modifySession (s : Server) (sid : SessionId) (f : Session → Session) : Server :=
  { s with sessions := Function.update s.sessions sid (f (s.sessions sid)) }

/-- Change every session in the table. -/
def modifySessions (s : Server) (f : Session → Session) : Server :=
  { s with sessions := fun sid =>
      if sid ∈ s.sessionTable then f (s.sessions sid) else s.sessions sid }

def modifyShareLog (s : Server) (stream : StreamId) (f : ShareLog → ShareLog) : Server :=
  { s with shareLog := Function.update s.shareLog stream (f (s.shareLog stream)) }

/-- The frames of a generation of a source that wait in the ingress queue. -/
def waitingFrames (s : Server) (sid : SessionId) (source : VideoSource) (generation : Nat) :
    List ShareFrame :=
  s.videoIncoming.filterMap fun p =>
    match p.event with
    | .frame frame =>
      if p.session = sid ∧ p.source = source ∧ p.generation = generation then some frame else none
    | _ => none

def sendTo (s : Server) (sid : SessionId) (message : ServerMessage) : Server :=
  { s with sent := s.sent ++ [(sid, message)] }

/-- Send to the sessions in the table that `picks` holds of. -/
def sendToAll (s : Server) (picks : SessionId → Session → Bool) (message : ServerMessage) : Server :=
  { s with sent := s.sent ++
      (s.sessionTable.filter fun sid => picks sid (s.sessions sid)).map fun sid => (sid, message) }

def sendError (s : Server) (sid : SessionId) (text : String)
    (code : ServerErrorCode := .generic) : Server :=
  s.sendTo sid (.serverError code text)

/-- A call on the state of the sharers. -/
def keyframeCall (s : Server) (c : KeyframeCall) : Server :=
  { s with
    sharerVideoState := (s.sharerVideoState.step c).1
    keyframeRequests := s.keyframeRequests ++ (s.sharerVideoState.step c).2
    keyframeCalls := s.keyframeCalls ++ [c] }

end Server

end Parties

import Parties.Lib.Machine
import Parties.Server.VideoPath
import Parties.Wire.Serialization

/-!
# Control messages and the step of the server

Mirror of the cases of `Server::handle_message` (`server/src/server.cpp`) that log
users in and out, move them between channels or start and stop streams, and of the
connection events of `server/src/quic_server.cpp`. The messages come parsed. The
main loop and the transport thread take turns: one step is one handler, one entry
of a queue, or one event of the transport.

In the source the two threads share the table of sessions, the handles and flags in a
session and the queue of disconnects, and an event may come between any two lines of a
handler. Where that makes a difference to a result, the handler that is overtaken is an
operation of its own beside this step: the login in `OneSession`, the join in
`LobbyServer`.
-/

namespace Parties

open Parties.Video

/-! ### Messages -/

/-- `AUTH_IDENTITY`. -/
structure AuthIdentity where
  version : BitVec 16 := PROTOCOL_VERSION_CAMERA
  publicKey : PublicKey
  displayName : String := ""
  timestamp : BitVec 64
  signature : Bytes := []
  password : String := ""

/-- What was signed, as the server writes it again. -/
def AuthIdentity.signedMessage (auth : AuthIdentity) : Bytes :=
  auth.publicKey ++ Wire.writeString auth.displayName ++ Wire.writeU64 auth.timestamp

def videoSourceOf (raw : BitVec 8) : Option VideoSource :=
  if raw = 0 then some .screen else if raw = 1 then some .camera else none

inductive ControlMessage where
  /-- `nowS` is the wall clock, `dbOk` whether the database writes succeed. -/
  | authIdentity (auth : AuthIdentity) (nowS : BitVec 64) (dbOk : Bool)
  | channelJoin (channel : ChannelId) (voiceState : Option (Bool × Bool))
  | channelLeave
  | adminCreateChannel (name : String) (maxUsers : Int) (dbOk : Bool)
  | adminDeleteChannel (channel : ChannelId) (dbOk : Bool)
  | adminSetRole (target : UserId) (newRole : Role) (dbOk : Bool)
  | adminKickUser (target : UserId)
  | screenShareStart (codec : BitVec 8) (width height : BitVec 16) (source : BitVec 8)
  | screenShareUpdate (codec : BitVec 8) (width height : BitVec 16) (source : BitVec 8)
  | screenShareStop (source : BitVec 8)
  | screenShareView (target : StreamId) (action : Option (BitVec 8))

namespace Server

/-! ### Connections -/

def onNewConnection (s : Server) : Server :=
  { s with
    sessions := Function.update s.sessions s.nextSessionId {}
    sessionTable := s.sessionTable ++ [s.nextSessionId]
    nextSessionId := s.nextSessionId + 1 }

/-- `SHUTDOWN_COMPLETE` of a connection. -/
def onShutdownComplete (s : Server) (sid : SessionId) : Server :=
  match s.getSession sid with
  | none => s
  | some session =>
    let s := s.endShares sid
    let s := s.modifySession sid fun session => { session with alive := false }
    { s with
      disconnects := if session.authenticated then
          s.disconnects ++ [{
            sessionId := sid
            userId := session.userId
            channelId := session.channelId }]
        else s.disconnects
      sessionTable := s.sessionTable.filter (· ≠ sid) }

/-- `QuicServer::disconnect`: the session leaves the table when the shutdown is
complete. -/
def disconnect (s : Server) (sid : SessionId) : Server :=
  match s.getSession sid with
  | none => s
  | some _ => (s.endShares sid).modifySession sid fun session => { session with alive := false }

/-- `process_disconnects`, one entry. -/
def processDisconnects (s : Server) : Server :=
  match s.disconnects with
  | [] => s
  | d :: rest => { s with disconnects := rest }.processDisconnect d.sessionId d.userId d.channelId

/-! ### Login -/

def AUTH_WINDOW_SEC : Int := 30

/-- The checks of `AUTH_IDENTITY` before the replay guard is pruned. -/
def checkFresh (auth : AuthIdentity) (nowS : BitVec 64) : Except (String × ServerErrorCode) Unit := do
  if protocolMajor auth.version ≠ PROTOCOL_VERSION_MAJOR then
    throw ("Incompatible protocol version (server major " ++ toString PROTOCOL_VERSION_MAJOR.toNat ++
      ", client major " ++ toString (protocolMajor auth.version).toNat ++ ")", .badVersion)
  let diff := nowS.toInt - auth.timestamp.toInt
  if AUTH_WINDOW_SEC < diff ∨ diff < -AUTH_WINDOW_SEC then
    throw ("Auth timestamp out of range", .badAuth)

/-- The checks after that, up to the acceptance. -/
def checkIdentity (s : Server) (auth : AuthIdentity) : Except (String × ServerErrorCode) Unit := do
  if (s.recentAuth (s.config.publicKeyFingerprint auth.publicKey)).any (auth.timestamp ≤ ·) then
    throw ("Stale authentication; please retry", .badAuth)
  if !s.config.ed25519Verify auth.signedMessage auth.signature auth.publicKey then
    throw ("Invalid signature", .badAuth)
  if s.config.serverPassword ≠ "" ∧ auth.password ≠ s.config.serverPassword then
    throw ("Incorrect server password", .badPassword)

/-- Drop the entries of the replay guard that are out of the window. -/
def pruneRecentAuth (s : Server) (nowS : BitVec 64) : Server :=
  { s with recentAuth := fun fp =>
      (s.recentAuth fp).filter fun seen => nowS.toInt - seen.toInt ≤ AUTH_WINDOW_SEC }

/-- Look the user up, or create it; the stored name and role follow. -/
def loginUser (s : Server) (auth : AuthIdentity) (dbOk : Bool) : Option (UserRow × Database) :=
  let isRoot := s.config.publicKeyFingerprint auth.publicKey ∈ s.config.rootFingerprints
  match s.db.getUserByPubkey auth.publicKey with
  | none =>
    if !dbOk then none
    else do
      let db ← s.db.createUser auth.publicKey auth.displayName
        (if isRoot then Role.OWNER else Role.USER)
      let user ← db.getUserByPubkey auth.publicKey
      return (user, db)
  | some user =>
    let user := { user with
      displayName := auth.displayName
      role := if isRoot then Role.OWNER else user.role }
    some (user, if dbOk then s.db.updateUser user.id fun _ => user else s.db)

/-- End an older session of the identity that logs in. -/
def kickDuplicate (s : Server) (sid : SessionId) : Server :=
  let session := s.sessions sid
  let s := s.sendError sid "Signed in from another location" .replaced
  let s := (s.endShares sid).processDisconnect sid session.userId session.channelId
  let s := s.modifySession sid fun session =>
    { session with channelId := 0, authenticated := false }
  s.disconnect sid

def kickDuplicates (s : Server) (sid : SessionId) (pubkey : PublicKey) : Server :=
  s.sessionTable.foldl (fun s other =>
    if other ≠ sid ∧ (s.sessions other).authenticated ∧ (s.sessions other).publicKey = pubkey then
      s.kickDuplicate other
    else s) s

def signIn (s : Server) (sid : SessionId) (auth : AuthIdentity) (user : UserRow) : Server :=
  let s := s.modifySession sid fun session =>
    { session with
      authenticated := true
      userId := user.id
      username := user.displayName
      role := user.role
      publicKey := auth.publicKey
      protocolVersion := auth.version }
  let s := { s with
    userSessions := Function.update s.userSessions user.id (some sid)
    authedSessions := Function.update s.authedSessions sid true }
  s.sendTo sid (.authResponse user.id user.role)

/-- An accepted login. -/
def acceptIdentity (s : Server) (sid : SessionId) (auth : AuthIdentity) (dbOk : Bool) : Server :=
  let fp := s.config.publicKeyFingerprint auth.publicKey
  let s := { s with
    recentAuth := Function.update s.recentAuth fp (some auth.timestamp)
    acceptedAuths := s.acceptedAuths ++ [(auth.publicKey, auth.timestamp)] }
  match s.loginUser auth dbOk with
  | none => s.sendError sid "Failed to create user"
  | some (user, db) =>
    ({ s with db := db }.kickDuplicates sid auth.publicKey).signIn sid auth user

def authIdentity (s : Server) (sid : SessionId) (auth : AuthIdentity) (nowS : BitVec 64)
    (dbOk : Bool) : Server :=
  if (s.sessions sid).authenticated then s
  else
    match checkFresh auth nowS with
    | .error (text, code) => s.sendError sid text code
    | .ok _ =>
      let s := s.pruneRecentAuth nowS
      match s.checkIdentity auth with
      | .error (text, code) => s.sendError sid text code
      | .ok _ => s.acceptIdentity sid auth dbOk

end Server

/-! ### Channels -/

/-- `CHANNEL_JOIN` may bring the voice state along. -/
def Session.enter (session : Session) (channel : ChannelId) : Option (Bool × Bool) → Session
  | some (muted, deafened) =>
    { session with channelId := channel, muted := muted, deafened := deafened }
  | none => { session with channelId := channel }

namespace Server

def channelUsers (s : Server) (channel : ChannelId) : List ChannelUser :=
  (s.sessionTable.map s.sessions).filterMap fun session =>
    if session.authenticated && session.channelId = channel then
      some {
        userId := session.userId
        username := session.username
        role := session.role
        muted := session.muted
        deafened := session.deafened }
    else none

/-- The checks of `CHANNEL_JOIN`. -/
def checkJoin (s : Server) (sid : SessionId) (channel : ChannelId) : Except String Unit := do
  let some row := s.db.getChannel channel | throw "Channel not found"
  let role := (s.sessions sid).role
  if !hasPermission role Permissions.JOIN_CHANNEL (s.db.channelPermission channel role) then
    throw "Permission denied"
  let max := if 0 < row.maxUsers then row.maxUsers else s.config.maxUsersPerChannel
  if 0 < max ∧ max ≤ (s.channelUsers channel).length then throw "Channel is full"

/-- Leave the channel for another one, or for none. -/
def leaveChannel (s : Server) (sid : SessionId) : Server :=
  let user := (s.sessions sid).userId
  let channel := (s.sessions sid).channelId
  let s := (s.endShares sid).stopAllVideoStreams channel user
  let s := s.clearViewerSubscriptions sid true
  let s := s.modifySession sid fun session => { session with channelId := 0 }
  s.sendToAll (fun other session => other ≠ sid && session.authenticated)
    (.userLeftChannel user channel)

/-- Tell a session that joined about the streams that run in its channel. -/
def replayStreams (s : Server) (sid : SessionId) (channel : ChannelId) : Server :=
  (s.channelVideoStreams channel).foldl (fun s stream =>
    match s.sessionForUser (videoStreamOwner stream) with
    | none => s
    | some publisher =>
      if (s.sessions publisher).authenticated then s.announceVideoStream sid stream publisher true
      else s) s

def channelJoin (s : Server) (sid : SessionId) (channel : ChannelId)
    (voiceState : Option (Bool × Bool)) : Server :=
  if !(s.sessions sid).authenticated then s
  else
    match s.checkJoin sid channel with
    | .error text => s.sendError sid text
    | .ok _ =>
      let old := (s.sessions sid).channelId
      let s := if old ≠ 0 ∧ old ≠ channel then s.leaveChannel sid else s
      let s := s.modifySession sid fun session => session.enter channel voiceState
      let s := s.sendTo sid (.channelUserList channel (s.channelUsers channel))
      let s := s.replayStreams sid channel
      let session := s.sessions sid
      s.sendToAll (fun other session => other ≠ sid && session.authenticated)
        (.userJoinedChannel {
          userId := session.userId
          username := session.username
          role := session.role
          muted := session.muted
          deafened := session.deafened } channel)

def channelLeave (s : Server) (sid : SessionId) : Server :=
  if !(s.sessions sid).authenticated || (s.sessions sid).channelId = 0 then s
  else s.leaveChannel sid

/-! ### Administration -/

def adminCreateChannel (s : Server) (sid : SessionId) (name : String) (maxUsers : Int)
    (dbOk : Bool) : Server :=
  if !(s.sessions sid).authenticated then s
  else if !hasPermission (s.sessions sid).role Permissions.CREATE_CHANNEL none then
    s.sendError sid "Permission denied"
  else if name = "" then s
  else
    match (if dbOk then s.db.createChannel name maxUsers else none) with
    | none => s.sendError sid "Failed to create channel"
    | some db => { s with db := db }.sendTo sid (.adminResult "Channel created")

/-- First loop of `ADMIN_DELETE_CHANNEL`: tear the video state down. -/
def evictStreams (s : Server) (channel : ChannelId) : Server :=
  s.sessionTable.foldl (fun s sid =>
    if (s.sessions sid).authenticated ∧ (s.sessions sid).channelId = channel then
      ((s.endShares sid).stopAllVideoStreams channel
        (s.sessions sid).userId).clearViewerSubscriptions sid false
    else s) s

/-- Second loop: take everyone out of the channel. -/
def evictUsers (s : Server) (channel : ChannelId) : Server :=
  s.sessionTable.foldl (fun s sid =>
    if (s.sessions sid).authenticated ∧ (s.sessions sid).channelId = channel then
      (s.modifySession sid fun session => { session with channelId := 0 }).sendTo sid
        (.userLeftChannel (s.sessions sid).userId channel)
    else s) s

def adminDeleteChannel (s : Server) (sid : SessionId) (channel : ChannelId) (dbOk : Bool) :
    Server :=
  if !(s.sessions sid).authenticated then s
  else if !hasPermission (s.sessions sid).role Permissions.DELETE_CHANNEL none then
    s.sendError sid "Permission denied"
  else
    let s := (s.evictStreams channel).evictUsers channel
    if !dbOk then s.sendError sid "Failed to delete channel"
    else { s with db := s.db.deleteChannel channel }.sendTo sid (.adminResult "Channel deleted")

/-- The live sessions of a user take over the stored role. -/
def setLiveRole (s : Server) (target : UserId) (newRole : Role) : Server :=
  s.modifySessions fun session =>
    if session.userId = target then { session with role := newRole } else session

/-- The checks of `ADMIN_SET_ROLE` behind the permission. -/
def checkSetRole (s : Server) (role : Role) (target : UserId) (newRole : Role) :
    Except String Unit := do
  if newRole = Role.OWNER then throw "Owner role can only be set in server config"
  if newRole ≤ role ∧ role ≠ Role.OWNER then
    throw "Cannot assign a role equal or higher than your own"
  let some user := s.db.getUserById target | throw "User not found"
  if !canModerate role user.role then throw "Cannot modify a user with equal or higher role"

def adminSetRole (s : Server) (sid : SessionId) (target : UserId) (newRole : Role) (dbOk : Bool) :
    Server :=
  let role := (s.sessions sid).role
  if !(s.sessions sid).authenticated then s
  else if !hasPermission role Permissions.MANAGE_ROLES none then s.sendError sid "Permission denied"
  else
    match s.checkSetRole role target newRole with
    | .error text => s.sendError sid text
    | .ok _ =>
      let s := if dbOk then { s with db := s.db.setUserRole target newRole } else s
      let s := s.setLiveRole target newRole
      let s := s.sendToAll (fun _ session => session.authenticated)
        (.userRoleChanged target newRole)
      s.sendTo sid (.adminResult "Role updated")

/-- The loop of `ADMIN_KICK_USER`; it ends at a session that may not be kicked. -/
def kickAll (s : Server) (sid : SessionId) (target : UserId) : List SessionId → Server
  | [] => s
  | other :: rest =>
    let session := s.sessions other
    if session.userId = target ∧ session.authenticated then
      if !canModerate (s.sessions sid).role session.role then
        s.sendError sid "Cannot kick a user with equal or higher role" .permissionDenied
      else
        ((s.sendError other "You have been kicked from the server" .kicked).disconnect
          other).kickAll sid target rest
    else s.kickAll sid target rest

def adminKickUser (s : Server) (sid : SessionId) (target : UserId) : Server :=
  if !(s.sessions sid).authenticated then s
  else if !hasPermission (s.sessions sid).role Permissions.KICK_FROM_SERVER none then
    s.sendError sid "Permission denied" .permissionDenied
  else (s.kickAll sid target s.sessionTable).sendTo sid (.adminResult "User kicked")

/-! ### Streams -/

/-- What `SCREEN_SHARE_START` and `SCREEN_SHARE_UPDATE` store about a stream. -/
def setSourceInfo (s : Server) (sid : SessionId) (source : VideoSource) (codec : BitVec 8)
    (width height : BitVec 16) : Server :=
  s.modifySession sid fun session => session.modifySource source fun state =>
    { state with codec := codec, width := width, height := height }

/-- The record of a start. A share does not run on a session that is shutting down. -/
def logStart (s : Server) (sid : SessionId) (source : VideoSource) : Server :=
  let session := s.sessions sid
  s.modifyShareLog (videoStreamId session.userId source) fun log =>
    { share := log.share + 1
      runsOn := if session.alive then some (sid, (session.videoSources source).generation)
        else none
      received := s.waitingFrames sid source (session.videoSources source).generation }

/-- Register a stream and open its ingress. -/
def publish (s : Server) (sid : SessionId) (source : VideoSource) : Server :=
  let channel := (s.sessions sid).channelId
  let stream := videoStreamId (s.sessions sid).userId source
  let s := { s with
    channelVideoStreams := Function.update s.channelVideoStreams channel
      (if stream ∈ s.channelVideoStreams channel then s.channelVideoStreams channel
      else stream :: s.channelVideoStreams channel) }
  s.modifySession sid fun session => session.modifySource source fun state =>
    { state with ingressAllowed := true }

/-- `SCREEN_SHARE_START` is accepted. -/
def acceptsStart (s : Server) (sid : SessionId) (source : VideoSource) : Bool :=
  (s.sessions sid).authenticated && (s.sessions sid).channelId ≠ 0 &&
    (source = .screen || (s.sessions sid).supportsCamera)

def screenShareStart (s : Server) (sid : SessionId) (codec : BitVec 8) (width height : BitVec 16)
    (sourceRaw : BitVec 8) : Server :=
  match videoSourceOf sourceRaw with
  | none => s
  | some source =>
    if !s.acceptsStart sid source then s
    else
      let channel := (s.sessions sid).channelId
      let stream := videoStreamId (s.sessions sid).userId source
      let s := (s.publish sid source).setSourceInfo sid source codec width height
      let s := s.logStart sid source
      s.sessionTable.foldl (fun s viewer =>
        if (s.sessions viewer).authenticated && (s.sessions viewer).channelId = channel then
          s.announceVideoStream viewer stream sid false
        else s) s

def screenShareUpdate (s : Server) (sid : SessionId) (codec : BitVec 8) (width height : BitVec 16)
    (sourceRaw : BitVec 8) : Server :=
  let session := s.sessions sid
  if !session.authenticated || session.channelId = 0 then s
  else
    match videoSourceOf sourceRaw with
    | none => s
    | some source =>
      if videoStreamId session.userId source ∉ s.channelVideoStreams session.channelId then s
      else s.setSourceInfo sid source codec width height

def screenShareStop (s : Server) (sid : SessionId) (sourceRaw : BitVec 8) : Server :=
  let session := s.sessions sid
  if !session.authenticated || session.channelId = 0 then s
  else
    match videoSourceOf sourceRaw with
    | none => s
    | some source =>
      (s.endShare sid source).stopVideoStream session.channelId session.userId source

/-! ### The step -/

def handleMessage (s : Server) (sid : SessionId) (message : ControlMessage) : Server :=
  match s.getSession sid with
  | none => s
  | some _ =>
    match message with
    | .authIdentity auth nowS dbOk => s.authIdentity sid auth nowS dbOk
    | .channelJoin channel voiceState => s.channelJoin sid channel voiceState
    | .channelLeave => s.channelLeave sid
    | .adminCreateChannel name maxUsers dbOk => s.adminCreateChannel sid name maxUsers dbOk
    | .adminDeleteChannel channel dbOk => s.adminDeleteChannel sid channel dbOk
    | .adminSetRole target newRole dbOk => s.adminSetRole sid target newRole dbOk
    | .adminKickUser target => s.adminKickUser sid target
    | .screenShareStart codec width height source => s.screenShareStart sid codec width height source
    | .screenShareUpdate codec width height source =>
      s.screenShareUpdate sid codec width height source
    | .screenShareStop source => s.screenShareStop sid source
    | .screenShareView target action => s.screenShareView sid target action

end Server

inductive ServerOp where
  -- the transport thread
  | connect
  | shutdownComplete (sid : SessionId)
  | videoFrame (sid : SessionId) (source : VideoSource) (frame : ShareFrame)
  | videoFrameStarted (sid : SessionId) (source : VideoSource) (hdr : VideoFrameHeader)
  | videoFrameAborted (sid : SessionId) (source : VideoSource) (frameSeq : Option (BitVec 32))
  | videoOutShutdown (sid : SessionId) (handle : Nat)
  -- the main loop
  | message (sid : SessionId) (message : ControlMessage)
  | videoControl (sid : SessionId) (target : StreamId) (bucketAllows : Bool)
  | processVideoFrame
  | beginPass
  | pollIngress (stream : StreamId)
  | sendDeferred (stream : StreamId)
  | processDisconnect

namespace Server

def step (s : Server) : ServerOp → Server
  | .connect => s.onNewConnection
  | .shutdownComplete sid => s.onShutdownComplete sid
  | .videoFrame sid source frame => s.enqueueVideoFrame sid source frame
  | .videoFrameStarted sid source hdr => s.enqueueVideoEvent sid source (.started hdr)
  | .videoFrameAborted sid source frameSeq => s.enqueueVideoEvent sid source (.aborted frameSeq)
  | .videoOutShutdown sid handle => s.videoOutShutdown sid handle
  | .message sid message => s.handleMessage sid message
  | .videoControl sid target bucketAllows => s.handleVideoControl sid target bucketAllows
  | .processVideoFrame => s.processVideoFrame
  | .beginPass => s.beginPass
  | .pollIngress stream => s.pollIngress stream
  | .sendDeferred stream => s.sendDeferredKeyframeRequest stream
  | .processDisconnect => s.processDisconnects

def new (config : Config) (env : Environment) : Server := { config := config, env := env }

/-- A server that starts on the database an earlier one has left. -/
def restart (config : Config) (env : Environment) (db : Database) : Server :=
  { config := config, env := env, db := db }

/-- The state after a run of a new server. -/
def run (config : Config) (env : Environment) (ops : List ServerOp) : Server :=
  Machine.run step (new config env) ops

/-- A login with a key of one byte. -/
def login (sid : SessionId) (key : UInt8) (nowS : BitVec 64) : ServerOp :=
  .message sid (.authIdentity { publicKey := [key], timestamp := nowS } nowS true)

/-- The root creates channel 1 and shares the screen there, as stream 1. -/
def rootShares : List ServerOp :=
  [.connect, login 1 0 1, .message 1 (.adminCreateChannel "lobby" 0 true),
    .message 1 (.channelJoin 1 none), .message 1 (.screenShareStart 0 0 0 0)]

end Server

end Parties

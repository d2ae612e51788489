import Mathlib.Logic.Function.Basic
import Parties.Lib.EventLog
import Parties.Lib.Machine
import Parties.Types

/-!
# The client's connection

Mirror of the connection flow of `AppCore` (`client/src/app_core.cpp`): connecting, the
fingerprint check, authentication, the cleanup behind a dropped connection and the automatic
reconnect; of the parts of `Settings` it stands on (`client/src/settings.cpp`); and of the flags
of `NetClient::Impl` it reads (`client/src/net_client_msquic.cpp`).

The callbacks of the user interface and `tick` run on the main thread, the events of the
connection come from a worker thread between any two statements of it. `tick` is taken apart
where it reads what the worker writes. Fingerprints are of any type; `none` is the empty string.
Times are milliseconds. The database is taken to work.
-/

namespace Parties.Client

variable {F : Type} [DecidableEq F]

/-! ### Settings -/

structure ServerAddress where
  host : Bytes
  port : BitVec 16
deriving DecidableEq, Repr

structure SavedServer (F : Type) where
  id : Nat
  name : Bytes
  host : Bytes
  port : Nat
  fingerprint : Option F
  lastUsername : Bytes
  password : Bytes

def SavedServer.address (server : SavedServer F) : ServerAddress :=
  ⟨server.host, BitVec.ofNat 16 server.port⟩

/-- The tables that the connection flow reads. The ids of the servers start at 1 and are never
used again. -/
structure ConnectionSettings (F : Type) where
  tofuCerts : ServerAddress → Option F
  savedServers : List (SavedServer F)
  nextServerId : Nat
  resumptionTickets : ServerAddress → Option Bytes
  nextServerId_pos : 0 < nextServerId
  ids_pos : ∀ server ∈ savedServers, 0 < server.id
  ids_lt : ∀ server ∈ savedServers, server.id < nextServerId

inductive TofuResult where
  | trusted
  | unknown
  | mismatch
deriving DecidableEq, Repr

namespace ConnectionSettings

def checkFingerprint (t : ConnectionSettings F) (address : ServerAddress) (fingerprint : F) :
    TofuResult :=
  match t.tofuCerts address with
  | none => .unknown
  | some stored => if stored = fingerprint then .trusted else .mismatch

omit [DecidableEq F] in
def trustFingerprint (t : ConnectionSettings F) (address : ServerAddress) (fingerprint : F) :
    ConnectionSettings F :=
  { t with tofuCerts := Function.update t.tofuCerts address (some fingerprint) }

/-- The update of `save_server` on a conflict. -/
def resave (name : Bytes) (host : Bytes) (port : Nat) (fingerprint : Option F)
    (lastUsername password : Bytes) (server : SavedServer F) : SavedServer F :=
  if server.host = host ∧ server.port = port then
    { server with name, fingerprint, lastUsername, password }
  else server

omit [DecidableEq F] in
@[simp] theorem resave_id (name host : Bytes) (port : Nat) (fingerprint : Option F)
    (lastUsername password : Bytes) (server : SavedServer F) :
    (resave name host port fingerprint lastUsername password server).id = server.id := by
  unfold resave
  split <;> rfl

omit [DecidableEq F] in
@[simp] theorem resave_address (name host : Bytes) (port : Nat) (fingerprint : Option F)
    (lastUsername password : Bytes) (server : SavedServer F) :
    (resave name host port fingerprint lastUsername password server).address = server.address := by
  unfold resave
  split <;> rfl

def saveServer (t : ConnectionSettings F) (name host : Bytes) (port : Nat)
    (fingerprint : Option F) (lastUsername password : Bytes) : ConnectionSettings F :=
  if t.savedServers.any fun server => decide (server.host = host ∧ server.port = port) then
    { t with
      savedServers := t.savedServers.map (resave name host port fingerprint lastUsername password)
      ids_pos := fun server hserver => by
        obtain ⟨old, hold, rfl⟩ := List.mem_map.mp hserver
        rw [resave_id]
        exact t.ids_pos old hold
      ids_lt := fun server hserver => by
        obtain ⟨old, hold, rfl⟩ := List.mem_map.mp hserver
        rw [resave_id]
        exact t.ids_lt old hold }
  else
    { t with
      savedServers := t.savedServers ++
        [⟨t.nextServerId, name, host, port, fingerprint, lastUsername, password⟩]
      nextServerId := t.nextServerId + 1
      nextServerId_pos := Nat.succ_pos _
      ids_pos := fun server hserver => by
        obtain hold | hnew := List.mem_append.mp hserver
        · exact t.ids_pos server hold
        · obtain rfl := List.mem_singleton.mp hnew
          exact t.nextServerId_pos
      ids_lt := fun server hserver => by
        obtain hold | hnew := List.mem_append.mp hserver
        · exact Nat.lt_succ_of_lt (t.ids_lt server hold)
        · obtain rfl := List.mem_singleton.mp hnew
          exact Nat.lt_succ_self _ }

def deleteServer (t : ConnectionSettings F) (id : Nat) : ConnectionSettings F :=
  { t with
    savedServers := t.savedServers.filter fun server => decide (server.id ≠ id)
    ids_pos := fun server hserver => t.ids_pos server (List.mem_of_mem_filter hserver)
    ids_lt := fun server hserver => t.ids_lt server (List.mem_of_mem_filter hserver) }

/-- The record of a server, as the loops over `get_saved_servers` find it. -/
def savedServer (t : ConnectionSettings F) (id : Nat) : Option (SavedServer F) :=
  t.savedServers.find? fun server => decide (server.id = id)

end ConnectionSettings

/-! ### The transport -/

inductive SessionMessage where
  | authResponse (serverName : Bytes)
  | serverError (code : BitVec 16) (msg : Bytes)
  | channelUserList (channel : ChannelId)
  /-- `USER_LEFT_CHANNEL` about the user himself, out of the channel he is in. -/
  | leftChannel
  /-- A message the connection flow has nothing to do with. -/
  | other
deriving DecidableEq, Repr

/-- `ServerErrorCode::Kicked`. -/
def SERVER_ERROR_KICKED : BitVec 16 := 4

/-- `ServerErrorCode::Replaced`. -/
def SERVER_ERROR_REPLACED : BitVec 16 := 5

/-- A connection of the transport: where it goes, and the certificate it has shown. -/
structure Link (F : Type) where
  address : ServerAddress
  cert : Option F := none
  /-- Its `SHUTDOWN_COMPLETE` has been reported. -/
  shutdown : Bool := false

/-- How the start of a connection ends. -/
inductive StartOutcome where
  | started
  /-- Something in front of `ConnectionStart` failed. -/
  | notOpened
  | notStarted
deriving DecidableEq, Repr

structure NetClient (F : Type) where
  connected : Bool := false
  connecting : Bool := false
  connectFailed : Bool := false
  link : Option (Link F) := none
  serverFingerprint : Option F := none
  incoming : List SessionMessage := []

namespace NetClient

def isConnecting (n : NetClient F) : Bool := n.connecting && !n.connected && !n.connectFailed

/-- Closing the connection reports its shutdown, if that has not been reported yet. -/
def closeReports (n : NetClient F) : Bool := n.link.any fun link => !link.shutdown

/-- `on_disconnected` and the flags at a `SHUTDOWN_COMPLETE`. -/
def shutdownFlags (n : NetClient F) : NetClient F :=
  { n with connectFailed := n.connectFailed || n.connecting, connecting := false,
           connected := false }

/-- The client, whether a connection is being made, and whether a shutdown was reported. -/
def connect (n : NetClient F) (address : ServerAddress) (outcome : StartOutcome) :
    NetClient F × Bool × Bool :=
  if n.connected then (n, false, false)
  else
    let reported := n.closeReports
    let n := if reported then n.shutdownFlags else n
    match outcome with
    | .started =>
      ({ n with link := some { address }, connecting := true, connectFailed := false }, true, reported)
    | .notOpened => ({ n with link := none }, false, reported)
    | .notStarted =>
      ({ n with link := none, connecting := false, connectFailed := false }, false, reported)

/-- The client, and whether a shutdown was reported. -/
def disconnect (n : NetClient F) : NetClient F × Bool :=
  if !n.connected && !n.connecting && n.link.isNone then (n, false)
  else
    ({ n with connected := false, connecting := false, connectFailed := false, link := none,
              serverFingerprint := none }, n.closeReports)

end NetClient

/-! ### The application -/

def isspace (c : UInt8) : Bool := decide (c = 32 ∨ 9 ≤ c ∧ c ≤ 13)

def trimDisplayName (value : Bytes) : Bytes :=
  ((value.dropWhile isspace).reverse.dropWhile isspace).reverse

def reconnectBackoffMs (attempts : Nat) : Int := min 15000 (500 * 2 ^ min attempts 5)

/-- What became of a dropped connection. -/
inductive DropOutcome where
  /-- It was wanted. -/
  | intentional
  /-- An automatic reconnect is armed, behind a short session or a longer one. -/
  | armed (short : Bool) (channel : ChannelId)
  | gaveUp
  /-- An attempt of the reconnect failed. -/
  | failedAttempt
  | nothing
deriving DecidableEq, Repr

/-- What the application does and what is done to it, in order. -/
inductive ConnectionEvent (F : Type) where
  /-- The user asks for a connection. -/
  | userConnect
  | dialed (address : ServerAddress) (automatic : Bool) (nowMs : Int)
  | warned (address : ServerAddress) (fingerprint : F)
  | trusted (address : ServerAddress) (fingerprint : F) (accepted : Bool)
  /-- The server to connect to is selected. -/
  | selected (id : Nat)
  | authIdentity (link : Link F) (username password : Bytes)
  /-- The server let the user in; the voice channel is the one that is joined again, or 0. -/
  | authenticated (nowMs : Int) (rejoined : ChannelId)
  /-- The user is in this voice channel now, or in none. -/
  | moved (channel : ChannelId)
  /-- `disconnect_intentionally`. -/
  | leaving
  /-- An error of the server that announces the end of the session. -/
  | expelled
  | dropped (nowMs : Int) (outcome : DropOutcome)
  /-- An attempt of the reconnect failed and is noticed by the main thread. -/
  | attemptFailed (nowMs : Int)
  /-- The server to reconnect to is not saved any more. -/
  | serverGone

/-- Where `tick` is. -/
inductive TickPhase where
  | outside
  /-- In front of `process_server_messages` and the cleanup of a dropped connection. -/
  | cleaning
  | polling
  | reconnecting
  | reading
deriving DecidableEq, Repr

structure Connection (F : Type) where
  net : NetClient F := {}
  settings : ConnectionSettings F
  hasIdentity : Bool
  globalName : Bytes := []
  username : Bytes := []
  serverAddress : ServerAddress := ⟨[], 7800⟩
  serverPassword : Bytes := []
  connectingServerId : Nat := 0
  authenticated : Bool := false
  authSuccessMs : Int := 0
  currentChannel : ChannelId := 0
  awaitingChannelJoin : Bool := false
  pendingChannelId : ChannelId := 0
  awaitingConnection : Bool := false
  tofuPending : Bool := false
  tofuPendingFingerprint : Option F := none
  disconnectPending : Bool := false
  pendingTicket : Option Bytes := none
  intentionalDisconnect : Bool := false
  reconnecting : Bool := false
  reconnectAttempts : Nat := 0
  reconnectFlaps : Nat := 0
  reconnectChannel : ChannelId := 0
  rejoinPending : Bool := false
  reconnectNextAttemptMs : Int := 0
  -- the model of the server list
  showLogin : Bool := false
  showOnboarding : Bool := false
  loginShowUsername : Bool := false
  loginUsername : Bytes := []
  loginPassword : Bytes := []
  loginError : String := ""
  showTofuWarning : Bool := false
  tofuFingerprint : Option F := none
  connectedServerId : Nat := 0
  tickPhase : TickPhase := .outside

namespace Connection

/-! ### Connecting -/

def cancelReconnect (s : Connection F) : Connection F :=
  { s with reconnecting := false, rejoinPending := false, reconnectAttempts := 0,
           reconnectChannel := 0 }

/-- `send_auth_identity`; without a connection the message goes nowhere. -/
def sendAuthIdentity (s : Connection F) : Connection F × List (ConnectionEvent F) :=
  if !s.hasIdentity then (s, [])
  else
    ({ s with loginPassword := [] },
      match s.net.link with
      | some link =>
        if s.net.connected then [.authIdentity link s.username s.serverPassword] else []
      | none => [])

def finishConnect (s : Connection F) : Connection F × List (ConnectionEvent F) :=
  match s.net.serverFingerprint with
  | none => s.sendAuthIdentity
  | some fp =>
    match s.settings.checkFingerprint s.serverAddress fp with
    | .mismatch =>
      ({ s with tofuPendingFingerprint := some fp, tofuPending := true, tofuFingerprint := some fp,
                showTofuWarning := true, showLogin := false }, [.warned s.serverAddress fp])
    | .unknown =>
      let (s', events) := { s with
        settings := s.settings.trustFingerprint s.serverAddress fp }.sendAuthIdentity
      (s', .trusted s.serverAddress fp false :: events)
    | .trusted => s.sendAuthIdentity

/-- Dial the server; the flag tells whether a connection is being made. -/
def dial (s : Connection F) (outcome : StartOutcome) : Connection F × Bool :=
  let (net, ok, reported) := s.net.connect s.serverAddress outcome
  ({ s with net, disconnectPending := s.disconnectPending || reported }, ok)

def doConnect (s : Connection F) (outcome : StartOutcome) (nowMs : Int) :
    Connection F × List (ConnectionEvent F) :=
  if !s.hasIdentity then
    ({ s with loginError := "No identity — generate seed phrase first" }, [])
  else
    let s := s.cancelReconnect
    let username := trimDisplayName s.loginUsername
    let s := { s with username := if username = [] then s.globalName else username }
    if s.username = [] then
      ({ s with loginError := "Choose a display name first" }, [.userConnect])
    else
      let s := { s with serverPassword := s.loginPassword, loginError := "" }
      if s.net.connected then
        let (s, events) := s.finishConnect
        (s, .userConnect :: events)
      else if s.net.isConnecting then (s, [.userConnect])
      else
        match s.dial outcome with
        | (s, true) =>
          ({ s with awaitingConnection := true },
            [.userConnect, .dialed s.serverAddress false nowMs])
        | (s, false) =>
          ({ s with loginError := "Failed to connect to server", showLogin := true },
            [.userConnect])

/-- `on_connect_server`; `passwordless` is what the status query says of the server. -/
def connectServer (s : Connection F) (id : Nat) (passwordless : Bool) (outcome : StartOutcome)
    (nowMs : Int) : Connection F × List (ConnectionEvent F) :=
  if s.authenticated && decide (id = s.connectedServerId) then (s, [])
  else if s.showLogin then (s, [])
  else if !s.hasIdentity then ({ s with showOnboarding := true }, [])
  else
    match s.settings.savedServer id with
    | none => (s, [])
    | some server =>
      let nickname := trimDisplayName server.lastUsername
      let s := { s with
        connectingServerId := id
        serverAddress := server.address
        loginShowUsername := decide (nickname = [])
        loginUsername := nickname
        loginPassword := if passwordless then [] else server.password
        loginError := ""
        showLogin := !passwordless }
      if passwordless then
        let (s, events) := s.doConnect outcome nowMs
        (s, .selected id :: events)
      else (s, [.selected id])

def disconnectIntentionally (s : Connection F) : Connection F × List (ConnectionEvent F) :=
  let s := { s with intentionalDisconnect := true }.cancelReconnect
  let (net, reported) := s.net.disconnect
  ({ s with net, disconnectPending := s.disconnectPending || reported }, [.leaving])

def cancelLogin (s : Connection F) : Connection F × List (ConnectionEvent F) :=
  let (s, events) := { s with
    showLogin := false, loginError := "", loginPassword := [],
    loginShowUsername := false }.disconnectIntentionally
  ({ s with awaitingConnection := false }, events)

def tofuAccept (s : Connection F) : Connection F × List (ConnectionEvent F) :=
  if !s.tofuPending then (s, [])
  else
    match s.tofuPendingFingerprint with
    -- a warning is about a fingerprint
    | none => ({ s with tofuPending := false }, [])
    | some fp =>
      let settings := s.settings.trustFingerprint s.serverAddress fp
      let (s', events) := { s with
        settings := { settings with
          resumptionTickets := Function.update settings.resumptionTickets s.serverAddress none }
        tofuPending := false, showTofuWarning := false, showLogin := true }.sendAuthIdentity
      (s', .trusted s.serverAddress fp true :: events)

def tofuReject (s : Connection F) : Connection F × List (ConnectionEvent F) :=
  { s with tofuPending := false, showTofuWarning := false, showLogin := false
    }.disconnectIntentionally

/-! ### Messages of the server -/

def joinChannel (s : Connection F) (id : ChannelId) : Connection F :=
  if !s.authenticated || decide (id = s.currentChannel) then s
  else { s with awaitingChannelJoin := true, pendingChannelId := id }

def leaveChannel (s : Connection F) : Connection F × List (ConnectionEvent F) :=
  if !s.authenticated || decide (s.currentChannel = 0) then (s, [])
  else ({ s with currentChannel := 0 }, [.moved 0])

def onChannelUserList (s : Connection F) (channel : ChannelId) :
    Connection F × List (ConnectionEvent F) :=
  if s.awaitingChannelJoin && decide (s.pendingChannelId = channel) then
    ({ s with awaitingChannelJoin := false, currentChannel := channel }, [.moved channel])
  else (s, [])

def onAuthResponse (s : Connection F) (serverName : Bytes) (nowMs : Int) :
    Connection F × List (ConnectionEvent F) :=
  let s := { s with
    authenticated := true
    authSuccessMs := nowMs
    settings := s.settings.saveServer serverName s.serverAddress.host s.serverAddress.port.toNat
      s.net.serverFingerprint s.username s.serverPassword
    serverPassword := []
    connectedServerId := s.connectingServerId
    showLogin := false
    loginError := "" }
  let channel := s.reconnectChannel
  if s.rejoinPending && decide (channel ≠ 0) then
    (s.cancelReconnect.joinChannel channel, [.authenticated nowMs channel])
  else (s.cancelReconnect, [.authenticated nowMs 0])

def onServerError (s : Connection F) (code : BitVec 16) (msg : Bytes) :
    Connection F × List (ConnectionEvent F) :=
  let terminal := s.authenticated &&
    decide (code = SERVER_ERROR_KICKED ∨ code = SERVER_ERROR_REPLACED)
  let s := if terminal then { s with intentionalDisconnect := true } else s
  let s := if s.showLogin || !s.authenticated && decide (s.connectingServerId ≠ 0) then
      { s with showLogin := true, loginError := String.ofList (msg.map fun b => Char.ofNat b.toNat) }
    else s
  (s, if terminal then [.expelled] else [])

def handleServerMessage (s : Connection F) (nowMs : Int) :
    SessionMessage → Connection F × List (ConnectionEvent F)
  | .authResponse serverName => s.onAuthResponse serverName nowMs
  | .serverError code msg => s.onServerError code msg
  | .channelUserList channel => s.onChannelUserList channel
  | .leftChannel => s.leaveChannel
  | .other => (s, [])

def handleServerMessages (s : Connection F) (nowMs : Int) :
    List SessionMessage → Connection F × List (ConnectionEvent F)
  | [] => (s, [])
  | msg :: messages =>
    let (s, events) := s.handleServerMessage nowMs msg
    let (s, rest) := s.handleServerMessages nowMs messages
    (s, events ++ rest)

def processServerMessages (s : Connection F) (nowMs : Int) :
    Connection F × List (ConnectionEvent F) :=
  { s with net := { s.net with incoming := [] } }.handleServerMessages nowMs s.net.incoming

/-! ### The drop of a connection, and the reconnect -/

/-- `on_disconnect_cleanup`, as far as it concerns the connection. -/
def onDisconnectCleanup (s : Connection F) (nowMs : Int) :
    Connection F × List (ConnectionEvent F) :=
  let wasAuthenticated := s.authenticated
  let previousChannel := s.currentChannel
  let s := { s with
    authenticated := false, currentChannel := 0, serverPassword := [], awaitingConnection := false,
    awaitingChannelJoin := false, pendingChannelId := 0, tofuPending := false,
    connectedServerId := 0, showLogin := false, loginError := "" }
  if s.intentionalDisconnect then
    ({ s.cancelReconnect with intentionalDisconnect := false }, [.dropped nowMs .intentional])
  else if wasAuthenticated && decide (s.connectingServerId ≠ 0) then
    let short := decide (nowMs - s.authSuccessMs < 5000)
    let flaps := if short then s.reconnectFlaps + 1 else 0
    if short && decide (4 ≤ flaps) then
      ({ s.cancelReconnect with
        reconnectFlaps := 0, loginError := "Disconnected (are you signed in elsewhere?)" },
        [.dropped nowMs .gaveUp])
    else
      ({ s with
        reconnectFlaps := flaps, reconnecting := true, reconnectAttempts := 0,
        reconnectChannel := previousChannel, rejoinPending := false,
        reconnectNextAttemptMs := nowMs + 500 }, [.dropped nowMs (.armed short previousChannel)])
  else if s.reconnecting then
    ({ s with
      reconnectAttempts := s.reconnectAttempts + 1
      reconnectNextAttemptMs := nowMs + reconnectBackoffMs (s.reconnectAttempts + 1) },
      [.dropped nowMs .failedAttempt])
  else (s, [.dropped nowMs .nothing])

def pollConnecting (s : Connection F) (nowMs : Int) : Connection F × List (ConnectionEvent F) :=
  if s.net.connectFailed then
    let (net, reported) := s.net.disconnect
    let s := { s with net, awaitingConnection := false,
                      disconnectPending := s.disconnectPending || reported }
    if s.reconnecting then
      ({ s with
        reconnectAttempts := s.reconnectAttempts + 1
        reconnectNextAttemptMs := nowMs + reconnectBackoffMs (s.reconnectAttempts + 1) },
        [.attemptFailed nowMs])
    else ({ s with loginError := "Failed to connect to server", showLogin := true }, [])
  else if s.net.connected then { s with awaitingConnection := false }.finishConnect
  else (s, [])

def attemptReconnect (s : Connection F) (outcome : StartOutcome) (nowMs : Int) :
    Connection F × List (ConnectionEvent F) :=
  match s.settings.savedServer s.connectingServerId with
  | none => (s.cancelReconnect, [.serverGone])
  | some server =>
    let username := trimDisplayName server.lastUsername
    let s := { s with
      username := if username = [] then s.globalName else username
      serverPassword := server.password
      serverAddress := server.address }
    match s.dial outcome with
    | (s, true) =>
      ({ s with awaitingConnection := true, rejoinPending := decide (s.reconnectChannel ≠ 0) },
        [.dialed s.serverAddress true nowMs])
    | (s, false) =>
      ({ s with
        reconnectAttempts := s.reconnectAttempts + 1
        reconnectNextAttemptMs := nowMs + reconnectBackoffMs (s.reconnectAttempts + 1) },
        [.attemptFailed nowMs])

/-- A ticket that has arrived is saved for the server selected now. -/
def saveTicket (s : Connection F) : Connection F :=
  match s.pendingTicket with
  | none => s
  | some ticket =>
    { s with
      pendingTicket := none
      settings := if ticket = [] then s.settings else { s.settings with
        resumptionTickets :=
          Function.update s.settings.resumptionTickets s.serverAddress (some ticket) } }

/-- One part of `tick`. -/
def tickStep (s : Connection F) (outcome : StartOutcome) (nowMs : Int) :
    Connection F × List (ConnectionEvent F) :=
  match s.tickPhase with
  | .outside =>
    if s.disconnectPending then
      ({ s with disconnectPending := false, tickPhase := .cleaning }, [])
    else ({ s with tickPhase := .polling }, [])
  | .cleaning =>
    let (s, events) := s.processServerMessages nowMs
    let (s, rest) := s.onDisconnectCleanup nowMs
    ({ s with tickPhase := .polling }, events ++ rest)
  | .polling =>
    let s := s.saveTicket
    let (s, events) := if s.awaitingConnection then s.pollConnecting nowMs else (s, [])
    ({ s with tickPhase := .reconnecting }, events)
  | .reconnecting =>
    let (s, events) :=
      if s.reconnecting && !s.awaitingConnection && !s.authenticated &&
          decide (s.reconnectNextAttemptMs ≤ nowMs) then s.attemptReconnect outcome nowMs
      else (s, [])
    ({ s with tickPhase := .reading }, events)
  | .reading =>
    let (s, events) := s.processServerMessages nowMs
    ({ s with tickPhase := .outside }, events)

/-! ### The worker thread -/

/-- The live connection sees an event. -/
def onLink (s : Connection F) (event : Link F → Connection F) : Connection F :=
  match s.net.link with
  | none => s
  | some link => if link.shutdown then s else event link

/-- `PEER_CERTIFICATE_RECEIVED`: during the handshake, once. -/
def onCertificate (s : Connection F) (fp : F) : Connection F :=
  s.onLink fun link =>
    if s.net.connecting && link.cert.isNone then
      { s with net := { s.net with link := some { link with cert := some fp },
                                   serverFingerprint := some fp } }
    else s

/-- `CONNECTED`; without its control stream the client does not count as connected. -/
def onConnected (s : Connection F) (controlStream : Bool) : Connection F :=
  s.onLink fun _ =>
    if s.net.connecting then
      { s with net := { s.net with connecting := false, connected := controlStream } }
    else s

def onShutdownInitiated (s : Connection F) : Connection F :=
  s.onLink fun _ => { s with net := s.net.shutdownFlags }

def onShutdownComplete (s : Connection F) : Connection F :=
  s.onLink fun link =>
    { s with net := { s.net.shutdownFlags with link := some { link with shutdown := true } }
             disconnectPending := true }

end Connection

/-! ### Runs -/

inductive ConnectionOp (F : Type) where
  | connectServer (id : Nat) (passwordless : Bool) (outcome : StartOutcome) (nowMs : Int)
  | editLogin (username password : Bytes)
  | doConnect (outcome : StartOutcome) (nowMs : Int)
  | cancelLogin
  | tofuAccept
  | tofuReject
  | disconnectServer
  | saveServer (name host : Bytes) (port : Nat) (username : Bytes)
  | deleteServer (id : Nat)
  /-- A key pair was generated, restored or imported. -/
  | saveIdentity
  | tick (outcome : StartOutcome) (nowMs : Int)
  | certificate (fp : F)
  | connected (controlStream : Bool)
  | resumptionTicket (ticket : Bytes)
  | message (msg : SessionMessage)
  | shutdownInitiated
  | shutdownComplete
  | joinChannel (id : ChannelId)
  | leaveChannel

namespace Connection

/-- What the main thread does outside of `tick`. -/
def userStep (s : Connection F) : ConnectionOp F → Connection F × List (ConnectionEvent F)
  | .connectServer id passwordless outcome nowMs => s.connectServer id passwordless outcome nowMs
  | .editLogin username password =>
    ({ s with loginUsername := username, loginPassword := password }, [])
  | .doConnect outcome nowMs => s.doConnect outcome nowMs
  | .cancelLogin => s.cancelLogin
  | .tofuAccept => s.tofuAccept
  | .tofuReject => s.tofuReject
  | .disconnectServer => s.disconnectIntentionally
  | .saveServer name host port username =>
    ({ s with settings := s.settings.saveServer name host port none username [] }, [])
  | .deleteServer id => ({ s with settings := s.settings.deleteServer id }, [])
  | .saveIdentity => ({ s with hasIdentity := true, showOnboarding := false }, [])
  | .joinChannel id => (s.joinChannel id, [])
  | .leaveChannel => s.leaveChannel
  | _ => (s, [])

def step (s : Connection F) (op : ConnectionOp F) : Connection F × List (ConnectionEvent F) :=
  match op with
  | .tick outcome nowMs => s.tickStep outcome nowMs
  | .certificate fp => (s.onCertificate fp, [])
  | .connected controlStream => (s.onConnected controlStream, [])
  | .resumptionTicket ticket => (s.onLink fun _ => { s with pendingTicket := some ticket }, [])
  | .message msg =>
    (s.onLink fun _ => { s with net := { s.net with incoming := s.net.incoming ++ [msg] } }, [])
  | .shutdownInitiated => (s.onShutdownInitiated, [])
  | .shutdownComplete => (s.onShutdownComplete, [])
  | op => if s.tickPhase = .outside then s.userStep op else (s, [])

/-- The application as it is started. -/
def new (settings : ConnectionSettings F) (hasIdentity : Bool) (globalName : Bytes) : Connection F :=
  { settings, hasIdentity, globalName }

def run (settings : ConnectionSettings F) (hasIdentity : Bool) (globalName : Bytes)
    (ops : List (ConnectionOp F)) : Connection F × List (ConnectionEvent F) :=
  Machine.run (Machine.logged step) (new settings hasIdentity globalName, []) ops

end Connection

end Parties.Client

import Parties.Server.AdminRequests
import Parties.Server.Datagrams
import Parties.Server.LobbyLists

/-!
# The lobby

What `Server::handle_message` (`server/src/server.cpp`) tells the clients about channels
and voice states besides the messages of `Handlers`: the lists behind a login, the channel
list that follows a change to a channel, the voice states behind `VOICE_STATE_UPDATE`, and
the voice state behind a join for clients that do not read it there.

The main loop and the transport thread take turns, with one exception. `handle_message`
looks the session up and then works on it, and in between the shutdown of its connection
may complete. A join can be overtaken in this way. Elsewhere nothing comes of it for the lobby: a
departure is told twice, and a login is of nobody. What such a login leaves in the index of the
users is in `OneSession`.
-/

namespace Parties

namespace Server

/-! ### Voice states -/

def setVoiceState (s : Server) (sid : SessionId) (muted deafened : Bool) : Server :=
  s.modifySession sid fun session => { session with muted := muted, deafened := deafened }

/-- The live session of a user. -/
def liveSession (s : Server) (user : UserId) : Option SessionId :=
  s.sessionTable.find? fun sid => (s.sessions sid).authenticated && (s.sessions sid).userId = user

/-- The channel it is in, if it is in one, with its voice state. -/
def whereabouts (s : Server) (user : UserId) : Option (ChannelId × VoiceState) :=
  (s.liveSession user).bind fun sid =>
    if (s.sessions sid).channelId = 0 then none
    else some ((s.sessions sid).channelId, ((s.sessions sid).muted, (s.sessions sid).deafened))

/-- A voice packet goes from a session that is neither muted nor deafened to sessions in its
channel that are not deafened. -/
def VoiceGated (s : Server) : Prop :=
  ∀ pkt : DataPacket, pkt.packetType = VOICE_PACKET_TYPE → ∀ out ∈ s.processDataPacket pkt,
    (s.sessions pkt.sessionId).muted = false ∧ (s.sessions pkt.sessionId).deafened = false ∧
      (s.sessions out.1).deafened = false ∧
      (s.sessions out.1).channelId = (s.sessions pkt.sessionId).channelId

end Server

/-! ### The step -/

/-- The server with what it told its sessions about the lobby, in order. -/
structure LobbyServer where
  server : Server
  told : List (SessionId × LobbyMessage) := []

inductive LobbyOp where
  | server (op : ServerOp)
  | voiceStateUpdate (sid : SessionId) (muted deafened : BitVec 8)
  | adminRenameChannel (sid : SessionId) (channel : ChannelId) (newName : String) (dbOk : Bool)
  /-- The connection completes its shutdown behind the look-up of the session. -/
  | overtakenJoin (sid : SessionId) (channel : ChannelId) (voiceState : Option (Bool × Bool))

/-- The requests after which the channels are listed again. -/
def ServerOp.relists : ServerOp → Bool
  | .message _ (.adminCreateChannel ..) | .message _ (.adminDeleteChannel ..) => true
  | _ => false

/-- The writes to the database succeed. -/
def LobbyOp.writesSucceed : LobbyOp → Bool
  | .server (.message _ (.authIdentity _ _ dbOk))
  | .server (.message _ (.adminCreateChannel _ _ dbOk))
  | .server (.message _ (.adminDeleteChannel _ dbOk))
  | .server (.message _ (.adminSetRole _ _ dbOk))
  | .adminRenameChannel _ _ _ dbOk => dbOk
  | _ => true

namespace LobbyServer

/-- The server goes on to `s`. -/
def advance (l : LobbyServer) (s : Server) (relists : Bool) : LobbyServer where
  server := s
  told := l.told ++ (s.sent.drop l.server.sent.length).flatMap (s.alongside relists)

def voiceStateUpdate (l : LobbyServer) (sid : SessionId) (muted deafened : BitVec 8) :
    LobbyServer :=
  match l.server.getSession sid with
  | none => l
  | some session =>
    if !session.authenticated || session.channelId = 0 then l
    else
      let s := l.server.setVoiceState sid (muted ≠ 0) (deafened ≠ 0)
      { server := s
        told := l.told ++ (s.sessionTable.filter fun other =>
          other ≠ sid && (s.sessions other).authenticated).map fun other =>
            (other, .userVoiceState session.userId (muted ≠ 0) (deafened ≠ 0)) }

def step (l : LobbyServer) : LobbyOp → LobbyServer
  | .server op => l.advance (l.server.step op) op.relists
  | .voiceStateUpdate sid muted deafened => l.voiceStateUpdate sid muted deafened
  | .adminRenameChannel sid channel newName dbOk =>
    match l.server.getSession sid with
    | none => l
    | some _ => l.advance (l.server.adminRenameChannel sid channel newName dbOk) true
  | .overtakenJoin sid channel voiceState =>
    match l.server.getSession sid with
    | none => l
    | some _ =>
      l.advance ((l.server.onShutdownComplete sid).channelJoin sid channel voiceState) false

def new (config : Config) (env : Environment) : LobbyServer where
  server := Server.new config env

def run (config : Config) (env : Environment) (ops : List LobbyOp) : LobbyServer :=
  Machine.run step (new config env) ops

/-! ### The views of the clients -/

/-- The messages to a session. -/
def toldTo (sid : SessionId) (told : List (SessionId × LobbyMessage)) : List LobbyMessage :=
  told.filterMap fun m => if m.1 = sid then some m.2 else none

/-- Whatever its user does in between, the client of a signed-in session whose connection is
not shutting down shows every other user once, in the channel the server has the user in and
with the voice state there, and not at all if that is none. -/
def Agrees (l : LobbyServer) : Prop :=
  ∀ sid ∈ l.server.sessionTable, (l.server.sessions sid).authenticated = true →
    (l.server.sessions sid).alive = true →
    ∀ (k : AppCore) (events : List LobbyEvent), k.userId = (l.server.sessions sid).userId →
      k.channels = [] → events.filterMap LobbyEvent.received = toldTo sid l.told →
      ∀ user ≠ k.userId, (Machine.run AppCore.lobbyStep k events).entriesOf user =
        (l.server.whereabouts user).toList

/-- With no disconnect event pending the views agree, and voice is always gated. -/
def InAgreement (l : LobbyServer) : Prop :=
  (l.server.disconnects = [] → l.Agrees) ∧ l.server.VoiceGated

/-- The join that is overtaken moves its session to another channel. -/
def MovesDeparted (l : LobbyServer) : LobbyOp → Prop
  | .overtakenJoin sid channel _ =>
    sid ∈ l.server.sessionTable ∧ (l.server.sessions sid).authenticated = true ∧
      (l.server.onShutdownComplete sid).checkJoin sid channel = .ok () ∧
      (l.server.sessions sid).channelId ≠ channel
  | _ => False

instance (l : LobbyServer) : (op : LobbyOp) → Decidable (l.MovesDeparted op)
  | .overtakenJoin .. => inferInstanceAs (Decidable (_ ∧ _ ∧ _ ∧ _))
  | .server _ | .voiceStateUpdate .. | .adminRenameChannel .. => isFalse id

end LobbyServer

end Parties

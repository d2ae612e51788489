import Parties.Client.Roster
import Parties.Server.ChatHandlers

/-!
# The lists of the lobby

What `Server::handle_message` (`server/src/server.cpp`) sends besides the messages of
`Handlers`: the lists behind a login, the channel list that follows a change to a channel, and
the voice state behind a join for clients that do not read it there. It is sent along with a
message of a handler, so it is read off that message.
-/

namespace Parties

namespace Server

/-! ### Lists -/

/-- What `send_channel_list` writes. -/
def listedChannels (s : Server) : List ListedChannel := ChatServer.listedChannels { server := s }

/-- The lists behind `AUTH_RESPONSE`; channels without users have none. -/
def welcome (s : Server) : List LobbyMessage :=
  .channelList s.listedChannels ::
    (s.db.getAllChannels.filter fun row => !(s.channelUsers row.id).isEmpty).map fun row =>
      .server (.channelUserList row.id (s.channelUsers row.id))

/-- The channel list for every authenticated session. -/
def relistChannels (s : Server) : List (SessionId × LobbyMessage) :=
  (s.sessionTable.filter fun sid => (s.sessions sid).authenticated).map fun sid =>
    (sid, .channelList s.listedChannels)

/-- A message of a handler together with what is sent along. -/
def alongside (s : Server) (relists : Bool) :
    SessionId × ServerMessage → List (SessionId × LobbyMessage)
  | (sid, .authResponse user role) =>
    (sid, .server (.authResponse user role)) :: s.welcome.map fun message => (sid, message)
  | (sid, .adminResult text) =>
    (if relists then s.relistChannels else []) ++ [(sid, .server (.adminResult text))]
  | (sid, .userJoinedChannel user channel) =>
    (sid, .server (.userJoinedChannel user channel)) ::
      if (user.muted || user.deafened) &&
          !protocolSupportsJoinVoiceState (s.sessions sid).protocolVersion then
        [(sid, .userVoiceState user.userId user.muted user.deafened)]
      else []
  | (sid, message) => [(sid, .server message)]

/-- What everyone is told on the way from `s` to `s'`. -/
def toldBetween (s s' : Server) (relists : Bool) : List (SessionId × LobbyMessage) :=
  (s'.sent.drop s.sent.length).flatMap (s'.alongside relists)

theorem toldBetween_of_sent {s s' : Server} {added : List (SessionId × ServerMessage)}
    (h : s'.sent = s.sent ++ added) (relists : Bool) :
    s.toldBetween s' relists = added.flatMap (s'.alongside relists) := by
  rw [toldBetween, h, List.drop_left]

end Server

end Parties

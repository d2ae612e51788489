import Parties.Server.State
import Parties.Wire.Serialization

/-!
# Datagrams

Mirror of `Server::process_data_packets` and `Server::forward_stream_audio`
(`server/src/server.cpp`) for the packets the server does not keep: voice and the
audio of a screen share. They change nothing in the server, so a packet is turned
into the datagrams that go out, each with the session it goes to. Video frames that
come as datagrams are queued like those that come as streams.
-/

namespace Parties

def VOICE_PACKET_TYPE : BitVec 8 := 0x01
def STREAM_AUDIO_PACKET_TYPE : BitVec 8 := 0x04
/-- The secondary voice stream of a user; it is not the microphone. -/
def VOICE2_PACKET_TYPE : BitVec 8 := 0x05

structure DataPacket where
  sessionId : SessionId
  packetType : BitVec 8
  data : Bytes
deriving DecidableEq, Repr

namespace Server

/-- A packet as it goes out: behind its type comes the sender. -/
def relayed (packetType : BitVec 8) (sender : UserId) (data : Bytes) : Bytes :=
  Wire.writeU8 packetType ++ Wire.writeU32 sender ++ data

def forwardVoice (s : Server) (pkt : DataPacket) : List (SessionId × Bytes) :=
  match s.getSession pkt.sessionId with
  | none => []
  | some session =>
    if !session.authenticated || session.channelId = 0 then []
    -- everyone is shown the server's view of the sender, whatever its client keeps sending
    else if pkt.packetType = VOICE_PACKET_TYPE && (session.muted || session.deafened) then []
    else
      (s.sessionTable.filter fun sid =>
        sid ≠ pkt.sessionId && (s.sessions sid).authenticated &&
          (s.sessions sid).channelId = session.channelId && !(s.sessions sid).deafened).map
        fun sid => (sid, relayed pkt.packetType session.userId pkt.data)

/-- The audio belongs to the screen share, whose stream has the id of the user. -/
def forwardStreamAudio (s : Server) (pkt : DataPacket) : List (SessionId × Bytes) :=
  match s.getSession pkt.sessionId with
  | none => []
  | some session =>
    if !session.authenticated || session.channelId = 0 then []
    else if session.userId ∉ s.channelVideoStreams session.channelId then []
    else
      (s.sessionTable.filter fun sid =>
        sid ≠ pkt.sessionId && (s.sessions sid).authenticated &&
          (s.sessions sid).channelId = session.channelId &&
          session.userId ∈ (s.sessions sid).subscribedSharers).map
        fun sid => (sid, relayed STREAM_AUDIO_PACKET_TYPE session.userId pkt.data)

def processDataPacket (s : Server) (pkt : DataPacket) : List (SessionId × Bytes) :=
  if pkt.packetType = VOICE_PACKET_TYPE || pkt.packetType = VOICE2_PACKET_TYPE then
    s.forwardVoice pkt
  else if pkt.packetType = STREAM_AUDIO_PACKET_TYPE then s.forwardStreamAudio pkt
  else []

end Server

end Parties

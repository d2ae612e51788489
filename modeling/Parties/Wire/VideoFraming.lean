import Parties.Lib.ByteStream
import Parties.Protocol
import Parties.Video.Common

/-!
# Framing of video

Mirror of the type bytes of `parties/protocol.h` a video frame travels under, and of
the stream-1 framing `[u32 length][packet]` with its two incremental parsers,
`QuicServer::process_video_stream_data` and the client's
`parsing::process_video_stream_data`. They differ in the longest packet they accept
and in what they do with one.
-/

namespace Parties.Wire

open ByteStream Parties.Video

/-! ### Type bytes -/

def VIDEO_FRAME_PACKET_TYPE : UInt8 := 0x02
def VIDEO_CONTROL_TYPE : UInt8 := 0x03
def VIDEO_CTL_PLI : UInt8 := 0x01

def STREAM_TYPE_VIDEO_FRAME : UInt8 := 0x12
def STREAM_TYPE_VIDEO_SOURCE_FRAME : UInt8 := 0x13

/-! ### One packet on stream 1 -/

/-- `[u32 length][packet]`; the length is cut to 32 bits. -/
def encodePacket (packet : Bytes) : Bytes := le 4 (packet.length % 2 ^ 32) ++ packet

/-- One turn of a parser that accepts packets of up to `maxLength` bytes. -/
def parsePacket (maxLength : Nat) (buffer : Bytes) : Found UInt8 Bytes :=
  if buffer.length < 4 then .incomplete
  else
    let frameLen := readLe (buffer.take 4)
    if frameLen = 0 ∨ maxLength < frameLen then .invalid
    else
      let totalNeeded := (4 + frameLen) % 2 ^ 32
      if buffer.length < totalNeeded then .incomplete
      else .message ((buffer.drop 4).take frameLen) (buffer.drop totalNeeded)

theorem length_encodePacket (packet : Bytes) :
    (encodePacket packet).length = 4 + packet.length := by
  simp [encodePacket]

section Recognised

variable {maxLength : Nat} {packet : Bytes}

/-- Behind the length of an acceptable packet the parser waits for just that packet. -/
theorem parsePacket_of_length (hmax : maxLength + 4 < 2 ^ 32) (hne : packet ≠ [])
    (hfits : packet.length ≤ maxLength) {buffer : Bytes} (hfour : 4 ≤ buffer.length)
    (hlength : buffer.take 4 = le 4 (packet.length % 2 ^ 32)) :
    parsePacket maxLength buffer =
      if buffer.length < 4 + packet.length then .incomplete
      else .message ((buffer.drop 4).take packet.length) (buffer.drop (4 + packet.length)) := by
  have hpos := List.length_pos_of_ne_nil hne
  have hread : readLe (buffer.take 4) = packet.length := by
    rw [hlength, Nat.mod_eq_of_lt (by omega), readLe_le (by omega)]
  have hvalid : ¬ (packet.length = 0 ∨ maxLength < packet.length) := by omega
  rw [parsePacket, if_neg (by omega)]
  simp only [hread, if_neg hvalid]
  rw [Nat.mod_eq_of_lt (by omega)]

theorem recognises_encodePacket (hmax : maxLength + 4 < 2 ^ 32) (hne : packet ≠ [])
    (hfits : packet.length ≤ maxLength) :
    Recognises (parsePacket maxLength) encodePacket packet where
  whole := by
    intro rest
    have hlen := length_encodePacket packet
    have hlength : (encodePacket packet ++ rest).take 4 = le 4 (packet.length % 2 ^ 32) := by
      rw [encodePacket, List.append_assoc]
      exact List.take_left' (length_le 4 _)
    have hbody : (encodePacket packet ++ rest).drop 4 = packet ++ rest := by
      rw [encodePacket, List.append_assoc]
      exact List.drop_left' (length_le 4 _)
    rw [parsePacket_of_length hmax hne hfits (by rw [List.length_append]; omega) hlength, if_neg]
    · rw [hbody, List.take_left, List.drop_left' hlen]
    · rw [List.length_append]
      omega
  shorter := by
    intro part hpart hproper
    have hlt : part.length < 4 + packet.length := by
      rw [← length_encodePacket]
      exact lt_of_le_of_ne hpart.length_le fun heq => hproper (hpart.eq_of_length heq)
    by_cases hfour : part.length < 4
    · exact if_pos hfour
    · have hlength : part.take 4 = le 4 (packet.length % 2 ^ 32) := by
        obtain ⟨rest, hrest⟩ := hpart
        have htake := congrArg (List.take 4) hrest
        rw [List.take_append_of_le_length (by omega), encodePacket] at htake
        rw [htake]
        exact List.take_left' (length_le 4 _)
      rw [parsePacket_of_length hmax hne hfits (Nat.not_lt.mp hfour) hlength, if_pos hlt]

end Recognised

/-! ### Stream 1 at its two receivers -/

/-- Stream 1 as its receiver keeps it: the buffer and the packets taken off it. -/
structure VideoStream where
  recvBuffer : Bytes := []
  packets : List Bytes := []
deriving DecidableEq, Repr

namespace VideoStream

/-- A piece of the stream, at a receiver that accepts up to `maxLength` bytes. -/
def process (maxLength : Nat) (v : VideoStream) (data : Bytes) : VideoStream :=
  let (buffer, packets) := receive (parsePacket maxLength) v.recvBuffer data
  { recvBuffer := buffer, packets := v.packets ++ packets }

theorem process_foldl (maxLength : Nat) (v : VideoStream) (pieces : List Bytes) :
    pieces.foldl (process maxLength) v =
      { recvBuffer := (receiveAll (parsePacket maxLength) v.recvBuffer pieces).1
        packets := v.packets ++ (receiveAll (parsePacket maxLength) v.recvBuffer pieces).2 } := by
  induction pieces generalizing v with
  | nil => simp [receiveAll]
  | cons piece pieces ih =>
      rw [List.foldl_cons, ih]
      simp [process, receiveAll, List.append_assoc]

/-- What was sent as acceptable packets is received as these packets, however the
    stream was cut. -/
theorem process_encoded {maxLength : Nat} (hmax : maxLength + 4 < 2 ^ 32) {packets : List Bytes}
    (hfits : ∀ packet ∈ packets, packet ≠ [] ∧ packet.length ≤ maxLength) {pieces : List Bytes}
    (hpieces : pieces.flatten = packets.flatMap encodePacket) :
    (pieces.foldl (process maxLength) {}).packets = packets := by
  have hrec : ∀ packet ∈ packets, Recognises (parsePacket maxLength) encodePacket packet := by
    intro packet hmem
    obtain ⟨hne, hlen⟩ := hfits packet hmem
    exact recognises_encodePacket hmax hne hlen
  have hall : receiveAll (parsePacket maxLength) [] pieces = ([], packets) :=
    receiveAll_encoded rfl hrec hpieces
  rw [process_foldl, hall, List.nil_append]

end VideoStream

/-- A packet the server took off stream 1, split as it is passed on. -/
structure PendingFrame where
  packetType : UInt8
  data : Bytes
deriving DecidableEq, Repr

namespace QuicServer

def MAX_VIDEO_LENGTH : Nat := 1 + VIDEO_FRAME_MAX_PAYLOAD_BYTES

/-- `process_video_stream_data`, for the stream of one session. -/
def processVideoStreamData (v : VideoStream) (data : Bytes) : VideoStream :=
  v.process MAX_VIDEO_LENGTH data

/-- A packet of one byte is its type alone; it is passed over. -/
def pendingFrame : Bytes → Option PendingFrame
  | packetType :: byte :: data => some { packetType, data := byte :: data }
  | _ => none

end QuicServer

namespace NetClient

def MAX_VIDEO_LENGTH : Nat := 4 * 1024 * 1024

/-- `parsing::process_video_stream_data`. -/
def processVideoStreamData (v : VideoStream) (data : Bytes) : VideoStream :=
  v.process MAX_VIDEO_LENGTH data

end NetClient

end Parties.Wire

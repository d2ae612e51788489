import Parties.Lib.ByteStream
import Parties.Types

/-!
# Framing on the control stream

Mirror of the two encoders of control messages (`QuicServer::send_control_on_stream`,
`NetClient::send_message`) and the two incremental parsers that read what the
other side encoded (`QuicServer::process_stream_data` and the client's
`parsing::process_stream_data`). A message travels as
`[u32 length][u16 type][payload]`, where the length counts the type and the
payload. The numbers are copied with `memcpy`; hosts are little-endian.
-/

namespace Parties.Wire

open ByteStream

/-- A control message without its addressee. -/
structure ControlMessage where
  type : BitVec 16
  payload : Bytes
deriving DecidableEq, Repr

/-! ### One message -/

/-- `[u32 length][u16 type][payload]`; the length is computed in 32 bits. -/
def encodeControl (message : ControlMessage) : Bytes :=
  let msgLen := BitVec.ofNat 32 (2 + message.payload.length)
  le 4 msgLen.toNat ++ le 2 message.type.toNat ++ message.payload

/-- One turn of a parser that accepts lengths up to `maxLength`. -/
def parseControl (maxLength : BitVec 32) (buffer : Bytes) : Found UInt8 ControlMessage :=
  if buffer.length < 6 then .incomplete
  else
    let msgLen := BitVec.ofNat 32 (readLe (buffer.take 4))
    if msgLen < 2 ∨ maxLength < msgLen then .invalid
    else
      let totalNeeded := (4 + msgLen).toNat
      if buffer.length < totalNeeded then .incomplete
      else
        let rawType := BitVec.ofNat 16 (readLe ((buffer.drop 4).take 2))
        let payloadLen := (msgLen - 2).toNat
        let payload := if 0 < payloadLen then (buffer.drop 6).take payloadLen else []
        .message { type := rawType, payload } (buffer.drop totalNeeded)

theorem length_encodeControl (message : ControlMessage) :
    (encodeControl message).length = 6 + message.payload.length := by
  simp [encodeControl]
  omega

section Recognised

variable {maxLength : BitVec 32} {message : ControlMessage}

/-- The length field as the parsers read it. -/
def lengthField (message : ControlMessage) : BitVec 32 :=
  BitVec.ofNat 32 (2 + message.payload.length)

theorem lengthField_toNat (hmax : maxLength.toNat + 4 < 2 ^ 32)
    (hfits : 2 + message.payload.length ≤ maxLength.toNat) :
    (lengthField message).toNat = 2 + message.payload.length := by
  rw [lengthField, BitVec.toNat_ofNat, Nat.mod_eq_of_lt (by omega)]

theorem encodeControl_eq (message : ControlMessage) :
    encodeControl message =
      le 4 (lengthField message).toNat ++ (le 2 message.type.toNat ++ message.payload) := by
  rw [← List.append_assoc]
  rfl

/-- The bytes behind the header are read back field by field. -/
theorem parseControl_of_length (hmax : maxLength.toNat + 4 < 2 ^ 32)
    (hfits : 2 + message.payload.length ≤ maxLength.toNat) {buffer : Bytes}
    (hsix : 6 ≤ buffer.length)
    (hlength : buffer.take 4 = le 4 (lengthField message).toNat) :
    parseControl maxLength buffer =
      if buffer.length < 6 + message.payload.length then .incomplete
      else .message
        { type := BitVec.ofNat 16 (readLe ((buffer.drop 4).take 2))
          payload := (buffer.drop 6).take message.payload.length }
        (buffer.drop (6 + message.payload.length)) := by
  have hlen := lengthField_toNat hmax hfits
  have hfield : BitVec.ofNat 32 (readLe (buffer.take 4)) = lengthField message := by
    rw [hlength, readLe_le (BitVec.isLt _), BitVec.ofNat_toNat, BitVec.setWidth_eq]
  have hvalid : ¬ (lengthField message < 2 ∨ maxLength < lengthField message) := by
    rw [BitVec.lt_def, BitVec.lt_def, hlen, show (2 : BitVec 32).toNat = 2 from rfl]
    omega
  have htotal : (4 + lengthField message).toNat = 6 + message.payload.length := by
    rw [BitVec.toNat_add, hlen, show (4 : BitVec 32).toNat = 4 from rfl]
    omega
  have hpayload : (lengthField message - 2).toNat = message.payload.length := by
    rw [BitVec.toNat_sub, hlen, show (2 : BitVec 32).toNat = 2 from rfl]
    omega
  unfold parseControl
  rw [if_neg (by omega)]
  simp only [hfield, if_neg hvalid, htotal, hpayload]
  have hbody : (if 0 < message.payload.length then (buffer.drop 6).take message.payload.length
      else []) = (buffer.drop 6).take message.payload.length := by
    split
    · rfl
    next hempty =>
      rw [Nat.eq_zero_of_not_pos hempty, List.take_zero]
  rw [hbody]

/-- A message in front of whatever follows is found. -/
theorem parseControl_encode (hmax : maxLength.toNat + 4 < 2 ^ 32)
    (hfits : 2 + message.payload.length ≤ maxLength.toNat) (rest : Bytes) :
    parseControl maxLength (encodeControl message ++ rest) = .message message rest := by
  have hlen := length_encodeControl message
  have hlength : (encodeControl message ++ rest).take 4 = le 4 (lengthField message).toNat := by
    rw [encodeControl_eq, List.append_assoc]
    exact List.take_left' (length_le 4 _)
  have hdrop : (encodeControl message ++ rest).drop 4 =
      le 2 message.type.toNat ++ (message.payload ++ rest) := by
    rw [encodeControl_eq, List.append_assoc, List.append_assoc]
    exact List.drop_left' (length_le 4 _)
  have htype : ((encodeControl message ++ rest).drop 4).take 2 = le 2 message.type.toNat := by
    rw [hdrop]
    exact List.take_left' (length_le 2 _)
  have hbody : (encodeControl message ++ rest).drop 6 = message.payload ++ rest := by
    rw [show 6 = 4 + 2 from rfl, ← List.drop_drop, hdrop]
    exact List.drop_left' (length_le 2 _)
  rw [parseControl_of_length hmax hfits (by rw [List.length_append]; omega) hlength, if_neg]
  · rw [htype, hbody, List.take_left, readLe_le message.type.isLt, BitVec.ofNat_toNat,
      BitVec.setWidth_eq, List.drop_left' hlen]
  · rw [List.length_append]
    omega

/-- A parser waits on every proper beginning of a message. -/
theorem parseControl_shorter (hmax : maxLength.toNat + 4 < 2 ^ 32)
    (hfits : 2 + message.payload.length ≤ maxLength.toNat) {part : Bytes}
    (hpart : part <+: encodeControl message) (hne : part ≠ encodeControl message) :
    parseControl maxLength part = .incomplete := by
  have hlt : part.length < 6 + message.payload.length := by
    rw [← length_encodeControl]
    exact lt_of_le_of_ne hpart.length_le fun heq => hne (hpart.eq_of_length heq)
  by_cases hsix : part.length < 6
  · exact if_pos hsix
  · have hlength : part.take 4 = le 4 (lengthField message).toNat := by
      obtain ⟨rest, hrest⟩ := hpart
      have htake := congrArg (List.take 4) hrest
      rw [List.take_append_of_le_length (by omega), encodeControl_eq] at htake
      rw [htake]
      exact List.take_left' (length_le 4 _)
    rw [parseControl_of_length hmax hfits (Nat.not_lt.mp hsix) hlength, if_pos hlt]

theorem recognises_encodeControl (hmax : maxLength.toNat + 4 < 2 ^ 32)
    (hfits : 2 + message.payload.length ≤ maxLength.toNat) :
    Recognises (parseControl maxLength) encodeControl message where
  whole := parseControl_encode hmax hfits
  shorter _ := parseControl_shorter hmax hfits

end Recognised

/-! ### The two sides -/

structure IncomingMessage where
  sessionId : BitVec 32
  message : ControlMessage
deriving DecidableEq, Repr

/-- A piece of a session's control stream. -/
structure Arrival where
  sessionId : BitVec 32
  data : Bytes
deriving DecidableEq, Repr

/-- The control streams of the server: a buffer for each session and the queue
of the messages of all of them. -/
structure QuicServer where
  recvBuffers : BitVec 32 → Bytes := fun _ => []
  controlIncoming : List IncomingMessage := []

namespace QuicServer

def MAX_LENGTH : BitVec 32 := 1024 * 1024

/-- `send_control_on_stream`: the bytes handed to the transport. -/
def sendControlOnStream (message : ControlMessage) : Bytes := encodeControl message

def parseFront (buffer : Bytes) : Found UInt8 ControlMessage := parseControl MAX_LENGTH buffer

/-- `process_stream_data`. -/
def processStreamData (q : QuicServer) (arrival : Arrival) : QuicServer :=
  let (buffer, messages) := receive parseFront (q.recvBuffers arrival.sessionId) arrival.data
  { recvBuffers := Function.update q.recvBuffers arrival.sessionId buffer
    controlIncoming :=
      q.controlIncoming ++ messages.map fun message =>
        { sessionId := arrival.sessionId, message } }

end QuicServer

/-- The control stream of a client. -/
structure NetClient where
  recvBuffer : Bytes := []
  incoming : List ControlMessage := []
deriving DecidableEq, Repr

namespace NetClient

def MAX_LENGTH : BitVec 32 := 1024 * 1024

/-- `send_message`: the bytes handed to the transport. -/
def sendMessage (message : ControlMessage) : Bytes := encodeControl message

def parseFront (buf : Bytes) : Found UInt8 ControlMessage := parseControl MAX_LENGTH buf

/-- `parsing::process_stream_data`. -/
def processStreamData (c : NetClient) (data : Bytes) : NetClient :=
  let (buf, messages) := receive parseFront c.recvBuffer data
  { recvBuffer := buf, incoming := c.incoming ++ messages }

end NetClient

/-! ### The round trip -/

/-- The client reads what the server wrote, however the stream was cut. -/
theorem NetClient.processStreamData_foldl (c : NetClient) (pieces : List Bytes) :
    pieces.foldl processStreamData c =
      { recvBuffer := (receiveAll parseFront c.recvBuffer pieces).1
        incoming := c.incoming ++ (receiveAll parseFront c.recvBuffer pieces).2 } := by
  induction pieces generalizing c with
  | nil => simp [receiveAll]
  | cons piece pieces ih =>
      rw [List.foldl_cons, ih]
      simp only [receiveAll, NetClient.processStreamData, List.append_assoc]

namespace QuicServer

/-- The messages of one session in the queue. -/
def messagesOf (q : QuicServer) (sid : BitVec 32) : List ControlMessage :=
  (q.controlIncoming.filter fun m => m.sessionId = sid).map IncomingMessage.message

/-- The pieces of one session among the arrivals. -/
def piecesOf (arrivals : List Arrival) (sid : BitVec 32) : List Bytes :=
  (arrivals.filter fun arrival => arrival.sessionId = sid).map Arrival.data

/-- A piece changes nothing for the other sessions. -/
theorem processStreamData_other {q : QuicServer} {arrival : Arrival} {sid : BitVec 32}
    (hother : arrival.sessionId ≠ sid) :
    (q.processStreamData arrival).recvBuffers sid = q.recvBuffers sid ∧
      (q.processStreamData arrival).messagesOf sid = q.messagesOf sid := by
  constructor
  · exact Function.update_of_ne hother.symm _ _
  · simp [messagesOf, processStreamData, List.filter_append, List.filter_map, hother]

/-- For its own session a piece is one call of the parser. -/
theorem processStreamData_own {q : QuicServer} (arrival : Arrival) :
    (q.processStreamData arrival).recvBuffers arrival.sessionId =
        (receive parseFront (q.recvBuffers arrival.sessionId) arrival.data).1 ∧
      (q.processStreamData arrival).messagesOf arrival.sessionId =
        q.messagesOf arrival.sessionId ++
          (receive parseFront (q.recvBuffers arrival.sessionId) arrival.data).2 := by
  constructor
  · exact Function.update_self _ _ _
  · simp [messagesOf, processStreamData, List.filter_append, List.filter_map, Function.comp_def]

/-- Each session is parsed on its own. -/
theorem processStreamData_foldl (q : QuicServer) (arrivals : List Arrival) (sid : BitVec 32) :
    (arrivals.foldl processStreamData q).recvBuffers sid =
        (receiveAll parseFront (q.recvBuffers sid) (piecesOf arrivals sid)).1 ∧
      (arrivals.foldl processStreamData q).messagesOf sid =
        q.messagesOf sid ++
          (receiveAll parseFront (q.recvBuffers sid) (piecesOf arrivals sid)).2 := by
  induction arrivals generalizing q with
  | nil => simp [piecesOf, receiveAll]
  | cons arrival arrivals ih =>
      obtain ⟨hbuffer, hmessages⟩ := ih (q.processStreamData arrival)
      rw [List.foldl_cons, hbuffer, hmessages]
      by_cases hown : arrival.sessionId = sid
      · obtain rfl := hown
        obtain ⟨hown₁, hown₂⟩ := processStreamData_own (q := q) arrival
        rw [hown₁, hown₂]
        simp [piecesOf, receiveAll, List.append_assoc]
      · obtain ⟨hother₁, hother₂⟩ := processStreamData_other (q := q) hown
        rw [hother₁, hother₂]
        simp [piecesOf, hown]

end QuicServer

/-- Control framing: for messages whose payload is at most 1 MiB minus two bytes
and every way to cut the encoded bytes into pieces, each side finds exactly the
messages the other one encoded and is left with an empty buffer; on the server
also when the pieces of many sessions interleave. -/
theorem control_roundTrip :
    (∀ (messages : List ControlMessage) (pieces : List Bytes),
      (∀ m ∈ messages, m.payload.length ≤ 1024 * 1024 - 2) →
      pieces.flatten = messages.flatMap QuicServer.sendControlOnStream →
      pieces.foldl NetClient.processStreamData {} = { recvBuffer := [], incoming := messages }) ∧
    ∀ (messages : BitVec 32 → List ControlMessage) (arrivals : List Arrival),
      (∀ sid, ∀ m ∈ messages sid, m.payload.length ≤ 1024 * 1024 - 2) →
      (∀ sid, (QuicServer.piecesOf arrivals sid).flatten =
        (messages sid).flatMap NetClient.sendMessage) →
      ∀ sid,
        (arrivals.foldl QuicServer.processStreamData {}).recvBuffers sid = [] ∧
        (arrivals.foldl QuicServer.processStreamData {}).messagesOf sid = messages sid := by
  constructor
  · intro messages pieces hfits hbytes
    have hrec : ∀ m ∈ messages, Recognises NetClient.parseFront encodeControl m := by
      intro m hm
      apply recognises_encodeControl (by decide)
      have hle := hfits m hm
      show 2 + m.payload.length ≤ 1048576
      omega
    rw [NetClient.processStreamData_foldl, receiveAll_encoded rfl hrec hbytes]
    rfl
  · intro messages arrivals hfits hbytes sid
    have hrec : ∀ m ∈ messages sid, Recognises QuicServer.parseFront encodeControl m := by
      intro m hm
      apply recognises_encodeControl (by decide)
      have hle := hfits sid m hm
      show 2 + m.payload.length ≤ 1048576
      omega
    obtain ⟨hbuffer, hmessages⟩ := QuicServer.processStreamData_foldl {} arrivals sid
    rw [hbuffer, hmessages, receiveAll_encoded rfl hrec (hbytes sid)]
    exact ⟨rfl, rfl⟩

/-- A message cut inside its length, an empty piece, and two sessions whose
single bytes alternate. -/
theorem control_roundTrip_cut :
    [[5, 0], [], [0, 0, 2], [0, 1, 2, 3]].foldl NetClient.processStreamData {} =
        { recvBuffer := [], incoming := [{ type := 2, payload := [1, 2, 3] }] } ∧
      ([⟨1, [2]⟩, ⟨2, [2, 0]⟩, ⟨1, [0, 0, 0]⟩, ⟨2, [0, 0, 9, 0]⟩, ⟨1, [7, 0]⟩].foldl
        QuicServer.processStreamData {}).messagesOf 1 = [{ type := 7, payload := [] }] := by
  constructor
  · exact control_roundTrip.1 [{ type := 2, payload := [1, 2, 3] }] _ (by decide) (by decide)
  · refine (control_roundTrip.2
      (fun sid => if sid = 1 then [{ type := 7, payload := [] }]
        else if sid = 2 then [{ type := 9, payload := [] }] else []) _ ?_ ?_ 1).2
    · intro sid m hm
      split_ifs at hm <;> simp_all
    · intro sid
      by_cases hone : sid = 1#32
      · subst hone
        decide
      · by_cases htwo : sid = 2#32
        · subst htwo
          decide
        · have hone' : ¬ 1#32 = sid := fun h => hone h.symm
          have htwo' : ¬ 2#32 = sid := fun h => htwo h.symm
          simp [QuicServer.piecesOf, hone, htwo, hone', htwo']

end Parties.Wire

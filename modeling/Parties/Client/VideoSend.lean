import Parties.Wire.VideoFraming

/-!
# Sending a video frame

Mirror of `AppCore::send_video_frame` (`client/src/app_core.cpp`) and of the send paths
it takes through `client/src/net_client_msquic.cpp`: a unidirectional stream of its own
for each frame, or stream 1 toward a server before 1.2. The transport queues the bytes
or refuses them; what it queued it reports once it is done with it.
-/

namespace Parties.Client

open Parties.Video Parties.Wire

/-! ### The transport -/

/-- What the transport answers while a send call runs. -/
structure Transport where
  connected : Bool
  connection : Bool
  videoStream : Bool
  streamOpen : Bool
  streamSend : Bool
deriving DecidableEq, Repr

/-- Why a packet is on stream 1. -/
inductive SendKind where
  | videoStream1
  | stream1Ctl
deriving DecidableEq, Repr

/-- What the transport owns from the call until it has reported it. -/
inductive SendCtx where
  | videoOut (source : VideoSource) (data : Bytes)
  | stream1 (kind : SendKind) (data : Bytes)
deriving DecidableEq, Repr

namespace SendCtx

def data : SendCtx → Bytes
  | videoOut _ data => data
  | stream1 _ data => data

/-- The count handed to `StreamSend`, a number of 32 bits. -/
def len (ctx : SendCtx) : Nat := ctx.data.length % 2 ^ 32

/-- `on_video_bytes_completed` as `SEND_COMPLETE` calls it, if it does. -/
def videoBytesCompleted (ctx : SendCtx) : Option (VideoSource × Nat) :=
  match ctx with
  | videoOut source _ => some (source, ctx.len)
  | stream1 .videoStream1 _ => some (.screen, ctx.len)
  -- not video, and nobody has added its bytes
  | stream1 .stream1Ctl _ => none

end SendCtx

namespace NetClient

/-- What a per-frame stream starts with. -/
def frameStreamPrefix : VideoSource → Bytes
  | .screen => [STREAM_TYPE_VIDEO_FRAME]
  | .camera => [STREAM_TYPE_VIDEO_SOURCE_FRAME, 1]

def frameStreamPrefixBytes : VideoSource → Nat
  | .screen => 1
  | .camera => 2

def sendVideoFrameStream (t : Transport) (header payload : Bytes) (source : VideoSource) :
    Option SendCtx :=
  if !t.connected || !t.connection then none
  else if VIDEO_FRAME_MAX_PAYLOAD_BYTES < header.length + payload.length then none
  else if !t.streamOpen then none
  else if !t.streamSend then none
  else some (.videoOut source (frameStreamPrefix source ++ header ++ payload))

def sendStream1 (t : Transport) (header payload : Bytes) (kind : SendKind) : Option SendCtx :=
  if !t.connected || !t.videoStream then none
  else if !t.streamSend then none
  else some (.stream1 kind (encodePacket (header ++ payload)))

def sendVideoParts (t : Transport) (header payload : Bytes) : Option SendCtx :=
  if VIDEO_FRAME_MAX_PAYLOAD_BYTES < header.length + payload.length then none
  else sendStream1 t header payload .videoStream1

/-- A whole packet on stream 1: the requests for keyframes. -/
def sendVideo (t : Transport) (data : Bytes) : Option SendCtx := sendStream1 t [] data .stream1Ctl

end NetClient

/-! ### The app -/

/-- The call `send_video_frame` makes for a frame, and what it has charged for it. -/
structure VideoCall where
  source : VideoSource
  frameStream : Bool
  header : Bytes
  payload : Bytes
  accounted : Nat
deriving DecidableEq, Repr

/-- `send_video_frame` up to the call, toward a server of that version. -/
def videoCall (serverVersion : BitVec 16) (source : VideoSource) (hdr : VideoFrameHeader)
    (encoded : Bytes) : Option VideoCall :=
  if protocolSupportsFrameStreams serverVersion then
    let h := hdr.write
    some {
      source, frameStream := true, header := h, payload := encoded
      accounted := NetClient.frameStreamPrefixBytes source + h.length + encoded.length }
  else if source ≠ .camera then
    let pkt := VIDEO_FRAME_PACKET_TYPE :: hdr.write
    some {
      source, frameStream := false, header := pkt, payload := encoded
      accounted := 4 + pkt.length + encoded.length }
  -- no camera without per-frame streams
  else none

def VideoCall.perform (call : VideoCall) (t : Transport) : Option SendCtx :=
  if call.frameStream then NetClient.sendVideoFrameStream t call.header call.payload call.source
  else NetClient.sendVideoParts t call.header call.payload

/-! ### What is queued -/

theorem length_frameStreamPrefix (source : VideoSource) :
    (NetClient.frameStreamPrefix source).length = NetClient.frameStreamPrefixBytes source := by
  cases source <;> rfl

theorem frameStreamPrefixBytes_le (source : VideoSource) :
    NetClient.frameStreamPrefixBytes source ≤ 2 := by
  cases source <;> decide

theorem length_write (hdr : VideoFrameHeader) : hdr.write.length = VIDEO_FRAME_HEADER_SIZE := rfl

theorem sendVideoFrameStream_eq_some {t : Transport} {header payload : Bytes}
    {source : VideoSource} {ctx : SendCtx}
    (h : NetClient.sendVideoFrameStream t header payload source = some ctx) :
    header.length + payload.length ≤ VIDEO_FRAME_MAX_PAYLOAD_BYTES ∧
      ctx = .videoOut source (NetClient.frameStreamPrefix source ++ header ++ payload) := by
  rw [NetClient.sendVideoFrameStream] at h
  repeat' split at h
  all_goals cases h
  next hfits _ _ => exact ⟨Nat.not_lt.mp hfits, rfl⟩

theorem sendVideoParts_eq_some {t : Transport} {header payload : Bytes} {ctx : SendCtx}
    (h : NetClient.sendVideoParts t header payload = some ctx) :
    header.length + payload.length ≤ VIDEO_FRAME_MAX_PAYLOAD_BYTES ∧
      ctx = .stream1 .videoStream1 (encodePacket (header ++ payload)) := by
  rw [NetClient.sendVideoParts, NetClient.sendStream1] at h
  repeat' split at h
  all_goals cases h
  next hfits _ _ => exact ⟨Nat.not_lt.mp hfits, rfl⟩

theorem sendVideo_eq_some {t : Transport} {data : Bytes} {ctx : SendCtx}
    (h : NetClient.sendVideo t data = some ctx) : ctx = .stream1 .stream1Ctl (encodePacket data) := by
  rw [NetClient.sendVideo, NetClient.sendStream1] at h
  repeat' split at h
  all_goals cases h
  rfl

/-- The two calls the app makes for a frame. -/
theorem videoCall_cases {serverVersion : BitVec 16} {source : VideoSource}
    {hdr : VideoFrameHeader} {encoded : Bytes} {call : VideoCall}
    (h : videoCall serverVersion source hdr encoded = some call) :
    call = {
        source, frameStream := true, header := hdr.write, payload := encoded
        accounted := NetClient.frameStreamPrefixBytes source + VIDEO_FRAME_HEADER_SIZE +
          encoded.length } ∨
      source = .screen ∧ call = {
        source := .screen, frameStream := false
        header := VIDEO_FRAME_PACKET_TYPE :: hdr.write, payload := encoded
        accounted := 4 + (1 + VIDEO_FRAME_HEADER_SIZE) + encoded.length } := by
  rw [videoCall] at h
  split at h
  · cases h
    exact Or.inl rfl
  · cases source with
    | screen =>
        cases h
        exact Or.inr ⟨rfl, rfl⟩
    | camera => cases h

/-- The transport reports for a frame what the app has charged for it. -/
theorem videoBytesCompleted_eq_accounted {serverVersion : BitVec 16} {source : VideoSource}
    {hdr : VideoFrameHeader} {encoded : Bytes} {call : VideoCall}
    (hcall : videoCall serverVersion source hdr encoded = some call) {t : Transport}
    {ctx : SendCtx} (hsent : call.perform t = some ctx) :
    ctx.videoBytesCompleted = some (source, call.accounted) := by
  rcases videoCall_cases hcall with rfl | ⟨rfl, rfl⟩
  · obtain ⟨hfits, rfl⟩ := sendVideoFrameStream_eq_some hsent
    have hprefix := frameStreamPrefixBytes_le source
    replace hfits : VIDEO_FRAME_HEADER_SIZE + encoded.length ≤ VIDEO_FRAME_MAX_PAYLOAD_BYTES :=
      hfits
    simp only [SendCtx.videoBytesCompleted, SendCtx.len, SendCtx.data, List.length_append,
      length_frameStreamPrefix, length_write]
    rw [Nat.mod_eq_of_lt]
    exact lt_of_le_of_lt (show _ ≤ 2 + VIDEO_FRAME_MAX_PAYLOAD_BYTES by omega) (by decide)
  · obtain ⟨hfits, rfl⟩ := sendVideoParts_eq_some hsent
    replace hfits : VIDEO_FRAME_HEADER_SIZE + 1 + encoded.length ≤
        VIDEO_FRAME_MAX_PAYLOAD_BYTES := hfits
    simp only [SendCtx.videoBytesCompleted, SendCtx.len, SendCtx.data, length_encodePacket,
      List.length_append, List.length_cons, length_write]
    rw [Nat.mod_eq_of_lt]
    · simp only [Nat.add_assoc, Nat.add_comm 1]
    · exact lt_of_le_of_lt (show _ ≤ 4 + VIDEO_FRAME_MAX_PAYLOAD_BYTES by omega) (by decide)

end Parties.Client

import Parties.Client.FrameReceive
import Parties.Server.FrameIngress
import Parties.Server.VideoPath

/-!
# A frame from its sharer to its viewers

The way of one frame: the sharer's send path, the stream that brings it to the server,
the queue of the server, `QuicServer::send_video_frame_to`, and the stream that brings it
to a viewer. Either hop may be a stream of its own or stream 1, which other packets
share. Each piece of the way compares the frame with a limit of its own, and each adds
or takes off a prefix.
-/

namespace Parties

open ByteStream Parties.Video Parties.Wire

/-! ### The forward path -/

/-- `[sender_id u32][header][encoded]`, built once for all viewers. -/
def forwardedFrame (stream : StreamId) (data : Bytes) : Bytes := le 4 stream.toNat ++ data

/-- The connection to a viewer and what the transport answers on it. -/
structure ViewerLink where
  alive : Bool
  connection : Bool
  videoStream : Bool
  streamOpen : Bool
  streamSend : Bool
deriving DecidableEq, Repr

inductive SendRefusal where
  | notConnected
  | tooLarge
  | transport
deriving DecidableEq, Repr

inductive ViewerSend where
  | frameStream (data : Bytes)
  | stream1 (data : Bytes)
deriving DecidableEq, Repr

def sendVideoFrameTo (frameStreams : Bool) (link : ViewerLink) (frame : Bytes) :
    Except SendRefusal ViewerSend :=
  if !link.alive || !link.connection then .error .notConnected
  else if VIDEO_FRAME_MAX_BYTES < 1 + frame.length then .error .tooLarge
  else if frameStreams then
    if !link.streamOpen || !link.streamSend then .error .transport
    else .ok (.frameStream (STREAM_TYPE_VIDEO_FRAME :: frame))
  else if !link.videoStream then .error .notConnected
  else if !link.streamSend then .error .transport
  else .ok (.stream1 (le 4 ((1 + frame.length) % 2 ^ 32) ++ VIDEO_FRAME_PACKET_TYPE :: frame))

/-- `quic_.on_video_frame`, for a packet of stream 1: a frame goes to the queue. -/
def onStream1Packet (packet : Bytes) : Option (VideoSource × Bytes) :=
  match QuicServer.pendingFrame packet with
  | some { packetType, data } =>
    if packetType = VIDEO_FRAME_PACKET_TYPE then some (.screen, data) else none
  | none => none

/-! ### What is on stream 1 beside a frame -/

namespace Client

/-- `send_pli_packet`. -/
def pliPacket (target : StreamId) : Bytes :=
  VIDEO_CONTROL_TYPE :: VIDEO_CTL_PLI :: le 4 target.toNat

/-- A packet one of the client's send calls has put on stream 1. -/
inductive OnStream1 : Bytes → Prop where
  | frame {serverVersion : BitVec 16} {source : VideoSource} {hdr : VideoFrameHeader}
      {encoded : Bytes} {call : VideoCall} {t : Transport} {kind : SendKind} {packet : Bytes}
      (hcall : videoCall serverVersion source hdr encoded = some call)
      (hsent : call.perform t = some (.stream1 kind (encodePacket packet))) : OnStream1 packet
  | pli {target : StreamId} {t : Transport} {kind : SendKind} {packet : Bytes}
      (hsent : NetClient.sendVideo t (pliPacket target) =
        some (.stream1 kind (encodePacket packet))) : OnStream1 packet

theorem encodePacket_inj {packet packet' : Bytes} (h : encodePacket packet = encodePacket packet') :
    packet = packet' := by
  have hdrop := congrArg (List.drop 4) h
  rw [encodePacket, encodePacket, List.drop_left' (length_le 4 _),
    List.drop_left' (length_le 4 _)] at hdrop
  exact hdrop

/-- The server accepts every packet the client puts on stream 1. -/
theorem OnStream1.accepted {packet : Bytes} (h : OnStream1 packet) :
    packet ≠ [] ∧ packet.length ≤ QuicServer.MAX_VIDEO_LENGTH := by
  cases h with
  | @frame serverVersion source hdr encoded call t kind packet hcall hsent =>
      rcases videoCall_cases hcall with rfl | ⟨rfl, rfl⟩
      · cases (sendVideoFrameStream_eq_some hsent).2
      · obtain ⟨hfits, hctx⟩ := sendVideoParts_eq_some hsent
        obtain rfl : packet = (VIDEO_FRAME_PACKET_TYPE :: hdr.write) ++ encoded := by
          apply encodePacket_inj
          injection hctx
        refine ⟨List.cons_ne_nil _ _, ?_⟩
        rw [List.length_append]
        exact hfits.trans (Nat.le_add_left _ 1)
  | @pli target t kind packet hsent =>
      obtain rfl : packet = pliPacket target := by
        have hctx := sendVideo_eq_some hsent
        apply encodePacket_inj
        injection hctx
      refine ⟨List.cons_ne_nil _ _, ?_⟩
      rw [pliPacket, List.length_cons, List.length_cons, length_le]
      decide

end Client

/-- A packet the server has put on stream 1 of a viewer. -/
inductive OnViewerStream1 : Bytes → Prop where
  | frame {link : ViewerLink} {frame packet : Bytes}
      (hsent : sendVideoFrameTo false link frame = .ok (.stream1 (encodePacket packet))) :
      OnViewerStream1 packet

theorem sendVideoFrameTo_ok {frameStreams : Bool} {link : ViewerLink} {frame : Bytes}
    {out : ViewerSend} (h : sendVideoFrameTo frameStreams link frame = .ok out) :
    1 + frame.length ≤ VIDEO_FRAME_MAX_BYTES ∧
      out = if frameStreams then .frameStream (STREAM_TYPE_VIDEO_FRAME :: frame)
        else .stream1 (encodePacket (VIDEO_FRAME_PACKET_TYPE :: frame)) := by
  rw [sendVideoFrameTo] at h
  repeat' split at h
  all_goals cases h
  next hfits hstreams _ =>
    exact ⟨Nat.not_lt.mp hfits, (if_pos hstreams).symm⟩
  next hfits hstreams _ _ =>
    refine ⟨Nat.not_lt.mp hfits, ?_⟩
    rw [if_neg hstreams, encodePacket, List.length_cons, Nat.add_comm]

/-- A viewer accepts every packet the server puts on its stream 1. -/
theorem OnViewerStream1.accepted {packet : Bytes} (h : OnViewerStream1 packet) :
    packet ≠ [] ∧ packet.length ≤ Wire.NetClient.MAX_VIDEO_LENGTH := by
  obtain @⟨link, frame, packet, hsent⟩ := h
  obtain ⟨hfits, hout⟩ := sendVideoFrameTo_ok hsent
  obtain rfl : packet = VIDEO_FRAME_PACKET_TYPE :: frame := by
    apply Client.encodePacket_inj
    injection hout
  refine ⟨List.cons_ne_nil _ _, ?_⟩
  rw [List.length_cons, Nat.add_comm]
  exact hfits

/-! ### What it means to arrive -/

/-- However the stream is cut and whatever else the session sends, the server takes the
    frame off it as it is; or it gives up on the stream for what else the session does. -/
def ReachesServer (source : VideoSource) (frame : Bytes) : Client.SendCtx → Prop
  | .videoOut _ data =>
    ∀ (events : List IngressReceive) (last : IngressReceive),
      (∀ e ∈ events, e.fin = false) → last.fin = true →
      events.flatMap IngressReceive.data ++ last.data = data →
      let out := VideoInStream.run {} (events ++ [last])
      out.1.GivenUp ∨ out.1.dead = none ∧ VideoInStream.frames out.2 = [(source, frame)]
  | .stream1 _ data =>
    ∀ (before after : List Bytes) (pieces : List Bytes),
      (∀ packet ∈ before ++ after, Client.OnStream1 packet) →
      pieces.flatten = before.flatMap encodePacket ++ data ++ after.flatMap encodePacket →
      (pieces.foldl QuicServer.processVideoStreamData {}).packets.filterMap onStream1Packet =
        before.filterMap onStream1Packet ++ (source, frame) :: after.filterMap onStream1Packet

/-- The queue of the server turns the frame down only for the session: it is gone, may not
    publish the source, or has too much in the queue. -/
def Queued (source : VideoSource) (frame : Bytes) : Prop :=
  ∀ (s : Server) (sid : SessionId) (share : Nat),
    (∀ session, s.getSession sid = some session →
      session.videoIngressAllowed source = false ∨
        VIDEO_INGRESS_MAX_BUFFERED_BYTES < session.videoPendingBytes + frame.length) ∨
      (s.enqueueVideoFrame sid source { share, bytes := frame }).videoIncoming =
        s.videoIncoming ++ [{
          session := sid
          source := source
          generation := ((s.sessions sid).videoSources source).generation
          event := .frame { share, bytes := frame } }]

/-- However the stream is cut and whatever else the server sends on it, the viewer takes the
    frame off it as it is, under the stream it is of. -/
def ReachesViewer (viewer : UserId) (stream : StreamId) (frame : Bytes) : ViewerSend → Prop
  | .frameStream data =>
    ∀ (pieces : List Bytes) (last : Client.FrameStreamEvent) (rest : List Client.FrameStreamEvent),
      (last = .peerSendShutdown ∨ ∃ data, last = .receive data true) →
      (∀ e ∈ rest, e = .peerSendShutdown) → pieces.flatten ++ last.data = data →
      let out := Client.VideoInCtx.run {} (pieces.map (.receive · false) ++ last :: rest)
      out.1.dead = false ∧
        (Client.VideoInCtx.frames out.2).filterMap (Client.routeVideoStreamFrame viewer) =
          [(stream, frame)]
  | .stream1 data =>
    ∀ (before after : List Bytes) (pieces : List Bytes),
      (∀ packet ∈ before ++ after, OnViewerStream1 packet) →
      pieces.flatten = before.flatMap encodePacket ++ data ++ after.flatMap encodePacket →
      (pieces.foldl Wire.NetClient.processVideoStreamData {}).packets.filterMap
          (Client.onDataReceived viewer) =
        before.filterMap (Client.onDataReceived viewer) ++
          (stream, frame) :: after.filterMap (Client.onDataReceived viewer)

/-! ### The hops -/

section

variable {source : VideoSource} {frame : Bytes}

theorem queued (hheader : VIDEO_FRAME_HEADER_SIZE ≤ frame.length)
    (hfits : frame.length ≤ VIDEO_FRAME_MAX_PAYLOAD_BYTES) : Queued source frame := by
  intro s sid share
  by_cases hturned : ∀ session, s.getSession sid = some session →
      session.videoIngressAllowed source = false ∨
        VIDEO_INGRESS_MAX_BUFFERED_BYTES < session.videoPendingBytes + frame.length
  · exact Or.inl hturned
  · right
    rw [not_forall] at hturned
    obtain ⟨session, hturned⟩ := hturned
    rw [Classical.not_imp, not_or] at hturned
    obtain ⟨hsession, hallowed, hpending⟩ := hturned
    have hsize : ¬ (decide (frameSize ({ share, bytes := frame } : ShareFrame) <
        VIDEO_FRAME_HEADER_SIZE) || decide (VIDEO_FRAME_MAX_PAYLOAD_BYTES <
        frameSize ({ share, bytes := frame } : ShareFrame))) = true := by
      rw [Bool.or_eq_true, decide_eq_true_iff, decide_eq_true_iff]
      show ¬ (frame.length < _ ∨ _ < frame.length)
      omega
    have hsend : ¬ (!session.videoIngressAllowed source) = true := by
      rw [Bool.not_eq_true', Bool.not_eq_false]
      exact Bool.not_eq_false _ |>.mp hallowed
    rw [Server.enqueueVideoFrame, if_neg hsize, hsession]
    simp only
    rw [if_neg hsend]
    exact congrArg Server.videoIncoming (if_neg hpending)

/-- The server takes a frame off the stream 1 of its sharer. -/
theorem reachesServer_stream1 {kind : Client.SendKind}
    (hheader : VIDEO_FRAME_HEADER_SIZE ≤ frame.length)
    (hfits : frame.length ≤ VIDEO_FRAME_MAX_PAYLOAD_BYTES) :
    ReachesServer .screen frame (.stream1 kind (encodePacket (VIDEO_FRAME_PACKET_TYPE :: frame))) := by
  intro before after pieces hothers hpieces
  have haccepted : ∀ packet ∈ before ++ (VIDEO_FRAME_PACKET_TYPE :: frame) :: after,
      packet ≠ [] ∧ packet.length ≤ QuicServer.MAX_VIDEO_LENGTH := by
    intro packet hmem
    rcases List.mem_append.mp hmem with hb | hrest
    · exact (hothers packet (List.mem_append_left _ hb)).accepted
    · rcases List.mem_cons.mp hrest with rfl | ha
      · refine ⟨List.cons_ne_nil _ _, ?_⟩
        rw [List.length_cons, QuicServer.MAX_VIDEO_LENGTH]
        omega
      · exact (hothers packet (List.mem_append_right _ ha)).accepted
  have hbytes : pieces.flatten =
      (before ++ (VIDEO_FRAME_PACKET_TYPE :: frame) :: after).flatMap encodePacket := by
    rw [hpieces, List.flatMap_append, List.flatMap_cons, List.append_assoc]
  have hframe : onStream1Packet (VIDEO_FRAME_PACKET_TYPE :: frame) = some (.screen, frame) := by
    cases frame with
    | nil => exact absurd hheader (by decide)
    | cons byte data => rfl
  have hpackets := VideoStream.process_encoded (by decide) haccepted hbytes
  rw [show pieces.foldl QuicServer.processVideoStreamData {} =
      pieces.foldl (VideoStream.process QuicServer.MAX_VIDEO_LENGTH) {} from rfl, hpackets,
    List.filterMap_append, List.filterMap_cons_some hframe]

theorem reachesServer_frameStream (hheader : VIDEO_FRAME_HEADER_SIZE ≤ frame.length)
    (hfits : frame.length ≤ VIDEO_FRAME_MAX_PAYLOAD_BYTES) :
    ReachesServer source frame
      (.videoOut source (Client.NetClient.frameStreamPrefix source ++ frame)) := by
  intro events last hopen hlast hdata
  exact (VideoInStream.reading_new source).run hheader hfits hlast hopen hdata

/-- A viewer takes a frame off its stream 1. -/
theorem reachesViewer_stream1 {viewer : UserId} {stream : StreamId}
    (hother : videoStreamOwner stream ≠ viewer)
    (hheader : VIDEO_FRAME_HEADER_SIZE ≤ frame.length)
    (hfits : frame.length ≤ VIDEO_FRAME_MAX_PAYLOAD_BYTES) :
    ReachesViewer viewer stream frame
      (.stream1 (encodePacket (VIDEO_FRAME_PACKET_TYPE :: forwardedFrame stream frame))) := by
  intro before after pieces hothers hpieces
  have haccepted : ∀ packet ∈
      before ++ (VIDEO_FRAME_PACKET_TYPE :: forwardedFrame stream frame) :: after,
      packet ≠ [] ∧ packet.length ≤ Wire.NetClient.MAX_VIDEO_LENGTH := by
    intro packet hmem
    rcases List.mem_append.mp hmem with hb | hrest
    · exact (hothers packet (List.mem_append_left _ hb)).accepted
    · rcases List.mem_cons.mp hrest with rfl | ha
      · refine ⟨List.cons_ne_nil _ _, ?_⟩
        rw [List.length_cons, forwardedFrame, List.length_append, length_le]
        exact le_trans (by omega) (show VIDEO_FRAME_MAX_PAYLOAD_BYTES + 5 ≤ _ by decide)
      · exact (hothers packet (List.mem_append_right _ ha)).accepted
  have hbytes : pieces.flatten =
      (before ++ (VIDEO_FRAME_PACKET_TYPE :: forwardedFrame stream frame) :: after).flatMap
        encodePacket := by
    rw [hpieces, List.flatMap_append, List.flatMap_cons, List.append_assoc]
  have hframe : Client.onDataReceived viewer
      (VIDEO_FRAME_PACKET_TYPE :: forwardedFrame stream frame) = some (stream, frame) :=
    Client.onDataReceived_frame hother hheader
  have hpackets := VideoStream.process_encoded (by decide) haccepted hbytes
  rw [show pieces.foldl Wire.NetClient.processVideoStreamData {} =
      pieces.foldl (VideoStream.process Wire.NetClient.MAX_VIDEO_LENGTH) {} from rfl, hpackets,
    List.filterMap_append, List.filterMap_cons_some hframe]

theorem reachesViewer_frameStream {viewer : UserId} {stream : StreamId}
    (hother : videoStreamOwner stream ≠ viewer)
    (hheader : VIDEO_FRAME_HEADER_SIZE ≤ frame.length)
    (hfits : frame.length ≤ VIDEO_FRAME_MAX_PAYLOAD_BYTES) :
    ReachesViewer viewer stream frame
      (.frameStream (STREAM_TYPE_VIDEO_FRAME :: forwardedFrame stream frame)) := by
  intro pieces last rest hlast hrest hdata
  obtain ⟨halive, hframes⟩ :=
    (Client.VideoInCtx.reading_new stream).run hlast hrest hheader hfits hdata
  refine ⟨halive, ?_⟩
  have hroute : Client.routeVideoStreamFrame viewer (stream, frame) = some (stream, frame) :=
    if_neg hother
  rw [hframes, List.filterMap_cons_some hroute, List.filterMap_nil]

/-- The server forwards every frame its queue accepts. -/
theorem forward_not_tooLarge (stream : StreamId)
    (hfits : frame.length ≤ VIDEO_FRAME_MAX_PAYLOAD_BYTES) (frameStreams : Bool)
    (link : ViewerLink) :
    sendVideoFrameTo frameStreams link (forwardedFrame stream frame) ≠ .error .tooLarge := by
  have hlen : ¬ VIDEO_FRAME_MAX_BYTES < 1 + (forwardedFrame stream frame).length := by
    rw [forwardedFrame, List.length_append, length_le, Nat.not_lt]
    exact le_trans (by omega) (show VIDEO_FRAME_MAX_PAYLOAD_BYTES + 5 ≤ _ by decide)
  intro h
  rw [sendVideoFrameTo, if_neg hlen] at h
  repeat' split at h
  all_goals cases h

end

/-- A keyframe of a camera. -/
def cameraHeader : VideoFrameHeader where
  frameSeq := 9
  timestamp := 3000
  flags := VIDEO_FLAG_KEYFRAME
  width := 640
  height := 480
  codec := 1

def cameraBytes : Bytes := [0, 0, 0, 1, 0x65, 0x88]

end Parties

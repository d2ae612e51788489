import Parties.Lib.Machine
import Parties.Protocol
import Parties.Wire.VideoFraming

/-!
# A frame at its viewer

Mirror of `s_video_in_stream_cb` (`client/src/net_client_msquic.cpp`), which collects
a frame the server sends on a stream of its own, and of the branch of
`net_.on_data_received` (`client/src/app_core.cpp`) that takes one from stream 1.
-/

namespace Parties.Client

open ByteStream Parties.Video Parties.Wire

/-! ### The stream callback -/

def VIDEO_IN_PREFIX : Nat := 1 + 4

inductive FrameStreamEvent where
  | receive (data : Bytes) (fin : Bool)
  | peerSendShutdown
deriving DecidableEq, Repr

def FrameStreamEvent.data : FrameStreamEvent → Bytes
  | receive data _ => data
  | peerSendShutdown => []

inductive FrameStreamCallback where
  | header (sender : StreamId) (hdr : VideoFrameHeader)
  | frame (sender : StreamId) (frame : Bytes)
  | aborted (sender : StreamId) (frameSeq : BitVec 32) (haveHeader : Bool)
deriving DecidableEq, Repr

def FrameStreamCallback.frame? : FrameStreamCallback → Option (StreamId × Bytes)
  | frame sender data => some (sender, data)
  | _ => none

structure VideoInCtx where
  buf : Bytes := []
  haveSender : Bool := false
  haveHeader : Bool := false
  dead : Bool := false
  delivered : Bool := false
  sender : StreamId := 0
  frameSeq : BitVec 32 := 0
deriving DecidableEq, Repr

namespace VideoInCtx

/-- `video_in_reject`: the frame is reported as one that will never arrive. -/
def reject (c : VideoInCtx) : VideoInCtx × List FrameStreamCallback :=
  ({ c with delivered := true, dead := true, buf := [] },
    if c.delivered then [] else [.aborted c.sender c.frameSeq c.haveHeader])

/-- `video_in_complete`: the frame is handed up once. -/
def complete (c : VideoInCtx) : VideoInCtx × List FrameStreamCallback :=
  if c.dead || c.delivered then (c, [])
  else ({ c with delivered := true, buf := [] },
    if !c.haveHeader || decide (c.buf.length < VIDEO_IN_PREFIX + VIDEO_FRAME_HEADER_SIZE) then
      [.aborted c.sender c.frameSeq c.haveHeader]
    else [.frame c.sender (c.buf.drop VIDEO_IN_PREFIX)])

def wrongType (c : VideoInCtx) : Bool :=
  match c.buf with
  | [] => false
  | type :: _ => type ≠ STREAM_TYPE_VIDEO_FRAME

def readSender (c : VideoInCtx) : VideoInCtx :=
  if !c.haveSender && decide (VIDEO_IN_PREFIX ≤ c.buf.length) then
    { c with sender := BitVec.ofNat 32 (readLe ((c.buf.drop 1).take 4)), haveSender := true }
  else c

def readHeader (c : VideoInCtx) : VideoInCtx × List FrameStreamCallback :=
  if !c.haveHeader && decide (VIDEO_IN_PREFIX + VIDEO_FRAME_HEADER_SIZE ≤ c.buf.length) then
    match VideoFrameHeader.parse (c.buf.drop VIDEO_IN_PREFIX) with
    | some hdr => ({ c with frameSeq := hdr.frameSeq, haveHeader := true }, [.header c.sender hdr])
    | none => (c, [])
  else (c, [])

/-- The checks on what has been buffered. -/
def check (c : VideoInCtx) (fin : Bool) : VideoInCtx × List FrameStreamCallback :=
  if c.wrongType then c.reject
  else if VIDEO_IN_PREFIX + VIDEO_FRAME_MAX_PAYLOAD_BYTES < c.buf.length then c.reject
  else
    let read := c.readSender.readHeader
    if fin then (read.1.complete.1, read.2 ++ read.1.complete.2) else read

def step (c : VideoInCtx) : FrameStreamEvent → VideoInCtx × List FrameStreamCallback
  | .receive data fin => if c.dead then (c, []) else check { c with buf := c.buf ++ data } fin
  | .peerSendShutdown => c.complete

def run (c : VideoInCtx) (events : List FrameStreamEvent) :
    VideoInCtx × List FrameStreamCallback :=
  Machine.run (Machine.logged step) (c, []) events

/-- The frames among some callbacks. -/
def frames (callbacks : List FrameStreamCallback) : List (StreamId × Bytes) :=
  callbacks.filterMap FrameStreamCallback.frame?

theorem frames_append (xs ys : List FrameStreamCallback) :
    frames (xs ++ ys) = frames xs ++ frames ys := List.filterMap_append

theorem run_cons (c : VideoInCtx) (e : FrameStreamEvent) (events : List FrameStreamEvent) :
    c.run (e :: events) =
      (((c.step e).1.run events).1, (c.step e).2 ++ ((c.step e).1.run events).2) := by
  rw [run, Machine.run_cons, Machine.logged, Machine.run_logged]
  rfl

end VideoInCtx

/-! ### A frame as the server sends it -/

/-- `[STREAM_TYPE_VIDEO_FRAME][sender_id u32][frame]`. -/
def frameStreamData (stream : StreamId) (frame : Bytes) : Bytes :=
  STREAM_TYPE_VIDEO_FRAME :: (le 4 stream.toNat ++ frame)

theorem length_frameStreamData (stream : StreamId) (frame : Bytes) :
    (frameStreamData stream frame).length = VIDEO_IN_PREFIX + frame.length := by
  rw [frameStreamData, List.length_cons, List.length_append, length_le, VIDEO_IN_PREFIX]
  omega

theorem parse_of_length {bytes : Bytes} (h : VIDEO_FRAME_HEADER_SIZE ≤ bytes.length) :
    ∃ hdr, VideoFrameHeader.parse bytes = some hdr := by
  obtain ⟨head, rest, rfl, hlen⟩ : ∃ head rest, bytes = head ++ rest ∧ head.length = 14 :=
    ⟨bytes.take 14, bytes.drop 14, (List.take_append_drop ..).symm, List.length_take_of_le h⟩
  match head, hlen with
  | [_, _, _, _, _, _, _, _, _, _, _, _, _, _], _ => exact ⟨_, rfl⟩

namespace VideoInCtx

/-- What reached the viewer of the stream of a frame. -/
structure Reading (c : VideoInCtx) (stream : StreamId) (part : Bytes) : Prop where
  alive : c.dead = false
  undelivered : c.delivered = false
  buf : c.buf = part
  sender : VIDEO_IN_PREFIX ≤ part.length → c.haveSender = true ∧ c.sender = stream
  noSender : part.length < VIDEO_IN_PREFIX → c.haveSender = false
  header : VIDEO_IN_PREFIX + VIDEO_FRAME_HEADER_SIZE ≤ part.length → c.haveHeader = true

theorem reading_new (stream : StreamId) : Reading {} stream [] where
  alive := rfl
  undelivered := rfl
  buf := rfl
  sender h := absurd h (by decide)
  noSender _ := rfl
  header h := absurd h (by decide)

section

variable {c : VideoInCtx} {stream : StreamId} {frame old part : Bytes}

theorem step_receive (halive : c.dead = false) (data : Bytes) (fin : Bool) :
    c.step (.receive data fin) = check { c with buf := c.buf ++ data } fin := by
  apply if_neg
  rw [halive]
  decide

/-- Neither check turns down the beginning of a frame. -/
theorem check_sent (hbuf : c.buf = part) (hpart : part <+: frameStreamData stream frame)
    (hfits : frame.length ≤ VIDEO_FRAME_MAX_PAYLOAD_BYTES) (fin : Bool) :
    c.check fin = if fin then
      (c.readSender.readHeader.1.complete.1,
        c.readSender.readHeader.2 ++ c.readSender.readHeader.1.complete.2)
      else c.readSender.readHeader := by
  have htype : ¬ c.wrongType = true := by
    rw [wrongType, hbuf]
    cases part with
    | nil => decide
    | cons type rest =>
        obtain ⟨rfl, _⟩ := List.cons_prefix_cons.mp hpart
        exact Bool.false_ne_true
  have hlen := hpart.length_le
  rw [length_frameStreamData] at hlen
  rw [check, if_neg htype, if_neg (by rw [hbuf]; omega)]

theorem readHeader_frames (c : VideoInCtx) : frames c.readHeader.2 = [] := by
  rw [readHeader]
  split
  · split <;> rfl
  · rfl

/-- The sender is read once its bytes are there. -/
theorem Reading.readSender (h : c.Reading stream old) (hold : old <+: part)
    (hpart : part <+: frameStreamData stream frame) :
    let c' := ({ c with buf := part } : VideoInCtx).readSender
    c'.dead = false ∧ c'.delivered = false ∧ c'.buf = part ∧ c'.haveHeader = c.haveHeader ∧
      (VIDEO_IN_PREFIX ≤ part.length → c'.haveSender = true ∧ c'.sender = stream) ∧
      (part.length < VIDEO_IN_PREFIX → c'.haveSender = false) := by
  have hlen := hold.length_le
  by_cases hknown : VIDEO_IN_PREFIX ≤ old.length
  · obtain ⟨hhave, hsender⟩ := h.sender hknown
    have hskip : ¬ (!c.haveSender && decide (VIDEO_IN_PREFIX ≤ part.length)) = true := by
      rw [hhave, Bool.not_true, Bool.false_and]
      decide
    rw [VideoInCtx.readSender, if_neg hskip]
    exact ⟨h.alive, h.undelivered, rfl, rfl, fun _ => ⟨hhave, hsender⟩, fun hlt => by omega⟩
  · have hnone := h.noSender (Nat.not_le.mp hknown)
    by_cases hnow : VIDEO_IN_PREFIX ≤ part.length
    · have hread : (!c.haveSender && decide (VIDEO_IN_PREFIX ≤ part.length)) = true := by
        rw [hnone, decide_eq_true hnow]
        rfl
      have hsender : BitVec.ofNat 32 (readLe ((part.drop 1).take 4)) = stream := by
        obtain ⟨rest, hrest⟩ := hpart
        have hfive : 5 ≤ part.length := hnow
        have htake := congrArg (fun bytes => (bytes.drop 1).take 4) hrest
        rw [List.drop_append_of_le_length (by omega),
          List.take_append_of_le_length (by rw [List.length_drop]; omega), frameStreamData,
          List.drop_succ_cons, List.drop_zero, List.take_left' (length_le 4 _)] at htake
        rw [htake, readLe_le stream.isLt, BitVec.ofNat_toNat, BitVec.setWidth_eq]
      rw [VideoInCtx.readSender, if_pos hread]
      exact ⟨h.alive, h.undelivered, rfl, rfl, fun _ => ⟨rfl, hsender⟩, fun hlt => by omega⟩
    · have hskip : ¬ (!c.haveSender && decide (VIDEO_IN_PREFIX ≤ part.length)) = true := by
        rw [decide_eq_false hnow, Bool.and_false]
        decide
      rw [VideoInCtx.readSender, if_neg hskip]
      exact ⟨h.alive, h.undelivered, rfl, rfl, fun hle => absurd hle hnow, fun _ => hnone⟩

/-- Then the header, once it is there. -/
theorem Reading.readFields (h : c.Reading stream old) (hold : old <+: part)
    (hpart : part <+: frameStreamData stream frame) :
    ({ c with buf := part } : VideoInCtx).readSender.readHeader.1.Reading stream part := by
  obtain ⟨halive, hdel, hbuf, hheader, hsender, hnone⟩ := h.readSender hold hpart
  rw [VideoInCtx.readHeader]
  split
  next hread =>
    rw [Bool.and_eq_true, decide_eq_true_iff, hbuf] at hread
    obtain ⟨hdr, hparse⟩ : ∃ hdr, VideoFrameHeader.parse (part.drop VIDEO_IN_PREFIX) = some hdr := by
      apply parse_of_length
      rw [List.length_drop]
      omega
    rw [hbuf, hparse]
    exact ⟨halive, hdel, rfl, hsender, hnone, fun _ => rfl⟩
  next hskip =>
    refine ⟨halive, hdel, hbuf, hsender, hnone, ?_⟩
    intro hlong
    by_contra hno
    apply hskip
    rw [hbuf, decide_eq_true hlong, Bool.and_true, Bool.not_eq_true', ← Bool.not_eq_true]
    exact hno

/-- A piece of the stream. -/
theorem Reading.receive {data : Bytes} (h : c.Reading stream old)
    (hpart : old ++ data <+: frameStreamData stream frame)
    (hfits : frame.length ≤ VIDEO_FRAME_MAX_PAYLOAD_BYTES) :
    (c.step (.receive data false)).1.Reading stream (old ++ data) ∧
      frames (c.step (.receive data false)).2 = [] := by
  have hnext := h.readFields (List.prefix_append old data) hpart
  rw [step_receive h.alive, check_sent (congrArg (· ++ data) h.buf) hpart hfits, h.buf,
    if_neg (by decide)]
  exact ⟨hnext, readHeader_frames _⟩

/-- A complete frame is handed up. -/
theorem Reading.complete (h : c.Reading stream (frameStreamData stream frame))
    (hheader : VIDEO_FRAME_HEADER_SIZE ≤ frame.length) :
    c.complete = ({ c with delivered := true, buf := [] }, [.frame stream frame]) := by
  have hlen := length_frameStreamData stream frame
  have hopen : ¬ (c.dead || c.delivered) = true := by
    rw [h.alive, h.undelivered]
    decide
  have hwhole : ¬ (!c.haveHeader ||
      decide (c.buf.length < VIDEO_IN_PREFIX + VIDEO_FRAME_HEADER_SIZE)) = true := by
    rw [h.header (by omega), h.buf, hlen, Bool.not_true, Bool.false_or, decide_eq_true_iff]
    omega
  have hbody : c.buf.drop VIDEO_IN_PREFIX = frame := by
    rw [h.buf, frameStreamData, show VIDEO_IN_PREFIX = 4 + 1 from rfl, List.drop_succ_cons]
    exact List.drop_left' (length_le 4 _)
  rw [VideoInCtx.complete, if_neg hopen, if_neg hwhole, hbody, (h.sender (by omega)).2]

/-- The end of the stream, with its last bytes or behind them. -/
theorem Reading.close {last : FrameStreamEvent} (h : c.Reading stream old)
    (hlast : last = .peerSendShutdown ∨ ∃ data, last = .receive data true)
    (hdata : old ++ last.data = frameStreamData stream frame)
    (hheader : VIDEO_FRAME_HEADER_SIZE ≤ frame.length)
    (hfits : frame.length ≤ VIDEO_FRAME_MAX_PAYLOAD_BYTES) :
    (c.step last).1.delivered = true ∧ (c.step last).1.dead = false ∧
      frames (c.step last).2 = [(stream, frame)] := by
  rcases hlast with rfl | ⟨data, rfl⟩
  · rw [FrameStreamEvent.data, List.append_nil] at hdata
    rw [hdata] at h
    rw [step, h.complete hheader]
    exact ⟨rfl, h.alive, rfl⟩
  · have hpart : old ++ data <+: frameStreamData stream frame := by
      rw [← hdata]
      exact List.prefix_rfl
    have hread := h.readFields (List.prefix_append old data) hpart
    rw [show old ++ data = frameStreamData stream frame from hdata] at hread
    rw [step_receive h.alive, check_sent (congrArg (· ++ data) h.buf) hpart hfits, h.buf,
      if_pos rfl, show old ++ data = frameStreamData stream frame from hdata,
      hread.complete hheader]
    refine ⟨rfl, hread.alive, ?_⟩
    rw [frames_append, readHeader_frames]
    rfl

/-- What comes after the end changes nothing. -/
theorem run_delivered (hdel : c.delivered = true) {rest : List FrameStreamEvent}
    (hrest : ∀ e ∈ rest, e = .peerSendShutdown) : c.run rest = (c, []) := by
  induction rest with
  | nil => rfl
  | cons e rest ih =>
      have hskip : c.step e = (c, []) := by
        rw [hrest e List.mem_cons_self]
        apply if_pos
        rw [hdel, Bool.or_true]
      rw [run_cons, hskip, ih fun e' he' => hrest e' (List.mem_cons_of_mem _ he'), List.nil_append]

/-- A frame the server sends is handed up as it was sent, however its stream was cut. -/
theorem Reading.run {last : FrameStreamEvent} {rest : List FrameStreamEvent}
    (hlast : last = .peerSendShutdown ∨ ∃ data, last = .receive data true)
    (hrest : ∀ e ∈ rest, e = .peerSendShutdown)
    (hheader : VIDEO_FRAME_HEADER_SIZE ≤ frame.length)
    (hfits : frame.length ≤ VIDEO_FRAME_MAX_PAYLOAD_BYTES) {pieces : List Bytes}
    (h : c.Reading stream old)
    (hdata : old ++ (pieces.flatten ++ last.data) = frameStreamData stream frame) :
    (c.run (pieces.map (.receive · false) ++ last :: rest)).1.dead = false ∧
      frames (c.run (pieces.map (.receive · false) ++ last :: rest)).2 = [(stream, frame)] := by
  induction pieces generalizing c old with
  | nil =>
      obtain ⟨hdel, halive, hframes⟩ := h.close hlast hdata hheader hfits
      rw [List.map_nil, List.nil_append, run_cons, run_delivered hdel hrest, List.append_nil]
      exact ⟨halive, hframes⟩
  | cons piece pieces ih =>
      rw [List.flatten_cons, List.append_assoc, ← List.append_assoc] at hdata
      obtain ⟨hnext, hnone⟩ := h.receive ⟨_, hdata⟩ hfits
      rw [List.map_cons, List.cons_append, run_cons, frames_append, hnone, List.nil_append]
      exact ih hnext hdata

end

end VideoInCtx

/-! ### Stream 1 -/

/-- The frame `on_data_received` takes from a packet, and whose stream it is of. The
    viewer's own frames are passed over. -/
def onDataReceived (userId : UserId) (data : Bytes) : Option (StreamId × Bytes) :=
  match data with
  | [] => none
  | type :: rest =>
    if type = VIDEO_FRAME_PACKET_TYPE then
      if data.length < 19 then none
      else
        let sender := BitVec.ofNat 32 (readLe (rest.take 4))
        if videoStreamOwner sender = userId then none else some (sender, rest.drop 4)
    else none

/-- `route_video_stream_frame`, for a frame that came on its own stream. -/
def routeVideoStreamFrame (userId : UserId) (received : StreamId × Bytes) :
    Option (StreamId × Bytes) :=
  if videoStreamOwner received.1 = userId then none else some received

theorem onDataReceived_frame {userId : UserId} {stream : StreamId} {frame : Bytes}
    (hother : videoStreamOwner stream ≠ userId)
    (hheader : VIDEO_FRAME_HEADER_SIZE ≤ frame.length) :
    onDataReceived userId (VIDEO_FRAME_PACKET_TYPE :: (le 4 stream.toNat ++ frame)) =
      some (stream, frame) := by
  have hlen : ¬ (VIDEO_FRAME_PACKET_TYPE :: (le 4 stream.toNat ++ frame)).length < 19 := by
    rw [List.length_cons, List.length_append, length_le]
    have h14 : 14 ≤ frame.length := hheader
    omega
  have hsender : BitVec.ofNat 32 (readLe ((le 4 stream.toNat ++ frame).take 4)) = stream := by
    rw [List.take_left' (length_le 4 _), readLe_le stream.isLt, BitVec.ofNat_toNat,
      BitVec.setWidth_eq]
  rw [onDataReceived, if_pos rfl, if_neg hlen]
  simp only [hsender, if_neg hother, List.drop_left' (length_le 4 stream.toNat)]

end Parties.Client

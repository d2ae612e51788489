import Parties.Client.VideoSend
import Parties.Lib.Machine
import Parties.Server.State

/-!
# A frame on its own stream, at the server

Mirror of `QuicServer::video_in_stream_callback` (`server/src/quic_server.cpp`): the
bytes of one stream are collected until it ends. What is not a video frame, or not of
a source the session publishes, or too much, is given up as early as it shows.
-/

namespace Parties

open Parties.Video Parties.Wire

/-- Why the server gave up on a stream. -/
inductive IngressRefusal where
  /-- The unfinished streams of the session hold too much. -/
  | bufferCap
  | notPublishing
  | notVideo
  | oversize
deriving DecidableEq, Repr

/-- A `RECEIVE` event, with what it finds at the session: the bytes its other streams
    hold and the sources it may publish. -/
structure IngressReceive where
  otherBuffered : Int
  allowed : VideoSource → Bool
  data : Bytes
  fin : Bool := false

/-- What the callback tells the server loop. -/
inductive IngressCallback where
  | frameStarted (source : VideoSource) (hdr : VideoFrameHeader)
  | frameAborted (source : VideoSource) (frameSeq : BitVec 32) (haveHeader : Bool)
  | frame (source : VideoSource) (data : Bytes)
deriving DecidableEq, Repr

def IngressCallback.frame? : IngressCallback → Option (VideoSource × Bytes)
  | frame source data => some (source, data)
  | _ => none

/-- `VideoInStreamContext`. -/
structure VideoInStream where
  buf : Bytes := []
  charged : Int := 0
  /-- Aborted, and why. -/
  dead : Option IngressRefusal := none
  prefixLen : Nat := 0
  source : VideoSource := .screen
  haveHeader : Bool := false
  frameSeq : BitVec 32 := 0
  finished : Bool := false
deriving DecidableEq, Repr

def videoSourceOfByte (byte : UInt8) : Option VideoSource :=
  if byte = 0 then some .screen else if byte = 1 then some .camera else none

/-- `parse_video_ingress_prefix`: `none` while more bytes are needed. -/
def parseVideoIngressPrefix (allowed : VideoSource → Bool) :
    Bytes → Except IngressRefusal (Option (Nat × VideoSource))
  | [] => .ok none
  | type :: rest =>
    if type = STREAM_TYPE_VIDEO_FRAME then
      if allowed .screen then .ok (some (1, .screen)) else .error .notPublishing
    else if type = STREAM_TYPE_VIDEO_SOURCE_FRAME then
      match rest with
      | [] => .ok none
      | byte :: _ =>
        match videoSourceOfByte byte with
        | none => .error .notVideo
        | some source =>
          if allowed source then .ok (some (2, source)) else .error .notPublishing
    else .error .notVideo

namespace VideoInStream

def reportLost (c : VideoInStream) : VideoInStream × List IngressCallback :=
  if c.finished || c.prefixLen = 0 then (c, [])
  else ({ c with finished := true }, [.frameAborted c.source c.frameSeq c.haveHeader])

def abort (c : VideoInStream) (why : IngressRefusal) : VideoInStream × List IngressCallback :=
  ({ c.reportLost.1 with dead := some why, buf := [], charged := 0 }, c.reportLost.2)

def readPrefix (c : VideoInStream) (allowed : VideoSource → Bool) :
    Except IngressRefusal VideoInStream :=
  if c.prefixLen ≠ 0 then .ok c
  else
    match parseVideoIngressPrefix allowed c.buf with
    | .error why => .error why
    | .ok none => .ok c
    | .ok (some (prefixLen, source)) => .ok { c with prefixLen, source }

def readHeader (c : VideoInStream) : VideoInStream × List IngressCallback :=
  if c.prefixLen ≠ 0 && !c.haveHeader &&
      decide (c.prefixLen + VIDEO_FRAME_HEADER_SIZE ≤ c.buf.length) then
    match VideoFrameHeader.parse (c.buf.drop c.prefixLen) with
    | some hdr =>
      ({ c with haveHeader := true, frameSeq := hdr.frameSeq }, [.frameStarted c.source hdr])
    | none => (c, [])
  else (c, [])

def tooLong (c : VideoInStream) : Bool :=
  decide ((if c.prefixLen = 0 then 2 else c.prefixLen) + VIDEO_FRAME_MAX_PAYLOAD_BYTES <
    c.buf.length)

/-- The stream ended. The frame is handed on, or what there is of it is lost. -/
def complete (c : VideoInStream) : VideoInStream × List IngressCallback :=
  if c.prefixLen ≠ 0 && decide (c.prefixLen + VIDEO_FRAME_HEADER_SIZE ≤ c.buf.length) then
    ({ c with finished := true, buf := [], charged := 0 },
      [.frame c.source (c.buf.drop c.prefixLen)])
  else ({ c.reportLost.1 with buf := [], charged := 0 }, c.reportLost.2)

/-- The checks on what has been buffered. -/
def check (c : VideoInStream) (fin : Bool) : VideoInStream × List IngressCallback :=
  let started := c.readHeader
  if started.1.tooLong then
    ((started.1.abort .oversize).1, started.2 ++ (started.1.abort .oversize).2)
  else if fin then (started.1.complete.1, started.2 ++ started.1.complete.2)
  else started

def receive (c : VideoInStream) (e : IngressReceive) : VideoInStream × List IngressCallback :=
  if c.dead.isSome then (c, [])
  else
    let charged := { c with charged := c.charged + e.data.length }
    if VIDEO_INGRESS_MAX_BUFFERED_BYTES < e.otherBuffered + charged.charged then
      charged.abort .bufferCap
    else
      let buffered := { charged with buf := c.buf ++ e.data }
      match buffered.readPrefix e.allowed with
      | .error why => buffered.abort why
      | .ok c => c.check e.fin

end VideoInStream

/-! ### A frame as its publisher sends it -/

/-- What reached the server of a stream that began with `prefix_len` bytes of prefix. -/
structure VideoInStream.Reading (c : VideoInStream) (source : VideoSource) (part : Bytes) :
    Prop where
  alive : c.dead = none
  unfinished : c.finished = false
  buf : c.buf = part
  charged : c.charged = part.length
  /-- The prefix is read as soon as it is there. -/
  prefixLen : c.prefixLen =
    if Client.NetClient.frameStreamPrefixBytes source ≤ part.length then
      Client.NetClient.frameStreamPrefixBytes source
    else 0
  source : c.prefixLen ≠ 0 → c.source = source

/-- The server gave up for what the session does beside this frame: its other streams have used up
the bytes it may have waiting, or the source was stopped. How many bytes those streams hold is left
open here, so a frame may be given up at any time; `IngressStreams` has all streams of a session with
their one counter. -/
def VideoInStream.GivenUp (c : VideoInStream) : Prop :=
  c.dead = some .bufferCap ∨ c.dead = some .notPublishing

/-- The beginning of a publisher's stream, as the server parses its prefix. -/
theorem parseVideoIngressPrefix_sent {source : VideoSource} {frame part : Bytes}
    (allowed : VideoSource → Bool)
    (hpart : part <+: Client.NetClient.frameStreamPrefix source ++ frame) :
    parseVideoIngressPrefix allowed part = .error .notPublishing ∨
      parseVideoIngressPrefix allowed part = .ok
        (if Client.NetClient.frameStreamPrefixBytes source ≤ part.length then
          some (Client.NetClient.frameStreamPrefixBytes source, source)
        else none) := by
  cases source with
  | screen =>
      cases part with
      | nil => exact Or.inr rfl
      | cons type rest =>
          obtain ⟨rfl, _⟩ := List.cons_prefix_cons.mp hpart
          cases hallowed : allowed .screen with
          | false => exact Or.inl (by simp [parseVideoIngressPrefix, hallowed])
          | true =>
              right
              simp [parseVideoIngressPrefix, hallowed, Client.NetClient.frameStreamPrefixBytes]
  | camera =>
      have hne : STREAM_TYPE_VIDEO_SOURCE_FRAME ≠ STREAM_TYPE_VIDEO_FRAME := by decide
      cases part with
      | nil => exact Or.inr rfl
      | cons type rest =>
          obtain ⟨rfl, hrest⟩ := List.cons_prefix_cons.mp hpart
          cases rest with
          | nil =>
              right
              simp [parseVideoIngressPrefix, hne, Client.NetClient.frameStreamPrefixBytes]
          | cons byte rest =>
              obtain ⟨rfl, _⟩ := List.cons_prefix_cons.mp hrest
              have hbyte : videoSourceOfByte 1 = some .camera := rfl
              cases hallowed : allowed .camera with
              | false => exact Or.inl (by simp [parseVideoIngressPrefix, hne, hbyte, hallowed])
              | true =>
                  right
                  simp [parseVideoIngressPrefix, hne, hbyte, hallowed,
                    Client.NetClient.frameStreamPrefixBytes]

namespace VideoInStream

theorem frameStreamPrefixBytes_pos (source : VideoSource) :
    0 < Client.NetClient.frameStreamPrefixBytes source := by
  cases source <;> decide

/-- Looking for the header changes nothing else and hands no frame on. -/
theorem readHeader_spec (c : VideoInStream) :
    ∃ haveHeader frameSeq, c.readHeader.1 = { c with haveHeader, frameSeq } ∧
      c.readHeader.2.filterMap IngressCallback.frame? = [] := by
  rw [readHeader]
  split
  · split
    · exact ⟨_, _, rfl, rfl⟩
    · exact ⟨_, _, rfl, rfl⟩
  · exact ⟨_, _, rfl, rfl⟩

theorem Reading.readHeader {c : VideoInStream} {source : VideoSource} {part : Bytes}
    (h : c.Reading source part) : c.readHeader.1.Reading source part := by
  obtain ⟨haveHeader, frameSeq, heq, _⟩ := c.readHeader_spec
  rw [heq]
  exact ⟨h.alive, h.unfinished, h.buf, h.charged, h.prefixLen, h.source⟩

/-- A frame that may be sent is not too long for the server, at no point of it. -/
theorem Reading.not_tooLong {c : VideoInStream} {source : VideoSource} {part frame : Bytes}
    (h : c.Reading source part)
    (hpart : part <+: Client.NetClient.frameStreamPrefix source ++ frame)
    (hfits : frame.length ≤ VIDEO_FRAME_MAX_PAYLOAD_BYTES) : c.tooLong = false := by
  have hlen := hpart.length_le
  have hpre := Client.frameStreamPrefixBytes_le source
  rw [List.length_append, Client.length_frameStreamPrefix] at hlen
  rw [tooLong, h.buf, h.prefixLen]
  apply decide_eq_false
  split <;> split <;> omega

/-- The prefix of a publisher's stream: refused for the source, or read. -/
theorem readPrefix_sent {c : VideoInStream} {source : VideoSource} {old part frame : Bytes}
    (allowed : VideoSource → Bool) (h : c.Reading source old) (hold : old <+: part)
    (hpart : part <+: Client.NetClient.frameStreamPrefix source ++ frame) (charged : Int)
    (hcharged : charged = part.length) :
    readPrefix { c with charged, buf := part } allowed = .error .notPublishing ∨
      ∃ c', readPrefix { c with charged, buf := part } allowed = .ok c' ∧
        c'.Reading source part := by
  have hpos := frameStreamPrefixBytes_pos source
  have hlen := hold.length_le
  by_cases hread : c.prefixLen ≠ 0
  · -- the prefix was read before
    have hold : Client.NetClient.frameStreamPrefixBytes source ≤ old.length := by
      by_contra hlt
      exact hread (by rw [h.prefixLen, if_neg hlt])
    right
    refine ⟨_, if_pos hread, h.alive, h.unfinished, rfl, hcharged, ?_, h.source⟩
    rw [if_pos (hold.trans hlen)]
    exact (h.prefixLen.trans (if_pos hold))
  · have hzero : c.prefixLen = 0 := not_not.mp hread
    rw [readPrefix, if_neg (not_not.mpr hzero)]
    rcases parseVideoIngressPrefix_sent allowed hpart with hparse | hparse
    · left
      rw [hparse]
    · right
      rw [hparse]
      by_cases hshort : Client.NetClient.frameStreamPrefixBytes source ≤ part.length
      · rw [if_pos hshort]
        exact ⟨_, rfl, h.alive, h.unfinished, rfl, hcharged, (if_pos hshort).symm, fun _ => rfl⟩
      · rw [if_neg hshort]
        refine ⟨_, rfl, h.alive, h.unfinished, rfl, hcharged, ?_, h.source⟩
        rw [if_neg hshort]
        exact hzero

/-! ### One event -/

/-- The frames among some callbacks. -/
def frames (callbacks : List IngressCallback) : List (VideoSource × Bytes) :=
  callbacks.filterMap IngressCallback.frame?

theorem frames_append (xs ys : List IngressCallback) : frames (xs ++ ys) = frames xs ++ frames ys :=
  List.filterMap_append

theorem frames_abort (c : VideoInStream) (why : IngressRefusal) : frames (c.abort why).2 = [] := by
  rw [abort, reportLost]
  split <;> rfl

/-- An event is refused for what the session does beside the frame, or the bytes are
    buffered and checked. -/
theorem Reading.receive_cases {c : VideoInStream} {source : VideoSource} {old frame : Bytes}
    {e : IngressReceive} (h : c.Reading source old)
    (hpart : old ++ e.data <+: Client.NetClient.frameStreamPrefix source ++ frame) :
    (c.receive e).1.GivenUp ∧ frames (c.receive e).2 = [] ∨
      ∃ c' : VideoInStream, c'.Reading source (old ++ e.data) ∧ c.receive e = c'.check e.fin := by
  have halive : ¬ c.dead.isSome = true := by
    rw [h.alive]
    decide
  have hcharged : c.charged + (e.data.length : Int) = ((old ++ e.data).length : Nat) := by
    rw [h.charged, List.length_append]
    exact (Int.natCast_add ..).symm
  rw [receive, if_neg halive]
  simp only
  split
  · left
    exact ⟨Or.inl rfl, frames_abort _ _⟩
  · rw [h.buf]
    rcases readPrefix_sent e.allowed h (List.prefix_append old e.data) hpart _ hcharged
      with hrefused | ⟨c', hread, hreading⟩
    · left
      rw [hrefused]
      exact ⟨Or.inr rfl, frames_abort _ _⟩
    · right
      rw [hread]
      exact ⟨c', hreading, rfl⟩

/-- Until the stream ends the server only collects. -/
theorem Reading.check {c : VideoInStream} {source : VideoSource} {part frame : Bytes}
    (h : c.Reading source part)
    (hpart : part <+: Client.NetClient.frameStreamPrefix source ++ frame)
    (hfits : frame.length ≤ VIDEO_FRAME_MAX_PAYLOAD_BYTES) :
    (c.check false).1.Reading source part ∧ frames (c.check false).2 = [] := by
  obtain ⟨haveHeader, frameSeq, _, hcallbacks⟩ := c.readHeader_spec
  have hlong := h.readHeader.not_tooLong hpart hfits
  simp only [VideoInStream.check, hlong]
  exact ⟨h.readHeader, hcallbacks⟩

/-- When it ends, the frame is handed on. -/
theorem Reading.check_fin {c : VideoInStream} {source : VideoSource} {frame : Bytes}
    (h : c.Reading source (Client.NetClient.frameStreamPrefix source ++ frame))
    (hheader : VIDEO_FRAME_HEADER_SIZE ≤ frame.length)
    (hfits : frame.length ≤ VIDEO_FRAME_MAX_PAYLOAD_BYTES) :
    (c.check true).1.dead = none ∧ frames (c.check true).2 = [(source, frame)] := by
  obtain ⟨haveHeader, frameSeq, _, hcallbacks⟩ := c.readHeader_spec
  have hread := h.readHeader
  have hlong := hread.not_tooLong List.prefix_rfl hfits
  have hpos := frameStreamPrefixBytes_pos source
  have hlen : (Client.NetClient.frameStreamPrefix source ++ frame).length =
      Client.NetClient.frameStreamPrefixBytes source + frame.length := by
    rw [List.length_append, Client.length_frameStreamPrefix]
  have hpre : c.readHeader.1.prefixLen = Client.NetClient.frameStreamPrefixBytes source := by
    rw [hread.prefixLen, if_pos (by omega)]
  have hsource : c.readHeader.1.source = source := hread.source (by omega)
  have hwhole : (c.readHeader.1.prefixLen ≠ 0 && decide (c.readHeader.1.prefixLen +
      VIDEO_FRAME_HEADER_SIZE ≤ c.readHeader.1.buf.length)) = true := by
    rw [hread.buf, hpre, hlen, Bool.and_eq_true, decide_eq_true_iff, decide_eq_true_iff]
    omega
  have hbody : c.readHeader.1.buf.drop c.readHeader.1.prefixLen = frame := by
    rw [hread.buf, hpre]
    exact List.drop_left' (Client.length_frameStreamPrefix source)
  have hdone : c.check true = (c.readHeader.1.complete.1,
      c.readHeader.2 ++ c.readHeader.1.complete.2) := by
    rw [VideoInStream.check, hlong]
    rfl
  have hcomplete : c.readHeader.1.complete =
      ({ c.readHeader.1 with finished := true, buf := [], charged := 0 },
        [.frame source frame]) := by
    rw [complete, if_pos hwhole, hbody]
    simp only [hsource]
  rw [hdone, hcomplete]
  refine ⟨hread.alive, ?_⟩
  rw [frames_append, show frames c.readHeader.2 = [] from hcallbacks]
  rfl

theorem receive_dead {c : VideoInStream} (h : c.GivenUp) (e : IngressReceive) :
    c.receive e = (c, []) := by
  apply if_pos
  rcases h with hdead | hdead <;> rw [hdead] <;> rfl

/-! ### The whole stream -/

def run (c : VideoInStream) (events : List IngressReceive) :
    VideoInStream × List IngressCallback :=
  Machine.run (Machine.logged receive) (c, []) events

theorem run_cons (c : VideoInStream) (e : IngressReceive) (events : List IngressReceive) :
    c.run (e :: events) =
      (((c.receive e).1.run events).1, (c.receive e).2 ++ ((c.receive e).1.run events).2) := by
  rw [run, Machine.run_cons, Machine.logged, Machine.run_logged]
  rfl

theorem run_singleton (c : VideoInStream) (e : IngressReceive) : c.run [e] = c.receive e := by
  rw [run_cons]
  exact Prod.ext rfl (List.append_nil _)

theorem run_dead {c : VideoInStream} (h : c.GivenUp) (events : List IngressReceive) :
    c.run events = (c, []) := by
  induction events with
  | nil => rfl
  | cons e events ih => rw [run_cons, receive_dead h e, ih, List.nil_append]

/-- A frame its publisher may send is handed on as it was sent, unless the server gives up
    on its stream for what the session does beside it. -/
theorem Reading.run {source : VideoSource} {frame : Bytes}
    (hheader : VIDEO_FRAME_HEADER_SIZE ≤ frame.length)
    (hfits : frame.length ≤ VIDEO_FRAME_MAX_PAYLOAD_BYTES) {last : IngressReceive}
    (hlast : last.fin = true) {events : List IngressReceive}
    (hopen : ∀ e ∈ events, e.fin = false) {c : VideoInStream} {old : Bytes}
    (h : c.Reading source old)
    (hdata : old ++ (events.flatMap IngressReceive.data ++ last.data) =
      Client.NetClient.frameStreamPrefix source ++ frame) :
    (c.run (events ++ [last])).1.GivenUp ∨
      (c.run (events ++ [last])).1.dead = none ∧
        frames (c.run (events ++ [last])).2 = [(source, frame)] := by
  induction events generalizing c old with
  | nil =>
      rw [List.nil_append, run_singleton]
      rw [List.flatMap_nil, List.nil_append] at hdata
      have hpart : old ++ last.data <+: Client.NetClient.frameStreamPrefix source ++ frame := by
        rw [hdata]
      rcases h.receive_cases hpart with ⟨hdead, _⟩ | ⟨c', hreading, heq⟩
      · exact Or.inl hdead
      · right
        rw [hdata] at hreading
        rw [heq, hlast]
        exact hreading.check_fin hheader hfits
  | cons e events ih =>
      rw [List.flatMap_cons, List.append_assoc, ← List.append_assoc] at hdata
      have hpart : old ++ e.data <+: Client.NetClient.frameStreamPrefix source ++ frame :=
        ⟨_, hdata⟩
      rw [List.cons_append, run_cons]
      rcases h.receive_cases hpart with ⟨hdead, _⟩ | ⟨c', hreading, heq⟩
      · left
        rw [run_dead hdead]
        exact hdead
      · rw [heq, hopen e List.mem_cons_self]
        obtain ⟨hnext, hnone⟩ := hreading.check hpart hfits
        rcases ih (fun e' he' => hopen e' (List.mem_cons_of_mem _ he')) hnext hdata with
          hdead | ⟨halive, hframes⟩
        · exact Or.inl hdead
        · right
          refine ⟨halive, ?_⟩
          rw [frames_append, hnone, hframes]
          rfl

theorem reading_new (source : VideoSource) : Reading {} source [] where
  alive := rfl
  unfinished := rfl
  buf := rfl
  charged := rfl
  prefixLen := by cases source <;> rfl
  source hne := absurd rfl hne

end VideoInStream

end Parties

import Parties.Server.FrameIngress
import Parties.Server.PendingBytes

/-!
# The ingress streams of a session

`QuicServer::video_in_stream_callback` with the counter its streams share,
`Session::video_in_buffered_bytes`, beside the server that takes what they report. The
transport runs the callbacks of one connection one after the other, for its streams in any
order; it hands out no bytes after the end of a stream, and nothing after its shutdown.
Inside a callback the counter may be over the cap, between the charge and the check; nobody
else reads it there, and a state is one between two callbacks.
-/

namespace Parties

open Parties.Video

/-! ### A stream and the counter of its session -/

/-- The frame of a stream arrived, or it never will. -/
def IngressCallback.isReport : IngressCallback → Bool
  | frame .. | frameAborted .. => true
  | frameStarted .. => false

namespace VideoInStream

/-- What `uncharge` leaves in the counter. -/
def uncharge (c : VideoInStream) (buffered : Int) : Int :=
  if c.charged ≠ 0 then buffered - c.charged else buffered

/-- `abort`, of a stream that is not dead yet. -/
def giveUp (c : VideoInStream) (why : IngressRefusal) (buffered : Int) :
    VideoInStream × Int × List IngressCallback :=
  ((c.abort why).1, c.uncharge buffered, (c.abort why).2)

/-- The checks on what has been buffered. -/
def checkCounted (c : VideoInStream) (fin : Bool) (buffered : Int) :
    VideoInStream × Int × List IngressCallback :=
  let started := c.readHeader
  if started.1.tooLong then
    let out := started.1.giveUp .oversize buffered
    (out.1, out.2.1, started.2 ++ out.2.2)
  else if fin then
    (started.1.complete.1, started.1.uncharge buffered, started.2 ++ started.1.complete.2)
  else (started.1, buffered, started.2)

/-- A `RECEIVE` event, with the counter of the session. -/
def receiveCounted (c : VideoInStream) (allowed : VideoSource → Bool) (data : Bytes) (fin : Bool)
    (buffered : Int) : VideoInStream × Int × List IngressCallback :=
  if c.dead.isSome then (c, buffered, [])
  else
    let charged := { c with charged := c.charged + data.length }
    let buffered := buffered + data.length
    if VIDEO_INGRESS_MAX_BUFFERED_BYTES < buffered then charged.giveUp .bufferCap buffered
    else
      let full := { charged with buf := c.buf ++ data }
      match full.readPrefix allowed with
      | .error why => full.giveUp why buffered
      | .ok c => c.checkCounted fin buffered

end VideoInStream

structure IngressStream where
  session : SessionId
  ctx : VideoInStream := {}
  /-- The sharer aborted the stream, before the server did. -/
  peerAborted : Bool := false
  /-- A `RECEIVE` event brought the end. -/
  finReceived : Bool := false
  closed : Bool := false
  /-- What it has told the server. -/
  callbacks : List IngressCallback := []
deriving DecidableEq, Repr

namespace IngressStream

def dead (stream : IngressStream) : Bool := stream.ctx.dead.isSome || stream.peerAborted

def receive (stream : IngressStream) (allowed : VideoSource → Bool) (data : Bytes) (fin : Bool)
    (buffered : Int) : IngressStream × Int × List IngressCallback :=
  if stream.dead then ({ stream with finReceived := fin }, buffered, [])
  else
    let out := stream.ctx.receiveCounted allowed data fin buffered
    ({ stream with ctx := out.1, finReceived := fin, callbacks := stream.callbacks ++ out.2.2 },
      out.2.1, out.2.2)

def peerSendAborted (stream : IngressStream) (buffered : Int) :
    IngressStream × Int × List IngressCallback :=
  if stream.dead then (stream, buffered, [])
  else
    let lost := stream.ctx.reportLost
    ({ stream with
        ctx := { lost.1 with buf := [], charged := 0 }
        peerAborted := true
        callbacks := stream.callbacks ++ lost.2 },
      stream.ctx.uncharge buffered, lost.2)

def shutdownComplete (stream : IngressStream) (buffered : Int) :
    IngressStream × Int × List IngressCallback :=
  ({ stream with ctx := { stream.ctx with charged := 0 }, closed := true },
    stream.ctx.uncharge buffered, [])

/-- What the stream has told the server of the fate of its frame. -/
def reports (stream : IngressStream) : List IngressCallback :=
  stream.callbacks.filter IngressCallback.isReport

/-- It ended: with all its bytes, or because either side gave it up. -/
def ended (stream : IngressStream) : Bool := stream.finReceived || stream.dead

/-- The bytes of an open stream that are in the counter of a session. -/
def chargedTo (sid : SessionId) (stream : IngressStream) : Int :=
  if stream.session = sid ∧ stream.closed = false then stream.ctx.charged else 0

end IngressStream

/-! ### The streams and the server -/

def Session.anyVideoIngressAllowed (session : Session) : Bool :=
  session.videoIngressAllowed .screen || session.videoIngressAllowed .camera

/-- The callbacks of `Server` for what a stream reports; `share` names the share of a frame. -/
def Server.onIngressCallback (s : Server) (sid : SessionId) (share : Nat) :
    IngressCallback → Server
  | .frameStarted source hdr => s.step (.videoFrameStarted sid source hdr)
  | .frameAborted source frameSeq haveHeader =>
    s.step (.videoFrameAborted sid source (if haveHeader then some frameSeq else none))
  | .frame source data => s.step (.videoFrame sid source { share, bytes := data })

structure IngressServer where
  server : Server
  videoInBufferedBytes : SessionId → Int := fun _ => 0
  streams : List IngressStream := []

inductive IngressOp where
  /-- Any other step of the server, frames of stream 1 included. -/
  | server (op : ServerOp)
  | peerStreamStarted (sid : SessionId)
  | receive (i : Nat) (share : Nat) (data : Bytes) (fin : Bool)
  | peerSendAborted (i : Nat)
  | shutdownComplete (i : Nat)

namespace IngressServer

/-- Put a stream back after an event, and tell the server. -/
def put (s : IngressServer) (i : Nat) (share : Nat) (stream : IngressStream)
    (out : IngressStream × Int × List IngressCallback) : IngressServer where
  server := out.2.2.foldl (fun server callback =>
    server.onIngressCallback stream.session share callback) s.server
  videoInBufferedBytes := Function.update s.videoInBufferedBytes stream.session out.2.1
  streams := s.streams.set i out.1

/-- An event of a stream that has not shut down. -/
def withStream (s : IngressServer) (i : Nat) (f : IngressStream → IngressServer) : IngressServer :=
  match s.streams[i]? with
  | some stream => if stream.closed then s else f stream
  | none => s

def step (s : IngressServer) : IngressOp → IngressServer
  | .server op => { s with server := s.server.step op }
  | .peerStreamStarted sid =>
    match s.server.getSession sid with
    | none => s
    | some session =>
      if session.anyVideoIngressAllowed && session.authenticated then
        { s with streams := s.streams ++ [{ session := sid }] }
      else s
  | .receive i share data fin => s.withStream i fun stream =>
    if stream.finReceived then s
    else
      s.put i share stream (stream.receive (s.server.sessions stream.session).videoIngressAllowed
        data fin (s.videoInBufferedBytes stream.session))
  | .peerSendAborted i => s.withStream i fun stream =>
    s.put i 0 stream (stream.peerSendAborted (s.videoInBufferedBytes stream.session))
  | .shutdownComplete i => s.withStream i fun stream =>
    s.put i 0 stream (stream.shutdownComplete (s.videoInBufferedBytes stream.session))

def run (config : Config) (env : Environment) (ops : List IngressOp) : IngressServer :=
  Machine.run step { server := Server.new config env } ops

end IngressServer

/-! ### One event of a stream -/

namespace VideoInStream

variable {c : VideoInStream}

theorem uncharge_eq (c : VideoInStream) (buffered : Int) :
    c.uncharge buffered = buffered - c.charged := by
  rw [uncharge]
  split
  · rfl
  · omega

theorem charged_readPrefix {allowed : VideoSource → Bool} {c' : VideoInStream}
    (h : c.readPrefix allowed = .ok c') :
    c'.charged = c.charged ∧ c'.buf = c.buf ∧ c'.dead = c.dead ∧ c'.finished = c.finished := by
  rw [readPrefix] at h
  split at h
  · cases h
    exact ⟨rfl, rfl, rfl, rfl⟩
  · split at h
    · cases h
    · cases h
      exact ⟨rfl, rfl, rfl, rfl⟩
    · cases h
      exact ⟨rfl, rfl, rfl, rfl⟩

theorem charged_complete (c : VideoInStream) : c.complete.1.charged = 0 := by
  rw [complete]
  split <;> rfl

theorem charged_readHeader (c : VideoInStream) : c.readHeader.1.charged = c.charged := by
  obtain ⟨haveHeader, frameSeq, hheader, _⟩ := c.readHeader_spec
  rw [hheader]

theorem giveUp_eq (c : VideoInStream) (why : IngressRefusal) (buffered : Int) :
    c.giveUp why buffered =
      ((c.abort why).1, buffered + ((c.abort why).1.charged - c.charged), (c.abort why).2) := by
  have hnone : (c.abort why).1.charged = 0 := rfl
  rw [giveUp, uncharge_eq, hnone, zero_sub, sub_eq_add_neg]

theorem checkCounted_eq (c : VideoInStream) (fin : Bool) (buffered : Int) :
    c.checkCounted fin buffered =
      ((c.check fin).1, buffered + ((c.check fin).1.charged - c.charged), (c.check fin).2) := by
  simp only [checkCounted, check, giveUp_eq, uncharge_eq, charged_readHeader]
  split
  · rfl
  · split
    · rw [charged_complete, zero_sub, sub_eq_add_neg]
    · rw [charged_readHeader, sub_self, add_zero]

/-- After the prefix: the stream is given up, or what it holds is checked. -/
theorem afterPrefix_eq (c : VideoInStream) (fin : Bool) (buffered : Int)
    (read : Except IngressRefusal VideoInStream)
    (hread : ∀ c', read = .ok c' → c'.charged = c.charged) :
    (match read with
      | .error why => c.giveUp why buffered
      | .ok c' => c'.checkCounted fin buffered) =
    let out := match read with
      | .error why => c.abort why
      | .ok c' => c'.check fin
    (out.1, buffered + (out.1.charged - c.charged), out.2) := by
  cases read with
  | error why => exact giveUp_eq c why buffered
  | ok c' =>
      dsimp only
      rw [checkCounted_eq, hread c' rfl]

/-- The model of one stream reads the counter as the bytes of the others, and the counter
    follows what the stream has charged. -/
theorem receiveCounted_eq (c : VideoInStream) (allowed : VideoSource → Bool) (data : Bytes)
    (fin : Bool) (buffered : Int) :
    let out := c.receive { otherBuffered := buffered - c.charged, allowed, data, fin }
    c.receiveCounted allowed data fin buffered =
      (out.1, buffered + (out.1.charged - c.charged), out.2) := by
  intro out
  have hbuffered : buffered - c.charged + (c.charged + data.length) = buffered + data.length := by
    omega
  have hmoved : ∀ charged : Int, buffered + data.length + (charged - (c.charged + data.length)) =
      buffered + (charged - c.charged) := by
    intro charged
    omega
  simp only [out, receive, receiveCounted, hbuffered]
  split
  · rw [sub_self, add_zero]
  · split
    · rw [giveUp_eq, hmoved]
    · apply (afterPrefix_eq _ fin _ _ fun c' hread => (charged_readPrefix hread).1).trans
      exact Prod.ext rfl (Prod.ext (hmoved _) rfl)

/-- The reports among some callbacks. -/
def reports (callbacks : List IngressCallback) : List IngressCallback :=
  callbacks.filter IngressCallback.isReport

/-- What an event leaves of a stream whose fate was open: what it has charged is what it
    holds, and its fate is reported once, if it ended and its source is known. -/
structure Accounted (fin : Bool) (out : VideoInStream × List IngressCallback) : Prop where
  charged : out.1.charged = out.1.buf.length
  reported : (reports out.2).length = if out.1.finished then 1 else 0
  finished : out.1.finished → fin ∨ out.1.dead.isSome
  ended : out.1.prefixLen ≠ 0 → fin ∨ out.1.dead.isSome → out.1.finished

theorem reports_append (xs ys : List IngressCallback) :
    reports (xs ++ ys) = reports xs ++ reports ys := List.filter_append ..

/-- What came before without a report does not matter. -/
theorem Accounted.after {fin : Bool} {out : VideoInStream × List IngressCallback}
    (h : Accounted fin out) {callbacks : List IngressCallback} (hnone : reports callbacks = []) :
    Accounted fin (out.1, callbacks ++ out.2) := by
  refine ⟨h.charged, ?_, h.finished, h.ended⟩
  rw [reports_append, hnone, List.nil_append]
  exact h.reported

theorem reportLost_cases (hopen : c.finished = false) :
    c.prefixLen = 0 ∧ c.reportLost = (c, []) ∨
      c.prefixLen ≠ 0 ∧ c.reportLost =
        ({ c with finished := true }, [.frameAborted c.source c.frameSeq c.haveHeader]) := by
  by_cases hpre : c.prefixLen = 0
  · exact .inl ⟨hpre, by simp [reportLost, hpre]⟩
  · exact .inr ⟨hpre, by simp [reportLost, hopen, hpre]⟩

/-- After `report_lost` the fate of a stream is reported, if its source is known. -/
theorem reportLost_spec (c : VideoInStream) :
    (reports c.reportLost.2).length + (if c.finished then 1 else 0) =
        (if c.reportLost.1.finished then 1 else 0) ∧
      (c.reportLost.1.prefixLen ≠ 0 → c.reportLost.1.finished) := by
  by_cases hfinished : c.finished = true
  · have hnone : c.reportLost = (c, []) := by simp [reportLost, hfinished]
    rw [hnone, hfinished]
    exact ⟨rfl, fun _ => rfl⟩
  · have hopen : c.finished = false := Bool.not_eq_true _ ▸ hfinished
    rcases reportLost_cases hopen with ⟨hpre, hlost⟩ | ⟨hpre, hlost⟩
    · rw [hlost, hopen]
      exact ⟨rfl, fun hread => absurd hpre hread⟩
    · rw [hlost, hopen]
      exact ⟨rfl, fun _ => rfl⟩

theorem accounted_abort (hopen : c.finished = false) (why : IngressRefusal) (fin : Bool) :
    Accounted fin (c.abort why) := by
  rcases reportLost_cases hopen with ⟨hpre, hlost⟩ | ⟨hpre, hlost⟩
  · rw [abort, hlost]
    refine ⟨rfl, ?_, fun _ => .inr rfl, fun hread => absurd hpre hread⟩
    simp [reports, hopen]
  · rw [abort, hlost]
    exact ⟨rfl, rfl, fun _ => .inr rfl, fun _ _ => rfl⟩

theorem accounted_complete (hopen : c.finished = false) : Accounted true c.complete := by
  rw [complete]
  split
  · exact ⟨rfl, rfl, fun _ => .inl rfl, fun _ _ => rfl⟩
  · rcases reportLost_cases hopen with ⟨hpre, hlost⟩ | ⟨hpre, hlost⟩
    · rw [hlost]
      refine ⟨rfl, ?_, fun _ => .inl rfl, fun hread => absurd hpre hread⟩
      simp [reports, hopen]
    · rw [hlost]
      exact ⟨rfl, rfl, fun _ => .inl rfl, fun _ _ => rfl⟩

/-- The header is announced without a word on the frame. -/
theorem reports_readHeader (c : VideoInStream) : reports c.readHeader.2 = [] := by
  rw [readHeader]
  split
  · split <;> rfl
  · rfl

theorem accounted_check (hdead : c.dead = none) (hopen : c.finished = false)
    (hcharged : c.charged = c.buf.length) (fin : Bool) : Accounted fin (c.check fin) := by
  obtain ⟨haveHeader, frameSeq, hheader, _⟩ := c.readHeader_spec
  have hopen' : c.readHeader.1.finished = false := by
    rw [hheader]
    exact hopen
  have hnone := c.reports_readHeader
  rw [check]
  split
  · exact (accounted_abort hopen' .oversize fin).after hnone
  · split
    next hfin =>
      rw [hfin]
      exact (accounted_complete hopen').after hnone
    next hfin =>
      have hgoes : ¬ (fin = true ∨ c.readHeader.1.dead.isSome = true) := by
        rw [hheader, hdead]
        rintro (hend | hsome)
        · exact hfin hend
        · cases hsome
      refine ⟨?_, ?_, ?_, fun _ hend => absurd hend hgoes⟩
      · rw [hheader]
        exact hcharged
      · rw [hnone, hopen']
        rfl
      · intro hover
        rw [hopen'] at hover
        cases hover

/-- An event is refused, or its bytes are buffered and checked. -/
theorem receive_cases (hdead : c.dead = none) (e : IngressReceive) :
    (∃ (c' : VideoInStream) (why : IngressRefusal), c'.finished = c.finished ∧
      c.receive e = c'.abort why) ∨
    ∃ c' : VideoInStream, c'.charged = c.charged + e.data.length ∧ c'.buf = c.buf ++ e.data ∧
      c'.dead = c.dead ∧ c'.finished = c.finished ∧ c.receive e = c'.check e.fin ∧
      e.otherBuffered + (c.charged + e.data.length) ≤ VIDEO_INGRESS_MAX_BUFFERED_BYTES := by
  have halive : ¬ c.dead.isSome = true := by
    rw [hdead]
    nofun
  rw [receive, if_neg halive]
  dsimp only
  split
  · refine .inl ⟨_, _, ?_, rfl⟩
    rfl
  next hfits =>
    split
    · refine .inl ⟨_, _, ?_, rfl⟩
      rfl
    next c' hread =>
      obtain ⟨hcharged, hbuf, hdead', hopen⟩ := charged_readPrefix hread
      exact .inr ⟨c', hcharged, hbuf, hdead', hopen, rfl, not_lt.mp hfits⟩

theorem accounted_receive (hdead : c.dead = none) (hopen : c.finished = false)
    (hcharged : c.charged = c.buf.length) (e : IngressReceive) :
    Accounted e.fin (c.receive e) := by
  rcases receive_cases hdead e with ⟨c', why, hopen', heq⟩ |
    ⟨c', hcharged', hbuf, hdead', hopen', heq, _⟩
  · rw [heq]
    exact accounted_abort (hopen'.trans hopen) why e.fin
  · rw [heq]
    apply accounted_check (hdead'.trans hdead) (hopen'.trans hopen)
    rw [hcharged', hbuf, List.length_append, Int.natCast_add, hcharged]

theorem charged_check_le (hpos : 0 ≤ c.charged) (fin : Bool) :
    (c.check fin).1.charged ≤ c.charged := by
  rw [check]
  split
  · exact hpos
  · split
    · exact (charged_complete _).trans_le hpos
    · exact (charged_readHeader c).le

/-- An event leaves the bytes of the session below the cap. -/
theorem receive_le_cap (hdead : c.dead = none) (hpos : 0 ≤ c.charged) (e : IngressReceive)
    (hcap : e.otherBuffered ≤ VIDEO_INGRESS_MAX_BUFFERED_BYTES) :
    e.otherBuffered + (c.receive e).1.charged ≤ VIDEO_INGRESS_MAX_BUFFERED_BYTES := by
  rcases receive_cases hdead e with ⟨c', why, _, heq⟩ | ⟨c', hcharged, _, _, _, heq, hfits⟩
  · have hnone : (c'.abort why).1.charged = 0 := rfl
    rw [heq, hnone, add_zero]
    exact hcap
  · have hpos' : 0 ≤ c'.charged := by
      rw [hcharged]
      exact Int.add_nonneg hpos (Int.natCast_nonneg _)
    rw [heq]
    calc e.otherBuffered + (c'.check e.fin).1.charged
      _ ≤ e.otherBuffered + c'.charged := Int.add_le_add_left (c'.charged_check_le hpos' e.fin) _
      _ = e.otherBuffered + (c.charged + e.data.length) := by rw [hcharged]
      _ ≤ VIDEO_INGRESS_MAX_BUFFERED_BYTES := hfits

end VideoInStream

namespace IngressStream

variable {stream : IngressStream} {buffered : Int}

/-- An open stream has charged what it holds, and a stream has reported its fate once, if it
    ended and its source is known. -/
structure Valid (stream : IngressStream) : Prop where
  charged : stream.ctx.charged = if stream.closed then 0 else (stream.ctx.buf.length : Int)
  reported : stream.reports.length = if stream.ctx.finished then 1 else 0
  finished : stream.ctx.finished → stream.ended
  settled : stream.ctx.prefixLen ≠ 0 → stream.ended → stream.ctx.finished

theorem valid_new (sid : SessionId) : Valid { session := sid } where
  charged := rfl
  reported := rfl
  finished := nofun
  settled := nofun

theorem Valid.charged_nonneg (h : stream.Valid) : 0 ≤ stream.ctx.charged := by
  rw [h.charged]
  split
  · exact le_rfl
  · exact Int.natCast_nonneg _

theorem chargedTo_self (hopen : stream.closed = false) :
    stream.chargedTo stream.session = stream.ctx.charged := if_pos ⟨rfl, hopen⟩

theorem chargedTo_of_ne {sid : SessionId} (h : sid ≠ stream.session) : stream.chargedTo sid = 0 :=
  if_neg fun hboth => h hboth.1.symm

/-- What an event does to an open stream and to the counter of its session. -/
structure Settles (stream : IngressStream) (buffered : Int)
    (out : IngressStream × Int × List IngressCallback) : Prop where
  valid : out.1.Valid
  session : out.1.session = stream.session
  counter : out.2.1 = buffered + (out.1.chargedTo stream.session - stream.ctx.charged)
  cap : buffered ≤ VIDEO_INGRESS_MAX_BUFFERED_BYTES →
    out.2.1 ≤ VIDEO_INGRESS_MAX_BUFFERED_BYTES

/-- A stream that has not ended is still open to the server, and its fate unreported. -/
theorem Valid.unended (h : stream.Valid) (hgoes : stream.finReceived = false)
    (halive : ¬ stream.dead = true) :
    stream.ctx.dead = none ∧ stream.peerAborted = false ∧ stream.ctx.finished = false := by
  rw [dead, Bool.or_eq_true, not_or] at halive
  obtain ⟨hdead, hpeer⟩ := halive
  rw [Bool.not_eq_true, Option.isSome_eq_false_iff, Option.isNone_iff_eq_none] at hdead
  rw [Bool.not_eq_true] at hpeer
  refine ⟨hdead, hpeer, ?_⟩
  by_contra hfinished
  have hended := h.finished (Bool.not_eq_false _ ▸ hfinished)
  rw [ended, dead, hgoes, hdead, hpeer] at hended
  cases hended

/-- An event that is ignored. -/
theorem Valid.ignored (h : stream.Valid) (hopen : stream.closed = false)
    (hdead : stream.dead = true) (fin : Bool) :
    stream.Settles buffered ({ stream with finReceived := fin }, buffered, []) := by
  have hended : stream.ended := by rw [ended, hdead, Bool.or_true]
  refine ⟨⟨h.charged, h.reported, fun _ => ?_, fun hread _ => h.settled hread hended⟩, rfl, ?_, id⟩
  · rw [ended, Bool.or_eq_true]
    exact .inr hdead
  · rw [chargedTo, if_pos ⟨rfl, hopen⟩, sub_self, add_zero]

theorem Valid.receive (h : stream.Valid) (hopen : stream.closed = false)
    (hgoes : stream.finReceived = false) (allowed : VideoSource → Bool) (data : Bytes)
    (fin : Bool) : stream.Settles buffered (stream.receive allowed data fin buffered) := by
  rw [IngressStream.receive]
  split
  next hdead =>
    exact h.ignored hopen hdead fin
  next halive =>
    obtain ⟨hdead, hpeer, hfinished⟩ := h.unended hgoes halive
    have hcharged : stream.ctx.charged = stream.ctx.buf.length := by
      rw [h.charged, hopen]
      rfl
    have hpos := h.charged_nonneg
    rw [VideoInStream.receiveCounted_eq]
    dsimp only
    generalize he : ({ otherBuffered := buffered - stream.ctx.charged, allowed, data, fin } :
      IngressReceive) = e
    have hfin : e.fin = fin := by rw [← he]
    have hother : e.otherBuffered = buffered - stream.ctx.charged := by rw [← he]
    have haccounted := VideoInStream.accounted_receive hdead hfinished hcharged e
    have hends : IngressStream.ended { stream with
        ctx := (stream.ctx.receive e).1
        finReceived := fin
        callbacks := stream.callbacks ++ (stream.ctx.receive e).2 } = true ↔
          fin = true ∨ (stream.ctx.receive e).1.dead.isSome = true := by
      simp [ended, dead, hpeer]
    rw [hfin] at haccounted
    refine ⟨⟨?_, ?_, ?_, ?_⟩, rfl, ?_, ?_⟩
    · rw [hopen]
      exact haccounted.charged
    · have hreports : IngressStream.reports { stream with
          ctx := (stream.ctx.receive e).1
          finReceived := fin
          callbacks := stream.callbacks ++ (stream.ctx.receive e).2 } =
            stream.reports ++ VideoInStream.reports (stream.ctx.receive e).2 :=
        List.filter_append ..
      rw [hreports, List.length_append, h.reported, hfinished, haccounted.reported]
      exact zero_add _
    · intro hover
      exact hends.mpr (haccounted.finished hover)
    · intro hread hended
      exact haccounted.ended hread (hends.mp hended)
    · rw [chargedTo, if_pos ⟨rfl, hopen⟩]
    · intro hcap
      have hless : e.otherBuffered ≤ VIDEO_INGRESS_MAX_BUFFERED_BYTES := by
        rw [hother]
        exact (sub_le_self _ hpos).trans hcap
      have hle := VideoInStream.receive_le_cap hdead hpos e hless
      rw [hother, sub_add_eq_add_sub, ← add_sub_assoc'] at hle
      exact hle

theorem Valid.peerSendAborted (h : stream.Valid) (hopen : stream.closed = false) :
    stream.Settles buffered (stream.peerSendAborted buffered) := by
  rw [IngressStream.peerSendAborted]
  split
  next hdead =>
    refine ⟨h, rfl, ?_, id⟩
    rw [chargedTo_self hopen, sub_self, add_zero]
  next halive =>
    have hpos := h.charged_nonneg
    obtain ⟨hcount, hsettled⟩ := stream.ctx.reportLost_spec
    have hended : ∀ ctx callbacks, IngressStream.ended { stream with
        ctx, peerAborted := true, callbacks } = true := by
      simp [ended, dead]
    rw [VideoInStream.uncharge_eq]
    refine ⟨⟨?_, ?_, fun _ => hended _ _, fun hread _ => hsettled hread⟩, rfl, ?_, ?_⟩
    · rw [hopen]
      rfl
    · have hreports : IngressStream.reports { stream with
          ctx := { stream.ctx.reportLost.1 with buf := [], charged := 0 }
          peerAborted := true
          callbacks := stream.callbacks ++ stream.ctx.reportLost.2 } =
            stream.reports ++ VideoInStream.reports stream.ctx.reportLost.2 :=
        List.filter_append ..
      rw [hreports, List.length_append, h.reported, ← hcount, Nat.add_comm]
    · rw [chargedTo, if_pos ⟨rfl, hopen⟩, zero_sub, sub_eq_add_neg]
    · intro hcap
      exact (sub_le_self _ hpos).trans hcap

/-- The last event takes out what is still charged. -/
theorem Valid.shutdownComplete (h : stream.Valid) :
    stream.Settles buffered (stream.shutdownComplete buffered) := by
  have hpos := h.charged_nonneg
  rw [IngressStream.shutdownComplete, VideoInStream.uncharge_eq]
  refine ⟨⟨rfl, h.reported, h.finished, h.settled⟩, rfl, ?_, ?_⟩
  · rw [chargedTo, if_neg (fun hboth => Bool.noConfusion hboth.2), zero_sub, sub_eq_add_neg]
  · intro hcap
    exact (sub_le_self _ hpos).trans hcap

end IngressStream

/-! ### The balance of the sessions -/

namespace IngressServer

variable {s : IngressServer}

/-- The counters of the sessions hold what their open streams have charged, and the server
    keeps its balance of what waits in the queue. -/
structure Balanced (s : IngressServer) : Prop where
  inOrder : s.server.registry.InOrder
  pending : s.server.PendingBalanced
  streams : ∀ stream ∈ s.streams, stream.Valid
  buffered : ∀ sid, s.videoInBufferedBytes sid = tally (IngressStream.chargedTo sid) s.streams
  cap : ∀ sid, s.videoInBufferedBytes sid ≤ VIDEO_INGRESS_MAX_BUFFERED_BYTES

theorem balanced_server (h : s.Balanced) (op : ServerOp) :
    { s with server := s.server.step op }.Balanced :=
  ⟨Server.inOrder_step h.inOrder op, h.pending.step h.inOrder op, h.streams, h.buffered, h.cap⟩

/-- Callbacks are steps of the server. -/
theorem balanced_callbacks (h : s.Balanced) (sid : SessionId) (share : Nat)
    (callbacks : List IngressCallback) :
    { s with server := callbacks.foldl (fun server callback =>
      server.onIngressCallback sid share callback) s.server }.Balanced := by
  induction callbacks generalizing s with
  | nil => exact h
  | cons callback callbacks ih =>
      cases callback with
      | frameStarted source hdr => exact ih (balanced_server h (.videoFrameStarted sid source hdr))
      | frameAborted source frameSeq haveHeader =>
          exact ih (balanced_server h (.videoFrameAborted sid source
            (if haveHeader then some frameSeq else none)))
      | frame source data =>
          exact ih (balanced_server h (.videoFrame sid source { share, bytes := data }))

theorem Balanced.put (h : s.Balanced) {i : Nat} {stream : IngressStream}
    (hi : s.streams[i]? = some stream) (hopen : stream.closed = false) (share : Nat)
    {out : IngressStream × Int × List IngressCallback}
    (hout : stream.Settles (s.videoInBufferedBytes stream.session) out) :
    (s.put i share stream out).Balanced := by
  have hcallbacks := balanced_callbacks h stream.session share out.2.2
  refine ⟨hcallbacks.inOrder, hcallbacks.pending, ?_, ?_, ?_⟩
  · intro stream' hmem
    rcases List.mem_or_eq_of_mem_set hmem with hold | rfl
    · exact h.streams stream' hold
    · exact hout.valid
  · intro sid
    rw [IngressServer.put, tally_set hi, ← h.buffered sid]
    by_cases hsid : sid = stream.session
    · subst hsid
      dsimp only
      rw [Function.update_self, hout.counter, IngressStream.chargedTo_self hopen]
      omega
    · dsimp only
      rw [Function.update_of_ne hsid, IngressStream.chargedTo_of_ne hsid,
        IngressStream.chargedTo_of_ne (hout.session ▸ hsid)]
      omega
  · intro sid
    by_cases hsid : sid = stream.session
    · subst hsid
      rw [IngressServer.put]
      dsimp only
      rw [Function.update_self]
      exact hout.cap (h.cap _)
    · rw [IngressServer.put]
      dsimp only
      rw [Function.update_of_ne hsid]
      exact h.cap sid

theorem Balanced.withStream (h : s.Balanced) {i : Nat} {f : IngressStream → IngressServer}
    (hf : ∀ stream, s.streams[i]? = some stream → stream.closed = false → (f stream).Balanced) :
    (s.withStream i f).Balanced := by
  rw [IngressServer.withStream]
  split
  next stream hi =>
    split
    · exact h
    next hclosed =>
      exact hf stream hi (Bool.eq_false_iff.mpr hclosed)
  · exact h

theorem balanced_step (s : IngressServer) (op : IngressOp) (h : s.Balanced) :
    (s.step op).Balanced := by
  cases op with
  | server op => exact balanced_server h op
  | peerStreamStarted sid =>
      rw [step]
      split
      · exact h
      · split
        · refine ⟨h.inOrder, h.pending, ?_, ?_, h.cap⟩
          · intro stream hmem
            rcases List.mem_append.mp hmem with hold | hnew
            · exact h.streams stream hold
            · rw [List.mem_singleton.mp hnew]
              exact IngressStream.valid_new sid
          · intro other
            have hnone : IngressStream.chargedTo other { session := sid } = 0 := ite_self _
            rw [tally_concat, hnone, add_zero]
            exact h.buffered other
        · exact h
  | receive i share data fin =>
      apply h.withStream
      intro stream hi hopen
      split
      · exact h
      next hgoes =>
        have hvalid := h.streams stream (List.mem_of_getElem? hi)
        exact h.put hi hopen share
          (hvalid.receive hopen (Bool.eq_false_iff.mpr hgoes) _ data fin)
  | peerSendAborted i =>
      apply h.withStream
      intro stream hi hopen
      have hvalid := h.streams stream (List.mem_of_getElem? hi)
      exact h.put hi hopen 0 (hvalid.peerSendAborted hopen)
  | shutdownComplete i =>
      apply h.withStream
      intro stream hi hopen
      have hvalid := h.streams stream (List.mem_of_getElem? hi)
      exact h.put hi hopen 0 hvalid.shutdownComplete

theorem balanced_new (config : Config) (env : Environment) :
    Balanced { server := Server.new config env } where
  inOrder := Server.inOrder_new config env
  pending := .new config env
  streams := nofun
  buffered _ := rfl
  cap _ := Int.le_of_lt (by decide : (0 : Int) < VIDEO_INGRESS_MAX_BUFFERED_BYTES)

/-- In every run and for every session, the bytes buffered are what the open streams of the
    session have charged, the bytes pending are those of its frames in the queue, and both
    stay below the cap; when all streams are closed nothing is buffered. What an open stream
    has charged is what it holds. A stream reports its frame or its abort at most once, and
    it does report if its source is known and it ended or was given up by either side. -/
theorem ingress_settled_once (config : Config) (env : Environment) (ops : List IngressOp) :
    let s := run config env ops
    (∀ sid,
      s.videoInBufferedBytes sid = tally (IngressStream.chargedTo sid) s.streams ∧
      s.videoInBufferedBytes sid ≤ VIDEO_INGRESS_MAX_BUFFERED_BYTES ∧
      ((∀ stream ∈ s.streams, stream.session = sid → stream.closed) →
        s.videoInBufferedBytes sid = 0) ∧
      (s.server.sessions sid).videoPendingBytes =
        tally (Server.pendingFor sid) s.server.videoIncoming ∧
      (s.server.sessions sid).videoPendingBytes ≤ VIDEO_INGRESS_MAX_BUFFERED_BYTES) ∧
    ∀ stream ∈ s.streams,
      (stream.closed = false → stream.ctx.charged = stream.ctx.buf.length) ∧
      stream.reports.length ≤ 1 ∧
      (stream.ctx.prefixLen ≠ 0 → stream.ended → stream.reports.length = 1) := by
  intro s
  have h : s.Balanced := Machine.run_preserves balanced_step (balanced_new config env) ops
  constructor
  · intro sid
    refine ⟨h.buffered sid, h.cap sid, ?_, h.pending.pending sid, h.pending.cap sid⟩
    intro hclosed
    rw [h.buffered sid]
    apply tally_eq_zero
    intro stream hmem
    apply if_neg
    rintro ⟨hsession, hopen⟩
    rw [hclosed stream hmem hsession] at hopen
    cases hopen
  · intro stream hmem
    have hvalid := h.streams stream hmem
    refine ⟨?_, ?_, ?_⟩
    · intro hopen
      rw [hvalid.charged, hopen]
      rfl
    · rw [hvalid.reported]
      split
      · exact le_rfl
      · exact Nat.zero_le 1
    · intro hread hended
      rw [hvalid.reported, if_pos (hvalid.settled hread hended)]

/-- The sharer aborts a stream whose header has arrived, and the stream shuts down. -/
example :
    let header := Wire.STREAM_TYPE_VIDEO_FRAME :: VideoFrameHeader.write { frameSeq := 7 }
    let opened := IngressStream.receive { session := 1 } (fun _ => true) header false 100
    let aborted := opened.1.peerSendAborted opened.2.1
    let closed := aborted.1.shutdownComplete aborted.2.1
    opened.2.1 = 115 ∧ closed.2.1 = 100 ∧ closed.1.reports = [.frameAborted .screen 7 true] :=
  ⟨rfl, rfl, rfl⟩

end IngressServer

end Parties

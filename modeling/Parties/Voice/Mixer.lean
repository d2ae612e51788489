import Parties.Lib.Machine
import Parties.Lib.SerialNumber
import Parties.Types

/-!
# The voice mixer

Mirror of the jitter buffer of `VoiceMixer` (`client/src/voice_mixer.cpp`): per
sender a queue of packets ordered by sequence number, a playout clock and a
decoder. The decoder is represented by the calls made to it; samples, volumes
and levels are left out. Every member function holds the mutex of the mixer, so
one call is one step.
-/

namespace Parties.Voice

def OPUS_FRAME_SIZE : Nat := 960
def MAX_JITTER_PACKETS : Nat := 10
def JITTER_PRE_BUFFER : Nat := 4
def PLC_MAX_FRAMES : Nat := 10
def RESYNC_GAP : Int := 32

structure JitterPacket where
  seq : BitVec 16
  data : Bytes
deriving DecidableEq, Repr

/-- One call of the decoder: of a packet, of the in-band FEC its successor
carries, or with no data at all. -/
inductive DecodeCall where
  | normal (packet : JitterPacket)
  | fec (successor : JitterPacket)
  | plc
deriving DecidableEq, Repr

/-- Signed distance from `a` to `b`; positive means that `b` is ahead. -/
def seqDiff (a b : BitVec 16) : Int := (b - a).toInt

theorem seqDiff_eq (a b : BitVec 16) : seqDiff a b = Serial.distance b a := rfl

structure UserStream where
  decoder : List DecodeCall := []
  packetQueue : List JitterPacket := []
  consecutiveEmpty : Nat := 0
  initialized : Bool := false
  primed : Bool := false
  nextSeq : BitVec 16 := 0
  hasSeq : Bool := false
  pcmPos : Nat := 0
deriving DecidableEq, Repr

namespace UserStream

/-- The stream `get_or_create_stream` makes. -/
def created : UserStream := { initialized := true, pcmPos := OPUS_FRAME_SIZE }

/-! ### Packets in -/

/-- The search for the insertion index, from the back; `none` for a duplicate.
`i` is the loop counter, `idx` the index found so far. -/
def insertIndex (queue : List JitterPacket) (seq : BitVec 16) : Nat → Nat → Option Nat
  | 0, idx => some idx
  | i + 1, idx =>
    match queue[i]? with
    | none => some idx
    | some packet =>
      if seqDiff packet.seq seq = 0 then none
      else if 0 < seqDiff packet.seq seq then some (i + 1)
      else insertIndex queue seq i i

/-- Keep the newest bounded window. -/
def evict (s : UserStream) : UserStream :=
  if MAX_JITTER_PACKETS < s.packetQueue.length then
    let s := { s with packetQueue := s.packetQueue.tail }
    match s.packetQueue.head? with
    | none => s
    | some front =>
      if s.primed && decide (0 < seqDiff s.nextSeq front.seq) then
        { s with nextSeq := front.seq, consecutiveEmpty := 0 }
      else s
  else s

/-- `push_packet`, for the stream of its user. -/
def pushPacket (s : UserStream) (packet : JitterPacket) : UserStream :=
  -- the first packet establishes the sequence baseline
  let s := if s.hasSeq then s else { s with nextSeq := packet.seq, hasSeq := true }
  if seqDiff s.nextSeq packet.seq < 0 then s
  else
    match insertIndex s.packetQueue packet.seq s.packetQueue.length s.packetQueue.length with
    | none => s
    | some idx => { s with packetQueue := s.packetQueue.insertIdx idx packet }.evict

/-! ### Frames out -/

/-- Start the playout clock once enough packets are queued; `none` while they
are not. -/
def prime (s : UserStream) : Option UserStream :=
  if s.primed then some s
  else if s.packetQueue.length < JITTER_PRE_BUFFER then none
  else some { s with
    primed := true
    nextSeq := (s.packetQueue.head?.map JitterPacket.seq).getD s.nextSeq }

/-- Fill the slot without data. -/
def conceal (s : UserStream) : UserStream :=
  { s with decoder := s.decoder ++ [.plc], nextSeq := s.nextSeq + 1 }

/-- Decode the front packet and consume it. -/
def playFront (s : UserStream) (front : JitterPacket) : UserStream :=
  { s with
    decoder := s.decoder ++ [.normal front]
    nextSeq := front.seq + 1
    packetQueue := s.packetQueue.tail
    consecutiveEmpty := 0 }

/-- The empty queue: bounded concealment, then back to priming. -/
def underrun (s : UserStream) : UserStream :=
  let s := { s with consecutiveEmpty := s.consecutiveEmpty + 1 }
  if s.consecutiveEmpty ≤ PLC_MAX_FRAMES then s.conceal
  else { s with primed := false, hasSeq := false }

/-- The slot of a stream whose queue is not empty. -/
def playSlot (s : UserStream) : UserStream :=
  let s := { s with
    packetQueue := s.packetQueue.dropWhile fun packet => decide (seqDiff s.nextSeq packet.seq < 0) }
  match s.packetQueue.head? with
  | none => { s with consecutiveEmpty := s.consecutiveEmpty + 1 }.conceal
  | some front =>
    let gap := seqDiff s.nextSeq front.seq
    -- too large to be loss: snap the clock to the next packet
    if RESYNC_GAP ≤ gap then { s with nextSeq := front.seq }.playFront front
    else if gap = 0 then s.playFront front
    else if gap = 1 then
      { s with
        decoder := s.decoder ++ [.fec front]
        nextSeq := s.nextSeq + 1
        consecutiveEmpty := 0 }
    else
      let s := { s with consecutiveEmpty := s.consecutiveEmpty + 1 }
      if PLC_MAX_FRAMES < s.consecutiveEmpty then { s with nextSeq := front.seq }.playFront front
      else s.conceal

/-- `decode_frame`: one slot of playout. -/
def decodeFrame (s : UserStream) : UserStream :=
  if !s.initialized then s
  else
    match s.prime with
    | none => s
    | some s => if s.packetQueue.isEmpty then s.underrun else s.playSlot

/-- The loop of `mix_output` for one stream: decode a frame whenever the last
one is used up. Every turn writes at least one sample, so `remaining` turns are
enough. -/
def mixLoop : Nat → Nat → UserStream → UserStream
  | 0, _, s => s
  | fuel + 1, remaining, s =>
    if remaining = 0 then s
    else
      let s := if OPUS_FRAME_SIZE ≤ s.pcmPos then { s.decodeFrame with pcmPos := 0 } else s
      let chunk := min remaining (OPUS_FRAME_SIZE - s.pcmPos)
      mixLoop fuel (remaining - chunk) { s with pcmPos := s.pcmPos + chunk }

def mixOutput (s : UserStream) (frameCount : Nat) : UserStream := mixLoop frameCount frameCount s

end UserStream

/-! ### The mixer -/

structure VoiceMixer where
  streams : UserId → Option UserStream := fun _ => none

namespace VoiceMixer

inductive Op where
  | pushPacket (user : UserId) (packet : JitterPacket)
  | mixOutput (frameCount : Nat)
  | removeUser (user : UserId)
  | clear

/-- The stream a packet of `user` goes to. -/
def getOrCreateStream (m : VoiceMixer) (user : UserId) : UserStream :=
  (m.streams user).getD UserStream.created

def step (m : VoiceMixer) : Op → VoiceMixer
  | .pushPacket user packet =>
    { streams := fun u =>
        if u = user then some ((m.getOrCreateStream user).pushPacket packet) else m.streams u }
  | .mixOutput frameCount =>
    { streams := fun u => (m.streams u).map fun s => s.mixOutput frameCount }
  | .removeUser user => { streams := fun u => if u = user then none else m.streams u }
  | .clear => {}

def run (m : VoiceMixer) (ops : List Op) : VoiceMixer := Machine.run step m ops

end VoiceMixer

end Parties.Voice

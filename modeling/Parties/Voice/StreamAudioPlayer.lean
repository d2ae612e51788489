import Parties.Lib.EventLog
import Parties.Types

/-!
# The audio of a watched share

Mirror of `StreamAudioPlayer` (`client/src/stream_audio_player.cpp`). The network thread queues
packets; the audio thread takes decoded samples, as many as each callback asks for. Only the queue
is shared, and the audio thread holds the lock while it decodes, so one turn of the loop of
`mix_output` is one step and packets arrive between two turns. The decoder is a parameter; samples
are mixed in with the volume of their callback, which the model leaves beside them.
-/

namespace Parties.Voice

def kChannels : Nat := 2
def kFrameSize : Nat := 960
def kMaxJitterPackets : Nat := 10
def kPreBuffer : Nat := 3
def kPlcMaxFrames : Nat := 10

/-- The interleaved samples of one frame. -/
abbrev frameSamples : Nat := kFrameSize * kChannels

/-- The Opus decoder: what it writes for a packet, or for none to conceal a loss; nothing if it
fails. It never writes more than the frame it was given room for. -/
structure StreamDecoder (δ α : Type) where
  decode : δ → Option Bytes → δ × List α
  bounded : ∀ state packet, (decode state packet).2.length ≤ frameSamples

/-- A decoder for which every packet is a frame of the same sample, and every loss one of silence. -/
def StreamDecoder.flat : StreamDecoder Unit Nat where
  decode _ packet := ((), List.replicate frameSamples (packet.elim 0 List.length))
  bounded _ _ := by simp

/-- A callback the audio thread is in: the frames it asked for, those written so far, and the
volume read when it began. -/
structure MixCall (ν : Type) where
  frameCount : Nat
  written : Nat := 0
  volume : ν
deriving DecidableEq, Repr

structure StreamAudioPlayer (δ α ν : Type) where
  decoder : δ
  decoderInitialized : Bool := true
  packetQueue : List Bytes := []
  primed : Bool := false
  consecutiveEmpty : Nat := 0
  pcmBuf : List α
  pcmPos : Nat := frameSamples
  volume : ν
  call : Option (MixCall ν) := none

/-- What the player does, as far as it can be heard. -/
inductive PlayerEvent (α ν : Type) where
  | volumeSet (volume : ν)
  | arrived (packet : Bytes)
  | discarded (packet : Bytes)
  | began (frameCount : Nat)
  /-- A frame is in the buffer: of a packet, or concealed. -/
  | decoded (packet : Option Bytes) (frame : List α)
  /-- The decoder gave nothing. -/
  | failed (packet : Option Bytes)
  /-- Too much was concealed: playout stops until enough packets wait again. -/
  | ranDry
  /-- Samples mixed into the buffer of the callback from this frame on, at this volume. -/
  | mixed (frame : Nat) (volume : ν) (samples : List α)
  /-- The callback returns without any more audio. -/
  | starved
  | finished
deriving DecidableEq, Repr

namespace StreamAudioPlayer

inductive Op (ν : Type) where
  | pushPacket (packet : Bytes)
  | setVolume (volume : ν)
  | mixOutput (frameCount : Nat)
  /-- The next turn of the loop of the callback. -/
  | turn
  | shutdown

variable {δ α ν : Type}

/-- `push_packet` -/
def pushPacket (s : StreamAudioPlayer δ α ν) (packet : Bytes) :
    StreamAudioPlayer δ α ν × List (PlayerEvent α ν) :=
  let full := kMaxJitterPackets ≤ s.packetQueue.length
  let queue := if full then s.packetQueue.tail else s.packetQueue
  let gone := if full then (s.packetQueue.head?.map PlayerEvent.discarded).toList else []
  ({ s with packetQueue := queue ++ [packet], consecutiveEmpty := 0 }, gone ++ [.arrived packet])

/-- One call of the decoder. A short frame overwrites the front of the buffer only. -/
def decode (dec : StreamDecoder δ α) (s : StreamAudioPlayer δ α ν) (packet : Option Bytes) :
    StreamAudioPlayer δ α ν × Bool × List (PlayerEvent α ν) :=
  let (decoder, samples) := dec.decode s.decoder packet
  if samples.isEmpty then ({ s with decoder }, false, [.failed packet])
  else
    let frame := samples ++ s.pcmBuf.drop samples.length
    ({ s with decoder, pcmBuf := frame }, true, [.decoded packet frame])

/-- `decode_frame`, with the lock held -/
def decodeFrame (dec : StreamDecoder δ α) (s : StreamAudioPlayer δ α ν) :
    StreamAudioPlayer δ α ν × Bool × List (PlayerEvent α ν) :=
  if !s.primed && s.packetQueue.length < kPreBuffer then (s, false, [])
  else
    let s := { s with primed := true }
    match s.packetQueue with
    | packet :: rest => { s with packetQueue := rest, consecutiveEmpty := 0 }.decode dec (some packet)
    | [] =>
      let s := { s with consecutiveEmpty := s.consecutiveEmpty + 1 }
      if s.consecutiveEmpty ≤ kPlcMaxFrames then s.decode dec none
      else ({ s with primed := false }, false, [.ranDry])

/-- The copying half of a turn: what is left of the frame, as far as the callback wants it. -/
def copyChunk (s : StreamAudioPlayer δ α ν) (call : MixCall ν) :
    StreamAudioPlayer δ α ν × List (PlayerEvent α ν) :=
  let available := (frameSamples - s.pcmPos) / kChannels
  let chunk := min available (call.frameCount - call.written)
  let samples := (s.pcmBuf.drop s.pcmPos).take (chunk * kChannels)
  ({ s with
      pcmPos := s.pcmPos + chunk * kChannels
      call := some { call with written := call.written + chunk } },
    [.mixed call.written call.volume samples])

/-- One turn of the loop of `mix_output` -/
def turn (dec : StreamDecoder δ α) (s : StreamAudioPlayer δ α ν) (call : MixCall ν) :
    StreamAudioPlayer δ α ν × List (PlayerEvent α ν) :=
  if call.frameCount ≤ call.written then ({ s with call := none }, [.finished])
  else if s.pcmPos < frameSamples then s.copyChunk call
  else
    match s.decodeFrame dec with
    | (s, false, events) => ({ s with call := none }, events ++ [.starved])
    | (s, true, events) =>
      let (s, copied) := { s with pcmPos := 0 }.copyChunk call
      (s, events ++ copied)

def step (dec : StreamDecoder δ α) (clamp : ν → ν) (s : StreamAudioPlayer δ α ν) :
    Op ν → StreamAudioPlayer δ α ν × List (PlayerEvent α ν)
  | .pushPacket packet => s.pushPacket packet
  | .setVolume volume => ({ s with volume := clamp volume }, [.volumeSet (clamp volume)])
  | .mixOutput frameCount =>
    match s.call with
    | some _ => (s, [])
    | none =>
      if !s.decoderInitialized then (s, [])
      else ({ s with call := some { frameCount, volume := s.volume } }, [.began frameCount])
  | .turn =>
    match s.call with
    | some call => s.turn dec call
    | none => (s, [])
  | .shutdown => ({ s with decoderInitialized := false }, [])

/-- The player behind `init`, with silence in its buffer. -/
def initialized (decoder : δ) (silence : α) (volume : ν) : StreamAudioPlayer δ α ν :=
  { decoder, pcmBuf := List.replicate frameSamples silence, volume }

def run (dec : StreamDecoder δ α) (clamp : ν → ν) (s : StreamAudioPlayer δ α ν)
    (ops : List (Op ν)) : StreamAudioPlayer δ α ν × List (PlayerEvent α ν) :=
  Machine.run (Machine.logged (step dec clamp)) (s, []) ops

end StreamAudioPlayer

end Parties.Voice

import Parties.Lib.SerialNumber
import Parties.Types

/-!
# The video frame header and its sequence numbers

Mirror of `parties/video_common.h`: the 14-byte header every video frame starts
with, little-endian, and the wrap-safe comparison of frame sequence numbers.
-/

namespace Parties.Video

/-- What carries the bytes of one encoded frame. The buffers and queues below
    are generic in it: they read nothing of a frame but its bytes. -/
class FrameBytes (φ : Type) where
  bytes : φ → Bytes

instance : FrameBytes Bytes := ⟨id⟩

/-- The length of a frame in bytes (`frame.size()`). -/
def frameSize {φ : Type} [FrameBytes φ] (frame : φ) : Nat := (FrameBytes.bytes frame).length

def VIDEO_FLAG_KEYFRAME : BitVec 8 := 0x01
def VIDEO_FLAG_CAPTURE_TIME : BitVec 8 := 0x02

def VIDEO_KEYFRAME_REQUEST_COOLDOWN_MS : Int := 1000

def VIDEO_FRAME_MAX_BYTES : Nat := 4 * 1024 * 1024
def VIDEO_FRAME_MAX_PAYLOAD_BYTES : Nat := VIDEO_FRAME_MAX_BYTES - 1 - 4
def VIDEO_FRAME_HEADER_SIZE : Nat := 14

structure VideoFrameHeader where
  frameSeq : BitVec 32 := 0
  timestamp : BitVec 32 := 0
  flags : BitVec 8 := 0
  width : BitVec 16 := 0
  height : BitVec 16 := 0
  codec : BitVec 8 := 0
deriving DecidableEq, Repr

namespace VideoFrameHeader

def keyframe (hdr : VideoFrameHeader) : Bool := decide (hdr.flags &&& VIDEO_FLAG_KEYFRAME ≠ 0)

/-- Two bytes, little-endian. -/
def le16 (b0 b1 : UInt8) : BitVec 16 := b1.toBitVec ++ b0.toBitVec

/-- Four bytes, little-endian. -/
def le32 (b0 b1 b2 b3 : UInt8) : BitVec 32 := le16 b2 b3 ++ le16 b0 b1

/-- Read the header a frame starts with; `none` when the data is too short. -/
def parse : Bytes → Option VideoFrameHeader
  | b0 :: b1 :: b2 :: b3 :: b4 :: b5 :: b6 :: b7 :: b8 :: b9 :: b10 :: b11 :: b12 :: b13 :: _ =>
    some {
      frameSeq := le32 b0 b1 b2 b3
      timestamp := le32 b4 b5 b6 b7
      flags := b8.toBitVec
      width := le16 b9 b10
      height := le16 b11 b12
      codec := b13.toBitVec }
  | _ => none

/-- The `i`-th byte of a little-endian number. -/
def byteAt {w : Nat} (x : BitVec w) (i : Nat) : UInt8 := ⟨x.extractLsb' (8 * i) 8⟩

/-- The 14 bytes of the header. -/
def write (hdr : VideoFrameHeader) : Bytes :=
  [byteAt hdr.frameSeq 0, byteAt hdr.frameSeq 1, byteAt hdr.frameSeq 2, byteAt hdr.frameSeq 3,
    byteAt hdr.timestamp 0, byteAt hdr.timestamp 1, byteAt hdr.timestamp 2,
    byteAt hdr.timestamp 3,
    byteAt hdr.flags 0,
    byteAt hdr.width 0, byteAt hdr.width 1,
    byteAt hdr.height 0, byteAt hdr.height 1,
    byteAt hdr.codec 0]

theorem le16_byteAt (x : BitVec 16) : le16 (byteAt x 0) (byteAt x 1) = x := by
  apply BitVec.eq_of_getLsbD_eq
  intro i hi
  simp only [le16, byteAt, BitVec.getLsbD_append, BitVec.getLsbD_extractLsb']
  grind

theorem le32_byteAt (x : BitVec 32) :
    le32 (byteAt x 0) (byteAt x 1) (byteAt x 2) (byteAt x 3) = x := by
  apply BitVec.eq_of_getLsbD_eq
  intro i hi
  simp only [le32, le16, byteAt, BitVec.getLsbD_append, BitVec.getLsbD_extractLsb']
  grind

theorem toBitVec_byteAt (x : BitVec 8) : (byteAt x 0).toBitVec = x := by
  simp [byteAt]

/-- A header is read back in front of whatever follows. -/
theorem parse_write (hdr : VideoFrameHeader) (rest : Bytes) :
    parse (hdr.write ++ rest) = some hdr := by
  simp [write, parse, le16_byteAt, le32_byteAt, toBitVec_byteAt]

end VideoFrameHeader

/-! ### Shares -/

/-- A frame and the share of its stream it belongs to. The wire carries the bytes
    only; the share is there to state what becomes of the frames of which share. -/
structure ShareFrame where
  share : Nat
  bytes : Bytes
deriving DecidableEq, Repr

instance : FrameBytes ShareFrame := ⟨ShareFrame.bytes⟩

def ShareFrame.isKeyframe (f : ShareFrame) : Bool :=
  (VideoFrameHeader.parse f.bytes).any VideoFrameHeader.keyframe

/-- Keyframe `seq`, without a payload. -/
def keyframeBytes (seq : BitVec 32) : Bytes :=
  ({ frameSeq := seq, flags := VIDEO_FLAG_KEYFRAME } : VideoFrameHeader).write

/-- Delta `seq`, without a payload. -/
def deltaFrameBytes (seq : BitVec 32) : Bytes := ({ frameSeq := seq } : VideoFrameHeader).write

/-! ### Sequence numbers -/

/-- Wrap-safe comparison: `a` is newer than `b`. -/
def videoSeqNewer (a b : BitVec 32) : Bool := decide (0 < (a - b).toInt)

def videoSeqDistance (a b : BitVec 32) : Int := (a - b).toInt

theorem videoSeqDistance_eq : videoSeqDistance = Serial.distance := rfl

@[simp] theorem videoSeqNewer_iff {a b : BitVec 32} :
    videoSeqNewer a b = true ↔ 0 < videoSeqDistance a b := by
  simp [videoSeqNewer, videoSeqDistance]

theorem videoSeqDistance_lt (a b : BitVec 32) : videoSeqDistance a b < 2 ^ 31 :=
  Serial.distance_lt a b

@[simp] theorem videoSeqDistance_self (a : BitVec 32) : videoSeqDistance a a = 0 :=
  Serial.distance_self a

theorem videoSeqDistance_inj {a b c : BitVec 32} :
    videoSeqDistance a c = videoSeqDistance b c ↔ a = b :=
  Serial.distance_inj

theorem videoSeqDistance_eq_one_iff {a b : BitVec 32} : videoSeqDistance a b = 1 ↔ a = b + 1 :=
  Serial.distance_eq_one_iff (by decide)

@[simp] theorem videoSeqDistance_succ (a : BitVec 32) : videoSeqDistance (a + 1#32) a = 1 :=
  videoSeqDistance_eq_one_iff.mpr rfl

/-- Ahead of a common base the distances from a nearer base are the differences. -/
theorem videoSeqDistance_rebase {a b c : BitVec 32} (ha : 0 ≤ videoSeqDistance a b)
    (hc : 0 ≤ videoSeqDistance c b) :
    videoSeqDistance a c = videoSeqDistance a b - videoSeqDistance c b := by
  have h₁ := videoSeqDistance_lt a b
  have h₂ := videoSeqDistance_lt c b
  exact Serial.distance_rebase (by decide)
    (show -2 ^ 31 ≤ videoSeqDistance a b - videoSeqDistance c b by omega)
    (show videoSeqDistance a b - videoSeqDistance c b < 2 ^ 31 by omega)

end Parties.Video

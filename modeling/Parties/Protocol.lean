import Parties.Types

/-!
# Protocol versions and stream ids

Mirror of the part of `parties/protocol.h` the server's video path rests on. A
user publishes at most one stream per source; what names a stream on the wire is
the owner's id with the source in the two bits above it.
-/

namespace Parties

/-! ### Versions -/

def PROTOCOL_VERSION_MAJOR : BitVec 8 := 1
def PROTOCOL_VERSION_ASSUMED_LEGACY : BitVec 16 := 0x0101
def PROTOCOL_VERSION_FRAME_STREAMS : BitVec 16 := 0x0102
def PROTOCOL_VERSION_JOIN_VOICE_STATE : BitVec 16 := 0x0103
def PROTOCOL_VERSION_CAMERA : BitVec 16 := 0x0104

def protocolMajor (version : BitVec 16) : BitVec 8 := version.extractLsb' 8 8

def protocolSupportsFrameStreams (version : BitVec 16) : Bool :=
  protocolMajor version = 1 && PROTOCOL_VERSION_FRAME_STREAMS ≤ version

/-- The voice state rides on a join. -/
def protocolSupportsJoinVoiceState (version : BitVec 16) : Bool :=
  protocolMajor version = 1 && PROTOCOL_VERSION_JOIN_VOICE_STATE ≤ version

def protocolSupportsCamera (version : BitVec 16) : Bool :=
  protocolMajor version = 1 && PROTOCOL_VERSION_CAMERA ≤ version

/-! ### Video sources and stream ids -/

inductive VideoSource where
  | screen
  | camera
deriving DecidableEq, Repr

instance VideoSource.decidableForall {p : VideoSource → Prop} [DecidablePred p] :
    Decidable (∀ source, p source) :=
  decidable_of_iff (p .screen ∧ p .camera)
    ⟨fun h source => by cases source with
      | screen => exact h.1
      | camera => exact h.2, fun h => ⟨h _, h _⟩⟩

def VideoSource.raw : VideoSource → BitVec 32
  | .screen => 0
  | .camera => 1

def VIDEO_STREAM_SOURCE_SHIFT : Nat := 30
def VIDEO_STREAM_USER_MASK : BitVec 32 := 0x3fffffff

def videoStreamId (user : UserId) (source : VideoSource) : StreamId :=
  (user &&& VIDEO_STREAM_USER_MASK) ||| (source.raw <<< VIDEO_STREAM_SOURCE_SHIFT)

def videoStreamOwner (stream : StreamId) : UserId := stream &&& VIDEO_STREAM_USER_MASK

/-- The source of a stream id, if its source bits name one. -/
def videoStreamSource (stream : StreamId) : Option VideoSource :=
  if stream >>> VIDEO_STREAM_SOURCE_SHIFT = VideoSource.screen.raw then some .screen
  else if stream >>> VIDEO_STREAM_SOURCE_SHIFT = VideoSource.camera.raw then some .camera
  else none

def videoStreamValid (stream : StreamId) : Bool :=
  videoStreamOwner stream ≠ 0 && (videoStreamSource stream).isSome

/-- The ids a stream id can carry. -/
def UserId.Packable (user : UserId) : Prop := user ≠ 0 ∧ user.toNat < 2 ^ 30

instance (user : UserId) : Decidable user.Packable := inferInstanceAs (Decidable (_ ∧ _))

theorem videoStreamOwner_toNat (stream : StreamId) :
    (videoStreamOwner stream).toNat = stream.toNat % 2 ^ 30 := by
  rw [videoStreamOwner, BitVec.toNat_and, show VIDEO_STREAM_USER_MASK.toNat = 2 ^ 30 - 1 from rfl,
    Nat.and_two_pow_sub_one_eq_mod]

/-- The owner fills the low 30 bits, the source the two above. -/
theorem videoStreamId_toNat (user : UserId) (source : VideoSource) :
    (videoStreamId user source).toNat = 2 ^ 30 * source.raw.toNat + user.toNat % 2 ^ 30 := by
  have hshift : (source.raw <<< VIDEO_STREAM_SOURCE_SHIFT).toNat = 2 ^ 30 * source.raw.toNat := by
    cases source <;> rfl
  have howner := videoStreamOwner_toNat user
  rw [videoStreamOwner] at howner
  rw [videoStreamId, BitVec.toNat_or, hshift, howner,
    Nat.two_pow_add_eq_or_of_lt (Nat.mod_lt _ (by decide)), Nat.or_comm]

theorem videoStreamSource_eq_some_iff {stream : StreamId} {source : VideoSource} :
    videoStreamSource stream = some source ↔ stream.toNat / 2 ^ 30 = source.raw.toNat := by
  have hshift : (stream >>> VIDEO_STREAM_SOURCE_SHIFT).toNat = stream.toNat / 2 ^ 30 := by
    rw [BitVec.toNat_ushiftRight, VIDEO_STREAM_SOURCE_SHIFT, Nat.shiftRight_eq_div_pow]
  rw [videoStreamSource, ← hshift, BitVec.toNat_inj]
  generalize stream >>> VIDEO_STREAM_SOURCE_SHIFT = bits
  have hne : VideoSource.screen.raw ≠ VideoSource.camera.raw := by decide
  cases source with
  | screen =>
      by_cases hscreen : bits = VideoSource.screen.raw
      · simp [hscreen]
      · by_cases hcamera : bits = VideoSource.camera.raw <;> simp [hscreen, hcamera, hne.symm]
  | camera =>
      by_cases hscreen : bits = VideoSource.screen.raw
      · simp [hscreen, hne]
      · by_cases hcamera : bits = VideoSource.camera.raw <;> simp [hscreen, hcamera, hne.symm]

theorem videoStreamOwner_id {user : UserId} (h : user.Packable) (source : VideoSource) :
    videoStreamOwner (videoStreamId user source) = user := by
  apply BitVec.eq_of_toNat_eq
  rw [videoStreamOwner_toNat, videoStreamId_toNat, Nat.mul_add_mod, Nat.mod_mod,
    Nat.mod_eq_of_lt h.2]

theorem videoStreamSource_id (user : UserId) (source : VideoSource) :
    videoStreamSource (videoStreamId user source) = some source := by
  rw [videoStreamSource_eq_some_iff, videoStreamId_toNat, Nat.mul_add_div (by decide),
    Nat.div_eq_of_lt (Nat.mod_lt _ (by decide)), Nat.add_zero]

/-- The screen of a user has the user's own id. -/
theorem videoStreamId_screen {user : UserId} (h : user.Packable) :
    videoStreamId user .screen = user := by
  apply BitVec.eq_of_toNat_eq
  rw [videoStreamId_toNat, Nat.mod_eq_of_lt h.2]
  exact Nat.zero_add _

/-- A stream id with a source is the id of its owner's stream of that source. -/
theorem videoStreamId_owner {stream : StreamId} {source : VideoSource}
    (h : videoStreamSource stream = some source) :
    videoStreamId (videoStreamOwner stream) source = stream := by
  apply BitVec.eq_of_toNat_eq
  rw [videoStreamId_toNat, videoStreamOwner_toNat, Nat.mod_mod,
    ← videoStreamSource_eq_some_iff.mp h, Nat.div_add_mod]

theorem videoStreamId_inj {user user' : UserId} (h : user.Packable) (h' : user'.Packable)
    {source source' : VideoSource} :
    videoStreamId user source = videoStreamId user' source' ↔ user = user' ∧ source = source' := by
  constructor
  · intro heq
    constructor
    · rw [← videoStreamOwner_id h source, heq, videoStreamOwner_id h']
    · have hsource := videoStreamSource_id user source
      rw [heq, videoStreamSource_id] at hsource
      exact (Option.some.inj hsource).symm
  · rintro ⟨rfl, rfl⟩
    rfl

example : videoStreamId 42 .screen = 42 := rfl

end Parties

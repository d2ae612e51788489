import Mathlib.Logic.Function.Basic
import Parties.Lib.EventLog
import Parties.Lib.Machine

/-!
# The staging textures of a screen share

Mirror of the capture callback of `App::finish_screen_share_start`, of `App::encode_loop` and of
`bridge.request_keyframe` (`client/src/windows/app.cpp`), as far as they pass pictures to the
encoder: three textures, of which the capture thread writes one while the encode thread reads
another. The sections under `encode_mutex_` are one step each; the copy into a texture, which is
made without it, is two. Whether a texture can be created and an encoder initialized is up to
the environment. Pictures are numbered as they are admitted.

A picture that is shared at a smaller scale is drawn into its texture, which takes a render target,
the shaders, and a full-size copy where the capture's own texture cannot be read. All of these are
made along with the textures, and those are made anew only for another texture size. So a scale may
come to a picture whose textures were not made for it: what is drawn then goes nowhere, or a
full-size picture is copied into the smaller texture. The picture is published all the same.
-/

namespace Parties.Video

abbrev ENCODE_SLOTS : Nat := 3

abbrev EncodeSlot := Fin ENCODE_SLOTS

/-- `encode_tex_w_`, `encode_tex_h_`. -/
structure TextureSize where
  width : Nat
  height : Nat
deriving DecidableEq, Repr

/-- What is seen in a texture. -/
inductive TextureContent where
  | blank
  /-- The copy of a picture is under way. -/
  | torn
  | picture (n : Nat)
  /-- A picture of another size than the texture, or one that was not seen when it was drawn. -/
  | misfit (n : Nat)
deriving DecidableEq, Repr

structure EncodeTexture where
  size : TextureSize
  content : TextureContent := .blank
deriving DecidableEq, Repr

/-- A picture the capture has delivered. -/
structure CapturedPicture where
  number : Nat
  /-- `cap_w`, `cap_h`. -/
  captured : TextureSize
  /-- `tex_w`, `tex_h`. -/
  size : TextureSize
  /-- A shader can read the capture's own texture. -/
  readable : Bool
  nowUs : Int
deriving DecidableEq, Repr

def CapturedPicture.needsScale (pic : CapturedPicture) : Bool := pic.size ≠ pic.captured

/-- Where the capture thread is with a picture. -/
inductive CapturePhase where
  | idle
  /-- In front of the textures of another size. -/
  | resizing (pic : CapturedPicture)
  | picking (pic : CapturedPicture)
  | copying (pic : CapturedPicture) (slot : EncodeSlot)
  /-- In the middle of the copy. -/
  | finishing (pic : CapturedPicture) (slot : EncodeSlot)
  | publishing (pic : CapturedPicture) (slot : EncodeSlot)
deriving DecidableEq, Repr

/-- What becomes of the creation of textures of another size. -/
structure CreationAnswer where
  /-- The slot that gets no texture or, with the flag, no render target for it. -/
  failure : Option (EncodeSlot × Bool) := none
  /-- `scale_src_tex_` and its view. -/
  sourceOk : Bool := true
  /-- `init_scale_pipeline`. -/
  pipelineOk : Bool := true
deriving DecidableEq, Repr

/-- Where the encode thread is. -/
inductive EncodePhase where
  | waiting
  /-- In front of the encoder. -/
  | preparing (slot : EncodeSlot) (ts : Int)
  | encoding (slot : EncodeSlot) (ts : Int) (size : TextureSize) (forceKeyframe : Bool)
  | releasing
  | exited
deriving DecidableEq, Repr

inductive EncodeEvent where
  | resized
  /-- The textures are not prepared for a picture: something could not be created, or was not, as
  they were made for another scale. -/
  | unprepared
  /-- Picture `n` is there for the encode thread, in this slot. -/
  | published (n : Nat) (slot : EncodeSlot)
  /-- The encode thread takes a slot; it sees this in its texture. -/
  | taken (slot : EncodeSlot) (texture : Option EncodeTexture)
  /-- The encoder has read the texture; it has seen this in it. -/
  | encoded (texture : Option EncodeTexture) (ts : Int) (size : TextureSize) (forceKeyframe : Bool)
deriving DecidableEq, Repr

structure EncodeSlots where
  textures : EncodeSlot → Option EncodeTexture := fun _ => none
  /-- The slots with a render target (`encode_rtvs_`). -/
  targets : EncodeSlot → Bool := fun _ => false
  /-- The size of `scale_src_tex_`. -/
  scaleSource : Option TextureSize := none
  scalePipelineReady : Bool := false
  size : TextureSize := ⟨0, 0⟩
  writeSlot : EncodeSlot := 0
  readySlot : Option EncodeSlot := none
  activeSlot : Option EncodeSlot := none
  /-- The newest picture, which is encoded again when a keyframe is asked for. -/
  lastSlot : Option EncodeSlot := none
  readyTs : Int := 0
  sharing : Bool := true
  running : Bool := true
  keyframeRequested : Bool := false
  capture : CapturePhase := .idle
  encode : EncodePhase := .waiting
  admitted : Nat := 0

namespace EncodeSlots

/-! ### The capture thread -/

/-- `(x + 1) & ~1u`. -/
def evenUp (x : Nat) : Nat := (x + 1) / 2 * 2

/-- `scale_factors`, in quarters. -/
def scaleQuarters (shareScale : Int) : Nat :=
  if shareScale ≤ 0 then 4 else if shareScale = 1 then 3 else if shareScale = 2 then 2 else 1

/-- One side of the texture. No texture has a side at which the product of floats is inexact. -/
def scaledSide (captured quarters : Nat) : Nat :=
  let scaled := evenUp (captured * quarters / 4)
  if scaled < 64 then 64 else scaled

def capturedSize (desc : TextureSize) : TextureSize :=
  { width := evenUp desc.width, height := evenUp desc.height }

def textureSize (captured : TextureSize) (shareScale : Int) : TextureSize :=
  { width := scaledSide captured.width (scaleQuarters shareScale)
    height := scaledSide captured.height (scaleQuarters shareScale) }

/-- The callback up to its first lock; a picture that comes while it runs waits outside. -/
def admitFrame (s : EncodeSlots) (desc : TextureSize) (shareScale : Int) (readable : Bool)
    (nowUs : Int) : EncodeSlots :=
  if s.sharing && decide (s.capture = .idle) && decide (64 ≤ desc.width ∧ 64 ≤ desc.height) then
    let pic : CapturedPicture :=
      { number := s.admitted
        captured := capturedSize desc
        size := textureSize (capturedSize desc) shareScale
        readable
        nowUs }
    { s with
      admitted := s.admitted + 1
      capture := if s.size = pic.size then .picking pic else .resizing pic }
  else s

/-- The textures behind a failure at a slot: the ones in front of it are new, those behind it are
still there. The flag tells that the slot itself has its texture, but no view of it. -/
def texturesBehindFailure (textures : EncodeSlot → Option EncodeTexture) (size : TextureSize)
    (failedAt : EncodeSlot) (textureCreated : Bool) (slot : EncodeSlot) : Option EncodeTexture :=
  if slot < failedAt then some { size }
  else if slot = failedAt then if textureCreated then some { size } else none
  else textures slot

def targetsBehindFailure (targets : EncodeSlot → Bool) (needsScale : Bool) (failedAt : EncodeSlot)
    (slot : EncodeSlot) : Bool :=
  if slot < failedAt then needsScale else if slot = failedAt then false else targets slot

/-- The textures are created anew, with what a scaled picture takes. On a failure of a texture the
callback gives the picture up; what else fails it does not look at. -/
def recreateTextures (s : EncodeSlots) (pic : CapturedPicture) (answer : CreationAnswer) :
    EncodeSlots × List EncodeEvent :=
  match answer.failure with
  | some (failedAt, textureCreated) =>
    ({ s with textures := texturesBehindFailure s.textures pic.size failedAt textureCreated,
              targets := targetsBehindFailure s.targets pic.needsScale failedAt,
              capture := .idle }, [.unprepared])
  | none =>
    let s := { s with
      textures := fun _ => some { size := pic.size }
      targets := fun _ => pic.needsScale
      size := pic.size
      writeSlot := 0
      readySlot := none
      lastSlot := none
      capture := .picking pic }
    if pic.needsScale then
      ({ s with
        scaleSource := if answer.sourceOk then some pic.captured else none
        scalePipelineReady := s.scalePipelineReady || answer.pipelineOk }, [.resized])
    else (s, [.resized])

/-- The picture is drawn and not copied. -/
def draws (s : EncodeSlots) (pic : CapturedPicture) : Bool :=
  pic.needsScale && s.scalePipelineReady

/-- What is drawn is the whole picture. -/
def sees (s : EncodeSlots) (pic : CapturedPicture) : Bool :=
  pic.readable || decide (s.scaleSource = some pic.captured)

/-- The picture gets into the texture of the slot, whole. -/
def Prepared (s : EncodeSlots) (pic : CapturedPicture) (slot : EncodeSlot) : Prop :=
  pic.needsScale = true →
    s.scalePipelineReady = true ∧ s.targets slot = true ∧ s.sees pic = true

instance (s : EncodeSlots) (pic : CapturedPicture) (slot : EncodeSlot) :
    Decidable (s.Prepared pic slot) := inferInstanceAs (Decidable (_ → _ ∧ _ ∧ _))

/-- The slot to write is picked. -/
def pickSlot (s : EncodeSlots) (pic : CapturedPicture) : EncodeSlots × List EncodeEvent :=
  ({ s with capture := .copying pic s.writeSlot },
    if s.Prepared pic s.writeSlot then [] else [.unprepared])

/-- Without a render target nothing is drawn. -/
def touches (s : EncodeSlots) (pic : CapturedPicture) (slot : EncodeSlot) : Bool :=
  !s.draws pic || s.targets slot

/-- The texture in the middle of the copy. -/
def withHalf (s : EncodeSlots) (pic : CapturedPicture) (slot : EncodeSlot)
    (texture : EncodeTexture) : EncodeTexture :=
  if s.touches pic slot then { texture with content := .torn } else texture

/-- The texture behind the copy. -/
def withPicture (s : EncodeSlots) (pic : CapturedPicture) (slot : EncodeSlot)
    (texture : EncodeTexture) : EncodeTexture :=
  let whole := if s.draws pic then texture.size = pic.size ∧ s.sees pic = true
    else texture.size = pic.captured
  if s.touches pic slot then
    { texture with content := if whole then .picture pic.number else .misfit pic.number }
  else texture

/-- The slot to write next: the first that is neither `ready` nor active. -/
def nextWriteSlot (s : EncodeSlots) (ready : EncodeSlot) : EncodeSlot :=
  ((List.finRange ENCODE_SLOTS).find? fun i => decide (i ≠ ready ∧ some i ≠ s.activeSlot)).getD
    s.writeSlot

def publish (s : EncodeSlots) (pic : CapturedPicture) (slot : EncodeSlot) :
    EncodeSlots × List EncodeEvent :=
  ({ s with readySlot := some slot, lastSlot := some slot, readyTs := pic.nowUs,
            writeSlot := s.nextWriteSlot slot, capture := .idle }, [.published pic.number slot])

def captureStep (s : EncodeSlots) (answer : CreationAnswer) : EncodeSlots × List EncodeEvent :=
  match s.capture with
  | .idle => (s, [])
  | .resizing pic =>
    if s.activeSlot.isSome then (s, []) else s.recreateTextures pic answer
  | .picking pic => s.pickSlot pic
  | .copying pic slot =>
    ({ s with
      textures := Function.update s.textures slot ((s.textures slot).map (s.withHalf pic slot))
      capture := .finishing pic slot }, [])
  | .finishing pic slot =>
    ({ s with
      textures := Function.update s.textures slot ((s.textures slot).map (s.withPicture pic slot))
      capture := .publishing pic slot }, [])
  | .publishing pic slot => s.publish pic slot

/-! ### Keyframe requests -/

/-- `bridge.request_keyframe`: a static screen delivers no pictures, so the newest one is encoded
again. -/
def requestKeyframe (s : EncodeSlots) (nowUs : Int) : EncodeSlots :=
  let s := { s with keyframeRequested := true }
  if s.sharing && s.running && s.readySlot.isNone && s.activeSlot.isNone && s.lastSlot.isSome then
    { s with readySlot := s.lastSlot, readyTs := nowUs }
  else s

/-! ### The encode thread -/

def takeReady (s : EncodeSlots) : EncodeSlots × List EncodeEvent :=
  if !s.running then ({ s with encode := .exited }, [])
  else
    match s.readySlot with
    | none => (s, [])
    | some slot =>
      ({ s with readySlot := none, activeSlot := some slot,
                encode := .preparing slot s.readyTs }, [.taken slot (s.textures slot)])

/-- The encoder is prepared and the keyframe requests are collected; `coreAsks` is
`take_video_keyframe_request`. -/
def prepareEncoder (s : EncodeSlots) (slot : EncodeSlot) (ts : Int) (initOk coreAsks : Bool) :
    EncodeSlots :=
  if initOk then
    { s with keyframeRequested := false,
             encode := .encoding slot ts s.size (coreAsks || s.keyframeRequested) }
  else { s with encode := .releasing }

def encodeStep (s : EncodeSlots) (initOk coreAsks : Bool) : EncodeSlots × List EncodeEvent :=
  match s.encode with
  | .waiting => s.takeReady
  | .preparing slot ts => (s.prepareEncoder slot ts initOk coreAsks, [])
  | .encoding slot ts size forceKeyframe =>
    ({ s with encode := .releasing }, [.encoded (s.textures slot) ts size forceKeyframe])
  | .releasing => ({ s with activeSlot := none, encode := .waiting }, [])
  | .exited => (s, [])

end EncodeSlots

/-! ### Runs -/

inductive EncodeOp where
  /-- The capture delivers a picture that is admitted. -/
  | admitFrame (desc : TextureSize) (shareScale : Int) (readable : Bool) (nowUs : Int)
  | captureThread (answer : CreationAnswer)
  | requestKeyframe (nowUs : Int)
  | encodeThread (initOk coreAsks : Bool)
  /-- `stop_screen_share`, up to the capture and up to the encode thread. -/
  | stopSharing
  | stopEncoding
deriving DecidableEq, Repr

namespace EncodeSlots

def step (s : EncodeSlots) : EncodeOp → EncodeSlots × List EncodeEvent
  | .admitFrame desc shareScale readable nowUs => (s.admitFrame desc shareScale readable nowUs, [])
  | .captureThread answer => s.captureStep answer
  | .requestKeyframe nowUs => (s.requestKeyframe nowUs, [])
  | .encodeThread initOk coreAsks => s.encodeStep initOk coreAsks
  | .stopSharing => ({ s with sharing := false }, [])
  | .stopEncoding => (if s.sharing then s else { s with running := false }, [])

/-- The textures and the events of a run since the start of the share. -/
def run (ops : List EncodeOp) : EncodeSlots × List EncodeEvent :=
  Machine.run (Machine.logged step) ({}, []) ops

end EncodeSlots

end Parties.Video

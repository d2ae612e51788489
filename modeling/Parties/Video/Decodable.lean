import Parties.Video.Common

/-!
# Decodable streams

What the video path is for, without its buffers: a decoder starts at a keyframe
and after that takes either the successor of the frame it decoded last or a
later keyframe. A stage of the path is correct when the frames it hands on are
such a chain. The state of the chain is the number of the last frame, `none`
while a keyframe is awaited, so that the outputs of consecutive steps compose.
-/

namespace Parties.Video

/-- `hdr` can be decoded after the frame numbered `last`. -/
def Follows (last : BitVec 32) (hdr : VideoFrameHeader) : Prop :=
  videoSeqNewer hdr.frameSeq last = true ∧ (hdr.keyframe = false → hdr.frameSeq = last + 1)

/-- What a decoder can take next: a keyframe, or what follows the last frame. -/
def Accepts : Option (BitVec 32) → VideoFrameHeader → Prop
  | none, hdr => hdr.keyframe = true
  | some last, hdr => Follows last hdr

/-- The frames `hdrs` take a decoder from chain state `a` to chain state `a'`. -/
def ChainPath : Option (BitVec 32) → List VideoFrameHeader → Option (BitVec 32) → Prop
  | a, [], a' => a = a'
  | a, hdr :: hdrs, a' => Accepts a hdr ∧ ChainPath (some hdr.frameSeq) hdrs a'

/-- A sequence of frames a fresh decoder can decode to the end. -/
structure DecodableChain (hdrs : List VideoFrameHeader) : Prop where
  startsAtKeyframe : ∀ hdr ∈ hdrs.head?, hdr.keyframe = true
  follows : hdrs.IsChain fun previous hdr => Follows previous.frameSeq hdr

@[simp] theorem chainPath_nil {a a' : Option (BitVec 32)} : ChainPath a [] a' ↔ a = a' := Iff.rfl

@[simp] theorem chainPath_cons {a a' : Option (BitVec 32)} {hdr : VideoFrameHeader}
    {hdrs : List VideoFrameHeader} :
    ChainPath a (hdr :: hdrs) a' ↔ Accepts a hdr ∧ ChainPath (some hdr.frameSeq) hdrs a' :=
  Iff.rfl

theorem chainPath_append {a a'' : Option (BitVec 32)} {xs ys : List VideoFrameHeader} :
    ChainPath a (xs ++ ys) a'' ↔ ∃ a', ChainPath a xs a' ∧ ChainPath a' ys a'' := by
  induction xs generalizing a with
  | nil => simp
  | cons x xs ih => simp [ih, and_assoc]

/-- A decoder that has started never waits for a first keyframe again. -/
theorem not_chainPath_none {last : BitVec 32} {hdrs : List VideoFrameHeader} :
    ¬ ChainPath (some last) hdrs none := by
  induction hdrs generalizing last with
  | nil => simp
  | cons hdr hdrs ih => exact fun h => ih h.2

theorem chainPath_prefix {a a' : Option (BitVec 32)} {xs ys : List VideoFrameHeader}
    (h : ChainPath a ys a') (hpre : xs <+: ys) : ∃ a'', ChainPath a xs a'' := by
  obtain ⟨rest, rfl⟩ := hpre
  obtain ⟨a'', hxs, _⟩ := chainPath_append.mp h
  exact ⟨a'', hxs⟩

/-- The successor of the last frame can always be decoded. -/
theorem follows_succ {last : BitVec 32} {hdr : VideoFrameHeader} (h : hdr.frameSeq = last + 1) :
    Follows last hdr := by
  refine ⟨?_, fun _ => h⟩
  rw [videoSeqNewer_iff, videoSeqDistance_eq_one_iff.mpr h]
  decide

/-- So can every newer keyframe. -/
theorem follows_keyframe {last : BitVec 32} {hdr : VideoFrameHeader} (hkey : hdr.keyframe = true)
    (hnewer : videoSeqNewer hdr.frameSeq last = true) : Follows last hdr := by
  refine ⟨hnewer, fun hdelta => ?_⟩
  rw [hkey] at hdelta
  cases hdelta

private theorem isChain_cons_of_path {previous : VideoFrameHeader}
    {hdrs : List VideoFrameHeader} {a' : Option (BitVec 32)}
    (h : ChainPath (some previous.frameSeq) hdrs a') :
    (previous :: hdrs).IsChain fun previous hdr => Follows previous.frameSeq hdr := by
  induction hdrs generalizing previous with
  | nil => exact List.IsChain.singleton _
  | cons hdr hdrs ih =>
      exact List.isChain_cons_cons.mpr ⟨h.1, ih h.2⟩

/-- What a path from the waiting state delivers is decodable. -/
theorem DecodableChain.of_path {hdrs : List VideoFrameHeader} {a' : Option (BitVec 32)}
    (h : ChainPath none hdrs a') : DecodableChain hdrs := by
  cases hdrs with
  | nil => exact ⟨by simp, List.IsChain.nil⟩
  | cons hdr hdrs =>
      refine ⟨fun first hfirst => ?_, isChain_cons_of_path h.2⟩
      obtain rfl : hdr = first := by simpa using hfirst
      exact h.1

end Parties.Video

import Mathlib.Data.List.Induction
import Parties.Video.EncodeSlots

/-!
# Which pictures are encoded

The slot that is written is neither the one that is ready nor the one that is encoded, nor the
one that a keyframe request would make ready: so a texture does not change between the moment
it is taken and the moment the encoder has read it. What is taken is the slot of the newest
picture. All of this is an invariant of the three threads' steps in any order; a picture that the
textures were not prepared for spoils what is in the slots, but neither who owns them nor who is
handed them. So what is seen in a slot has its condition, and that it is taken has none.
-/

namespace Parties.Video

/-! ### The law -/

/-- The picture published last. -/
def newest (log : List EncodeEvent) : Option Nat :=
  log.foldl (fun last e => match e with
    | .published n _ => some n
    | _ => last) none

/-- The slot it is in. -/
def newestSlot (log : List EncodeEvent) : Option EncodeSlot :=
  log.foldl (fun last e => match e with
    | .published _ slot => some slot
    | _ => last) none

/-- The picture published last, as long as the encode thread has taken none since. -/
def untaken (log : List EncodeEvent) : Option Nat :=
  log.foldl (fun last e => match e with
    | .published n _ => some n
    | .taken _ _ => none
    | _ => last) none

/-- The slot the encode thread took last. -/
def lastTakenSlot (log : List EncodeEvent) : Option EncodeSlot :=
  log.foldl (fun last e => match e with
    | .taken slot _ => some slot
    | _ => last) none

/-- What it has seen in its texture. -/
def lastTaken (log : List EncodeEvent) : Option (Option EncodeTexture) :=
  log.foldl (fun last e => match e with
    | .taken _ texture => some texture
    | _ => last) none

/-- What holds of the pictures, given the events in front. -/
def PicturesInOrder (front : List EncodeEvent) : EncodeEvent → Prop
  | .published n _ => ∀ m ∈ newest front, m < n
  | .taken slot texture => newestSlot front = some slot ∧ (.unprepared ∉ front →
      ∃ size n, texture = some ⟨size, .picture n⟩ ∧ newest front = some n)
  | .encoded texture _ size _ => lastTaken front = some texture ∧
      (∀ t ∈ texture, t.content ≠ .torn) ∧
      (.unprepared ∉ front → ∃ n, texture = some ⟨size, .picture n⟩)
  | .resized | .unprepared => True

@[simp] theorem newest_concat (log : List EncodeEvent) (e : EncodeEvent) :
    newest (log ++ [e]) = match e with
      | .published n _ => some n
      | _ => newest log := by
  rw [newest, List.foldl_append]
  rfl

@[simp] theorem newestSlot_concat (log : List EncodeEvent) (e : EncodeEvent) :
    newestSlot (log ++ [e]) = match e with
      | .published _ slot => some slot
      | _ => newestSlot log := by
  rw [newestSlot, List.foldl_append]
  rfl

@[simp] theorem untaken_concat (log : List EncodeEvent) (e : EncodeEvent) :
    untaken (log ++ [e]) = match e with
      | .published n _ => some n
      | .taken _ _ => none
      | _ => untaken log := by
  rw [untaken, List.foldl_append]
  rfl

@[simp] theorem lastTakenSlot_concat (log : List EncodeEvent) (e : EncodeEvent) :
    lastTakenSlot (log ++ [e]) = match e with
      | .taken slot _ => some slot
      | _ => lastTakenSlot log := by
  rw [lastTakenSlot, List.foldl_append]
  rfl

@[simp] theorem lastTaken_concat (log : List EncodeEvent) (e : EncodeEvent) :
    lastTaken (log ++ [e]) = match e with
      | .taken _ texture => some texture
      | _ => lastTaken log := by
  rw [lastTaken, List.foldl_append]
  rfl

/-! ### The invariant -/

namespace CapturePhase

/-- The slot the capture thread writes. -/
def slot? : CapturePhase → Option EncodeSlot
  | .copying _ slot | .finishing _ slot | .publishing _ slot => some slot
  | .idle | .resizing _ | .picking _ => none

/-- The picture the capture thread has at hand. -/
def picture? : CapturePhase → Option Nat
  | .resizing pic | .picking pic | .copying pic _ | .finishing pic _ | .publishing pic _ =>
    some pic.number
  | .idle => none

/-- The size of the textures it writes to. -/
def size? : CapturePhase → Option TextureSize
  | .picking pic | .copying pic _ | .finishing pic _ => some pic.size
  | .idle | .resizing _ | .publishing _ _ => none

end CapturePhase

/-- The slot the encode thread reads. -/
def EncodePhase.slot? : EncodePhase → Option EncodeSlot
  | .preparing slot _ | .encoding slot _ _ _ => some slot
  | .waiting | .releasing | .exited => none

theorem EncodeTexture.ext_fields {a b : EncodeTexture} (hsize : a.size = b.size)
    (hcontent : a.content = b.content) : a = b := by
  cases a
  cases b
  cases hsize
  cases hcontent
  rfl

namespace EncodeSlots

variable {s : EncodeSlots} {log : List EncodeEvent}

/-- Who owns which slot. -/
structure Owned (s : EncodeSlots) : Prop where
  ready : s.readySlot ≠ some s.writeSlot
  active : s.activeSlot ≠ some s.writeSlot
  last : s.lastSlot ≠ some s.writeSlot
  written : ∀ slot ∈ s.capture.slot?, slot = s.writeSlot
  read : ∀ slot ∈ s.encode.slot?, s.activeSlot = some slot
  idle : s.encode = .waiting → s.activeSlot = none
  readyLast : ∀ slot ∈ s.readySlot, s.lastSlot = some slot
  size : ∀ slot ts size forceKeyframe, s.encode = .encoding slot ts size forceKeyframe → size = s.size
  resizing : ∀ pic, s.capture = .resizing pic → pic.size ≠ ⟨0, 0⟩
  fits : ∀ size ∈ s.capture.size?, size = s.size ∧ size ≠ ⟨0, 0⟩
  exited : s.encode = .exited → s.running = false

/-- With three slots there is always one to write next. -/
theorem nextWriteSlot_free (s : EncodeSlots) (ready : EncodeSlot) :
    s.nextWriteSlot ready ≠ ready ∧ some (s.nextWriteSlot ready) ≠ s.activeSlot := by
  unfold nextWriteSlot
  cases s.activeSlot with
  | none =>
    have hfree : ∀ ready write : EncodeSlot, ((List.finRange ENCODE_SLOTS).find? fun i =>
        decide (i ≠ ready ∧ some i ≠ none)).getD write ≠ ready := by decide
    exact ⟨hfree ready s.writeSlot, nofun⟩
  | some active =>
    have hfree : ∀ active ready write : EncodeSlot, ((List.finRange ENCODE_SLOTS).find? fun i =>
        decide (i ≠ ready ∧ some i ≠ some active)).getD write ≠ ready ∧
          some (((List.finRange ENCODE_SLOTS).find? fun i =>
            decide (i ≠ ready ∧ some i ≠ some active)).getD write) ≠ some active := by decide
    exact hfree active ready s.writeSlot

theorem withHalf_size (s : EncodeSlots) (pic : CapturedPicture) (slot : EncodeSlot)
    (texture : EncodeTexture) : (s.withHalf pic slot texture).size = texture.size := by
  unfold withHalf
  split <;> rfl

theorem withPicture_size (s : EncodeSlots) (pic : CapturedPicture) (slot : EncodeSlot)
    (texture : EncodeTexture) : (s.withPicture pic slot texture).size = texture.size := by
  unfold withPicture
  dsimp only
  split <;> rfl

/-- A texture that is written is not torn behind the copy. -/
theorem withPicture_content {pic : CapturedPicture} {slot : EncodeSlot}
    (htouches : s.touches pic slot = true) (texture : EncodeTexture) :
    (s.withPicture pic slot texture).content ≠ .torn := by
  unfold withPicture
  dsimp only
  rw [if_pos htouches]
  split <;> split <;> simp

/-- With everything prepared the whole picture is in the texture behind the copy. -/
theorem withPicture_prepared {pic : CapturedPicture} {slot : EncodeSlot}
    (hprepared : s.Prepared pic slot) (content : TextureContent) :
    s.withPicture pic slot ⟨pic.size, content⟩ = ⟨pic.size, .picture pic.number⟩ := by
  unfold withPicture touches draws
  dsimp only
  cases hscale : pic.needsScale with
  | false =>
    have hsize : pic.size = pic.captured := by simpa [CapturedPicture.needsScale] using hscale
    simp [hsize]
  | true =>
    obtain ⟨hready, htarget, hsees⟩ := hprepared hscale
    simp [hready, htarget, hsees]

/-- What the slots hold as long as every picture has found its textures prepared. -/
structure Intact (s : EncodeSlots) (log : List EncodeEvent) : Prop where
  textures : ∀ slot, s.size ≠ ⟨0, 0⟩ → ∃ content, s.textures slot = some ⟨s.size, content⟩
  prepared : ∀ pic slot, s.capture = .copying pic slot ∨ s.capture = .finishing pic slot →
    s.Prepared pic slot
  copied : ∀ pic slot, s.capture = .publishing pic slot →
    s.textures slot = some ⟨s.size, .picture pic.number⟩
  last : ∀ slot ∈ s.lastSlot, ∃ n, s.textures slot = some ⟨s.size, .picture n⟩ ∧
    newest log = some n
  active : ∀ slot ∈ s.encode.slot?, ∃ n, s.textures slot = some ⟨s.size, .picture n⟩
  fresh : s.capture.slot? = none → s.capture.size? = none → s.readySlot = none →
    ∀ n ∈ newest log, ∃ size, lastTaken log = some (some ⟨size, .picture n⟩)

/-- What is handed over from thread to thread, whatever the textures hold. -/
structure Handed (s : EncodeSlots) (log : List EncodeEvent) : Prop where
  last : ∀ slot ∈ s.lastSlot, newestSlot log = some slot
  waits : s.capture.slot? = none → s.capture.size? = none → s.readySlot = none →
    untaken log = none

/-- Events that tell of no picture. -/
theorem Handed.notes {e : EncodeEvent} (h : Handed s log) (hslot : newestSlot (log ++ [e]) = newestSlot log)
    (htaken : untaken (log ++ [e]) = untaken log) : Handed s (log ++ [e]) where
  last := fun slot hs => hslot.trans (h.last slot hs)
  waits := fun hs hz hnone => htaken.trans (h.waits hs hz hnone)

structure Staged (s : EncodeSlots) (log : List EncodeEvent) : Prop where
  law : EventLog.Law PicturesInOrder log
  owned : s.Owned
  handed : s.Handed log
  torn : ∀ slot texture, s.textures slot = some texture → texture.content = .torn →
    ∃ pic, s.capture = .finishing pic slot ∧ s.touches pic slot = true
  seen : ∀ slot ∈ s.encode.slot?, lastTaken log = some (s.textures slot)
  numbered : (∀ n ∈ s.capture.picture?, n < s.admitted ∧ ∀ m ∈ newest log, m < n) ∧
    ∀ m ∈ newest log, m < s.admitted
  intact : .unprepared ∉ log → s.Intact log

namespace Staged

/-! ### The capture thread -/

/-- Outside of the copy no texture is torn. -/
theorem not_torn (h : Staged s log) (hphase : ∀ pic slot, s.capture ≠ .finishing pic slot)
    {slot : EncodeSlot} {texture : EncodeTexture} (htexture : s.textures slot = some texture) :
    texture.content ≠ .torn := by
  intro htorn
  obtain ⟨pic, hfinishing, -⟩ := h.torn slot texture htexture htorn
  exact hphase pic slot hfinishing

/-- The capture thread goes on without a touch of the slots. -/
theorem moves (h : Staged s log) (capture : CapturePhase) {admitted : Nat}
    (hphase : ∀ pic slot, s.capture ≠ .finishing pic slot)
    (hwritten : ∀ slot ∈ capture.slot?, slot = s.writeSlot)
    (hadmitted : s.admitted ≤ admitted)
    (hpicture : ∀ n ∈ capture.picture?, n < admitted ∧ ∀ m ∈ newest log, m < n)
    (hfits : ∀ size ∈ capture.size?, size = s.size ∧ size ≠ ⟨0, 0⟩)
    (hresizing : ∀ pic, capture = .resizing pic → pic.size ≠ ⟨0, 0⟩)
    (hprepared : .unprepared ∉ log → ∀ pic slot,
      capture = .copying pic slot ∨ capture = .finishing pic slot → s.Prepared pic slot)
    (hcopied : ∀ pic slot, capture ≠ .publishing pic slot)
    (hfresh : capture.slot? = none → capture.size? = none →
      s.capture.slot? = none ∧ s.capture.size? = none) :
    Staged { s with capture, admitted } log := by
  have hhanded : Handed { s with capture, admitted } log :=
    { h.handed with waits := fun hs hz => h.handed.waits (hfresh hs hz).1 (hfresh hs hz).2 }
  refine ⟨h.law, { h.owned with written := hwritten, resizing := hresizing, fits := hfits }, hhanded,
    fun slot texture ht htorn => absurd htorn (h.not_torn hphase ht), h.seen,
    ⟨hpicture, fun m hm => Nat.lt_of_lt_of_le (h.numbered.2 m hm) hadmitted⟩, fun hintact => ?_⟩
  have hin := h.intact hintact
  exact { hin with
    prepared := hprepared hintact
    copied := fun pic slot hpublishing => absurd hpublishing (hcopied pic slot)
    fresh := fun hs hz => hin.fresh (hfresh hs hz).1 (hfresh hs hz).2 }

theorem textureSize_ne_zero (captured : TextureSize) (shareScale : Int) :
    textureSize captured shareScale ≠ ⟨0, 0⟩ := by
  intro hzero
  have hwidth := congrArg TextureSize.width hzero
  simp only [textureSize, scaledSide] at hwidth
  split at hwidth <;> omega

theorem admitFrame (h : Staged s log) (desc : TextureSize) (shareScale : Int) (readable : Bool)
    (nowUs : Int) : Staged (s.admitFrame desc shareScale readable nowUs) log := by
  have hnumber : ∀ n, s.admitted = n → n < s.admitted + 1 ∧ ∀ m ∈ newest log, m < n := by
    rintro n rfl
    exact ⟨Nat.lt_succ_self _, h.numbered.2⟩
  unfold EncodeSlots.admitFrame
  split
  next hadmitted =>
    have hidle : s.capture = .idle := by
      rw [Bool.and_eq_true, Bool.and_eq_true, decide_eq_true_iff] at hadmitted
      exact hadmitted.1.2
    have hnot : s.capture.slot? = none ∧ s.capture.size? = none := by
      rw [hidle]
      exact ⟨rfl, rfl⟩
    have hsize := textureSize_ne_zero (capturedSize desc) shareScale
    extract_lets pic
    by_cases hsame : s.size = pic.size
    · rw [if_pos hsame]
      refine h.moves _ (by simp [hidle]) nofun (Nat.le_succ _)
        (fun n hn => hnumber n (Option.some.inj hn)) ?_ nofun (fun _ => by simp) nofun
        fun _ _ => hnot
      intro size hpic
      obtain rfl := Option.some.inj hpic
      exact ⟨hsame.symm, hsize⟩
    · rw [if_neg hsame]
      refine h.moves _ (by simp [hidle]) nofun (Nat.le_succ _)
        (fun n hn => hnumber n (Option.some.inj hn)) nofun ?_ (fun _ => by simp) nofun
        fun _ _ => hnot
      intro other hresizing
      obtain rfl := CapturePhase.resizing.inj hresizing
      exact hsize
  · exact h

/-- All textures are new, and the encode thread is at none of them. -/
theorem resized (h : Staged s log) {pic : CapturedPicture} (hphase : s.capture = .resizing pic)
    (hinactive : s.activeSlot = none) (hunread : s.encode.slot? = none)
    (scaleSource : Option TextureSize) (scalePipelineReady : Bool) :
    Staged { s with
      textures := fun _ => some { size := pic.size }
      targets := fun _ => pic.needsScale
      size := pic.size
      writeSlot := 0
      readySlot := none
      lastSlot := none
      capture := .picking pic
      scaleSource
      scalePipelineReady } (log ++ [.resized]) := by
  have hencoding : ∀ slot ts size forceKeyframe,
      s.encode ≠ .encoding slot ts size forceKeyframe := by
    intro slot ts size forceKeyframe hencode
    rw [hencode] at hunread
    cases hunread
  have hsize := h.owned.resizing pic hphase
  refine ⟨EventLog.law_concat.mpr ⟨h.law, trivial⟩, ?_, ⟨nofun, nofun⟩, ?_, ?_, ?_,
    fun hintact => ?_⟩
  · exact ⟨nofun, by simp [hinactive], nofun, nofun, h.owned.read, h.owned.idle, nofun,
      fun slot ts size forceKeyframe hencode => (hencoding _ _ _ _ hencode).elim, nofun,
      fun _ hs => Option.some.inj hs ▸ ⟨rfl, hsize⟩, h.owned.exited⟩
  · intro slot texture htexture htorn
    obtain rfl := Option.some.inj htexture
    cases htorn
  · intro slot hslot
    rw [hunread] at hslot
    cases hslot
  · rw [newest_concat]
    refine ⟨fun m hm => h.numbered.1 m ?_, h.numbered.2⟩
    rw [hphase]
    exact hm
  · refine ⟨fun slot _ => ⟨.blank, rfl⟩, fun _ _ => by simp, nofun, nofun, fun slot hslot => ?_,
      nofun⟩
    rw [hunread] at hslot
    cases hslot

theorem recreateTextures (h : Staged s log) {pic : CapturedPicture}
    (hphase : s.capture = .resizing pic) (hinactive : s.activeSlot = none)
    (answer : CreationAnswer) :
    Staged (s.recreateTextures pic answer).1 (log ++ (s.recreateTextures pic answer).2) := by
  have hfinishing : ∀ pic slot, s.capture ≠ .finishing pic slot := by simp [hphase]
  have hunread : s.encode.slot? = none := by
    cases hslot : s.encode.slot? with
    | none => rfl
    | some slot =>
      have hactive := h.owned.read slot hslot
      rw [hinactive] at hactive
      cases hactive
  unfold EncodeSlots.recreateTextures
  cases answer.failure with
  | none =>
    dsimp only
    split
    · exact h.resized hphase hinactive hunread _ _
    · exact h.resized hphase hinactive hunread s.scaleSource s.scalePipelineReady
  | some failure =>
    obtain ⟨failedAt, textureCreated⟩ := failure
    have howned : Owned { s with
        textures := texturesBehindFailure s.textures pic.size failedAt textureCreated
        targets := targetsBehindFailure s.targets pic.needsScale failedAt
        capture := .idle } :=
      { h.owned with written := nofun, resizing := nofun, fits := nofun }
    have hhanded : Handed { s with
        textures := texturesBehindFailure s.textures pic.size failedAt textureCreated
        targets := targetsBehindFailure s.targets pic.needsScale failedAt
        capture := .idle } log :=
      { h.handed with
        waits := fun _ _ => h.handed.waits (by rw [hphase]; rfl) (by rw [hphase]; rfl) }
    refine ⟨EventLog.law_concat.mpr ⟨h.law, trivial⟩, howned,
      hhanded.notes (newestSlot_concat ..) (untaken_concat ..), ?_, ?_, ?_, fun hintact => ?_⟩
    · intro slot texture htexture htorn
      dsimp only [texturesBehindFailure] at htexture
      split_ifs at htexture
      · obtain rfl := Option.some.inj htexture
        cases htorn
      · obtain rfl := Option.some.inj htexture
        cases htorn
      · exact absurd htorn (h.not_torn hfinishing htexture)
    · intro slot hslot
      rw [hunread] at hslot
      cases hslot
    · rw [newest_concat]
      exact ⟨nofun, h.numbered.2⟩
    · exact absurd (List.mem_append_right _ (List.mem_singleton.mpr rfl)) hintact

/-- An event that tells of no picture. -/
theorem notes (h : Staged s log) : Staged s (log ++ [.unprepared]) where
  law := EventLog.law_concat.mpr ⟨h.law, trivial⟩
  owned := h.owned
  handed := h.handed.notes (newestSlot_concat ..) (untaken_concat ..)
  torn := h.torn
  seen := fun slot hslot => by
    rw [lastTaken_concat]
    exact h.seen slot hslot
  numbered := by
    rw [newest_concat]
    exact h.numbered
  intact := fun hintact =>
    absurd (List.mem_append_right _ (List.mem_singleton.mpr rfl)) hintact

theorem pickSlot (h : Staged s log) {pic : CapturedPicture} (hphase : s.capture = .picking pic) :
    Staged (s.pickSlot pic).1 (log ++ (s.pickSlot pic).2) := by
  have hpick : ∀ {front : List EncodeEvent}, Staged s front →
      (.unprepared ∉ front → s.Prepared pic s.writeSlot) →
        Staged { s with capture := .copying pic s.writeSlot } front := by
    intro front hfront hprepared
    refine hfront.moves _ (by simp [hphase]) (fun slot hs => (Option.some.inj hs).symm)
      (Nat.le_refl _) ?_ ?_ nofun (fun hintact other slot hcopying => ?_) nofun nofun
    · intro m hm
      refine hfront.numbered.1 m ?_
      rw [hphase]
      exact hm
    · intro size hs
      refine hfront.owned.fits size ?_
      rw [hphase]
      exact hs
    · obtain hcopying | hfinishing := hcopying
      · obtain ⟨rfl, rfl⟩ := CapturePhase.copying.inj hcopying
        exact hprepared hintact
      · cases hfinishing
  unfold EncodeSlots.pickSlot
  by_cases hprepared : s.Prepared pic s.writeSlot
  · rw [if_pos hprepared, List.append_nil]
    exact hpick h fun _ => hprepared
  · rw [if_neg hprepared]
    exact hpick h.notes fun hintact =>
      absurd (List.mem_append_right _ (List.mem_singleton.mpr rfl)) hintact

/-- The texture that is written is nobody else's. -/
theorem writes (h : Staged s log) {slot : EncodeSlot} (hslot : slot ∈ s.capture.slot?)
    (texture : Option EncodeTexture) :
    (∀ r ∈ s.lastSlot, Function.update s.textures slot texture r = s.textures r) ∧
      ∀ r ∈ s.encode.slot?, Function.update s.textures slot texture r = s.textures r := by
  obtain rfl := h.owned.written slot hslot
  refine ⟨fun r hr => Function.update_of_ne ?_ _ _, fun r hr => Function.update_of_ne ?_ _ _⟩
  · rintro rfl
    exact h.owned.last hr
  · rintro rfl
    exact h.owned.active (h.owned.read _ hr)

/-- One half of the copy. -/
theorem copies (h : Staged s log) {slot : EncodeSlot} (hslot : slot ∈ s.capture.slot?)
    (capture : CapturePhase) (hslot' : capture.slot? = some slot)
    (hpicture : capture.picture? = s.capture.picture?)
    (hfits : ∀ size ∈ capture.size?, size = s.size ∧ size ≠ ⟨0, 0⟩)
    (hresizing : ∀ pic, capture ≠ .resizing pic)
    (change : EncodeTexture → EncodeTexture)
    (hsize : ∀ texture, (change texture).size = texture.size)
    (htorn : ∀ texture, s.textures slot = some texture → (change texture).content = .torn →
      ∃ pic, capture = .finishing pic slot ∧ s.touches pic slot = true)
    (hfinishing : ∀ pic other, s.capture = .finishing pic other → other = slot)
    (hprepared : .unprepared ∉ log → ∀ pic other,
      capture = .copying pic other ∨ capture = .finishing pic other → s.Prepared pic other)
    (hcopied : .unprepared ∉ log → ∀ pic, capture = .publishing pic slot →
      (s.textures slot).map change = some ⟨s.size, .picture pic.number⟩) :
    Staged { s with textures := Function.update s.textures slot ((s.textures slot).map change)
                    capture } log := by
  obtain ⟨hlast, hread⟩ := h.writes hslot ((s.textures slot).map change)
  obtain rfl := h.owned.written slot hslot
  have howned : Owned { s with
      textures := Function.update s.textures s.writeSlot ((s.textures s.writeSlot).map change)
      capture } :=
    { h.owned with
      written := fun slot hs => (Option.some.inj (hslot'.symm.trans hs)).symm
      resizing := fun pic hr => absurd hr (hresizing pic)
      fits := hfits }
  have hhanded : Handed { s with
      textures := Function.update s.textures s.writeSlot ((s.textures s.writeSlot).map change)
      capture } log :=
    { h.handed with
      waits := fun hnone => by
        rw [hslot'] at hnone
        cases hnone }
  refine ⟨h.law, howned, hhanded, fun slot texture ht htornAt => ?_, fun slot hs => ?_,
    ⟨?_, h.numbered.2⟩,
    fun hintact => ?_⟩
  · dsimp only at ht
    by_cases hw : slot = s.writeSlot
    · subst hw
      rw [Function.update_self] at ht
      obtain ⟨old, hold, rfl⟩ := Option.map_eq_some_iff.mp ht
      exact htorn old hold htornAt
    · rw [Function.update_of_ne hw] at ht
      obtain ⟨pic, hphase, -⟩ := h.torn slot texture ht htornAt
      exact absurd (hfinishing pic slot hphase) hw
  · rw [h.seen slot hs]
    exact congrArg some (hread slot hs).symm
  · rw [hpicture]
    exact h.numbered.1
  · have hin := h.intact hintact
    refine ⟨fun slot hnot => ?_, hprepared hintact, fun pic slot hpublishing => ?_,
      fun slot hs => ?_, fun slot hs => ?_, fun hs => ?_⟩
    · dsimp only at hnot ⊢
      by_cases hw : slot = s.writeSlot
      · subst hw
        obtain ⟨content, hcontent⟩ := hin.textures s.writeSlot hnot
        refine ⟨(change ⟨s.size, content⟩).content, ?_⟩
        rw [Function.update_self, hcontent, Option.map_some]
        exact congrArg some (EncodeTexture.ext_fields (hsize _) rfl)
      · rw [Function.update_of_ne hw]
        exact hin.textures slot hnot
    · dsimp only at hpublishing ⊢
      obtain rfl : slot = s.writeSlot := by
        rw [hpublishing] at hslot'
        exact Option.some.inj hslot'
      rw [Function.update_self]
      exact hcopied hintact pic hpublishing
    · dsimp only
      rw [hlast slot hs]
      exact hin.last slot hs
    · dsimp only
      rw [hread slot hs]
      exact hin.active slot hs
    · rw [hslot'] at hs
      cases hs

theorem beginCopy (h : Staged s log) {pic : CapturedPicture} {slot : EncodeSlot}
    (hphase : s.capture = .copying pic slot) :
    Staged { s with
      textures := Function.update s.textures slot ((s.textures slot).map (s.withHalf pic slot))
      capture := .finishing pic slot } log := by
  have hslot : slot ∈ s.capture.slot? := by
    rw [hphase]
    rfl
  have hpicture : (CapturePhase.finishing pic slot).picture? = s.capture.picture? := by
    rw [hphase]
    rfl
  have hfinishing : ∀ pic slot, s.capture ≠ .finishing pic slot := by simp [hphase]
  refine h.copies hslot (.finishing pic slot) rfl hpicture (fun size hs => h.owned.fits size ?_)
    nofun _ (s.withHalf_size pic slot) (fun texture ht htorn => ⟨pic, rfl, ?_⟩)
    (fun other slot hother => absurd hother (hfinishing other slot))
    (fun hintact other slot hother => ?_) nofun
  · rw [hphase]
    exact hs
  · by_contra huntouched
    rw [withHalf, if_neg huntouched] at htorn
    exact h.not_torn hfinishing ht htorn
  · obtain hcopying | hsame := hother
    · cases hcopying
    · obtain ⟨rfl, rfl⟩ := CapturePhase.finishing.inj hsame
      exact (h.intact hintact).prepared pic slot (.inl hphase)

theorem finishCopy (h : Staged s log) {pic : CapturedPicture} {slot : EncodeSlot}
    (hphase : s.capture = .finishing pic slot) :
    Staged { s with
      textures := Function.update s.textures slot ((s.textures slot).map (s.withPicture pic slot))
      capture := .publishing pic slot } log := by
  have hslot : slot ∈ s.capture.slot? := by
    rw [hphase]
    rfl
  have hpicture : (CapturePhase.publishing pic slot).picture? = s.capture.picture? := by
    rw [hphase]
    rfl
  obtain ⟨hsize, hnot⟩ := h.owned.fits pic.size (by rw [hphase]; rfl)
  refine h.copies hslot (.publishing pic slot) rfl hpicture nofun nofun _
    (s.withPicture_size pic slot) (fun texture ht htorn => ?_) (fun other slot' hother => ?_)
    (fun _ _ _ hother => by simp at hother) fun hintact other hpublishing => ?_
  · -- the texture has been torn by this copy, which has written it
    cases htouches : s.touches pic slot with
    | true => exact absurd htorn (s.withPicture_content htouches texture)
    | false =>
      rw [withPicture, if_neg (by simp [htouches])] at htorn
      obtain ⟨other, hother, htouched⟩ := h.torn slot texture ht htorn
      rw [hphase] at hother
      obtain ⟨rfl, -⟩ := CapturePhase.finishing.inj hother
      rw [htouches] at htouched
      cases htouched
  · rw [hphase] at hother
    exact (CapturePhase.finishing.inj hother).2.symm
  · obtain ⟨rfl, -⟩ := CapturePhase.publishing.inj hpublishing
    have hin := h.intact hintact
    obtain ⟨content, hcontent⟩ := hin.textures slot (hsize ▸ hnot)
    rw [hcontent, Option.map_some, ← hsize,
      s.withPicture_prepared (hin.prepared pic slot (.inr hphase))]

theorem publish (h : Staged s log) {pic : CapturedPicture} {slot : EncodeSlot}
    (hphase : s.capture = .publishing pic slot) :
    Staged (s.publish pic slot).1 (log ++ (s.publish pic slot).2) := by
  obtain ⟨hready, hactive⟩ := s.nextWriteSlot_free slot
  have hpicture : pic.number ∈ s.capture.picture? := by
    rw [hphase]
    rfl
  obtain ⟨hadmitted, hnewer⟩ := h.numbered.1 pic.number hpicture
  have howned : Owned (s.publish pic slot).1 :=
    { h.owned with
      ready := fun heq => hready (Option.some.inj heq).symm
      active := fun heq => hactive heq.symm
      last := fun heq => hready (Option.some.inj heq).symm
      written := nofun
      readyLast := fun _ hr => hr
      resizing := nofun
      fits := nofun }
  show Staged (s.publish pic slot).1 (log ++ [.published pic.number slot])
  have hhanded : Handed (s.publish pic slot).1 (log ++ [.published pic.number slot]) :=
    ⟨fun r hr => (newestSlot_concat ..).trans hr, nofun⟩
  refine ⟨EventLog.law_concat.mpr ⟨h.law, hnewer⟩, howned, hhanded, fun r texture ht htorn => ?_,
    fun r hr => ?_, ⟨nofun, ?_⟩, fun hintact => ?_⟩
  · obtain ⟨other, hfinishing, -⟩ := h.torn r texture ht htorn
    rw [hphase] at hfinishing
    cases hfinishing
  · rw [lastTaken_concat]
    exact h.seen r hr
  · rw [newest_concat]
    rintro m hm
    obtain rfl := Option.some.inj hm
    exact hadmitted
  · have hin := h.intact fun hfailed => hintact (List.mem_append_left _ hfailed)
    refine ⟨hin.textures, nofun, nofun, fun r hr => ?_, hin.active, nofun⟩
    obtain rfl := Option.some.inj hr
    refine ⟨pic.number, hin.copied pic _ hphase, ?_⟩
    rw [newest_concat]

/-! ### Keyframe requests -/

theorem requestKeyframe (h : Staged s log) (nowUs : Int) : Staged (s.requestKeyframe nowUs) log := by
  unfold EncodeSlots.requestKeyframe
  dsimp only
  split
  next hcond =>
    have hlast : s.lastSlot.isSome = true := (Bool.and_eq_true_iff.mp hcond).2
    have howned : Owned { s with keyframeRequested := true, readySlot := s.lastSlot,
                                 readyTs := nowUs } :=
      { h.owned with ready := h.owned.last, readyLast := fun _ hr => hr }
    rw [Option.isSome_iff_ne_none] at hlast
    have hhanded : Handed { s with keyframeRequested := true, readySlot := s.lastSlot,
                                   readyTs := nowUs } log :=
      { h.handed with waits := fun _ _ hnone => absurd hnone hlast }
    refine ⟨h.law, howned, hhanded, h.torn, h.seen, h.numbered, fun hintact => ?_⟩
    have hin := h.intact hintact
    exact { hin with fresh := fun _ _ hnone => absurd hnone hlast }
  · refine ⟨h.law, { h.owned with }, { h.handed with }, h.torn, h.seen, h.numbered,
      fun hintact => ?_⟩
    have hin := h.intact hintact
    exact { hin with }

/-! ### The encode thread -/

theorem takeReady (h : Staged s log) :
    Staged s.takeReady.1 (log ++ s.takeReady.2) := by
  unfold EncodeSlots.takeReady
  split
  next hstopped =>
    rw [List.append_nil]
    have howned : Owned { s with encode := .exited } :=
      { h.owned with read := nofun, idle := nofun, size := nofun,
                     exited := fun _ => by simpa using hstopped }
    refine ⟨h.law, howned, { h.handed with }, h.torn, nofun, h.numbered, fun hintact => ?_⟩
    have hin := h.intact hintact
    exact { hin with active := nofun }
  · split
    · simpa using h
    next slot hready =>
      have hlast := h.owned.readyLast slot hready
      have howned : Owned { s with readySlot := none, activeSlot := some slot,
                                   encode := .preparing slot s.readyTs } :=
        { h.owned with
          ready := nofun
          active := hlast ▸ h.owned.last
          read := fun _ hr => hr
          idle := nofun
          readyLast := nofun
          size := nofun
          exited := nofun }
      have hhanded : Handed { s with readySlot := none, activeSlot := some slot,
                                     encode := .preparing slot s.readyTs }
          (log ++ [.taken slot (s.textures slot)]) :=
        ⟨fun r hr => (newestSlot_concat ..).trans (h.handed.last r hr),
          fun _ _ _ => untaken_concat ..⟩
      refine ⟨EventLog.law_concat.mpr ⟨h.law, h.handed.last slot hlast, fun hintact => ?_⟩, howned,
        hhanded, h.torn, fun r hr => ?_, ?_, fun hintact => ?_⟩
      · obtain ⟨n, htexture, hnewest⟩ := (h.intact hintact).last slot hlast
        exact ⟨s.size, n, htexture, hnewest⟩
      · obtain rfl := Option.some.inj hr
        rw [lastTaken_concat]
      · rw [newest_concat]
        exact h.numbered
      · have hin := h.intact fun hfailed => hintact (List.mem_append_left _ hfailed)
        obtain ⟨n, htexture, hnewest⟩ := hin.last slot hlast
        refine ⟨hin.textures, hin.prepared, hin.copied, ?_, fun r hr => ?_, fun _ _ _ m hm => ?_⟩
        · rw [newest_concat]
          exact hin.last
        · obtain rfl := Option.some.inj hr
          exact ⟨n, htexture⟩
        · rw [newest_concat] at hm
          obtain rfl := Option.some.inj (hnewest.symm.trans hm)
          rw [lastTaken_concat]
          exact ⟨s.size, congrArg some htexture⟩

/-- The encode thread goes on without a touch of the slots. -/
theorem reads (h : Staged s log) (encode : EncodePhase) (keyframeRequested : Bool)
    (hslot : ∀ slot ∈ encode.slot?, slot ∈ s.encode.slot?) (hidle : encode ≠ .waiting)
    (hexited : encode ≠ .exited)
    (hsize : ∀ slot ts size forceKeyframe, encode = .encoding slot ts size forceKeyframe →
      size = s.size) : Staged { s with encode, keyframeRequested } log := by
  have howned : Owned { s with encode, keyframeRequested } :=
    { h.owned with
      read := fun slot hs => h.owned.read slot (hslot slot hs)
      idle := fun hwaiting => absurd hwaiting hidle
      size := hsize
      exited := fun hgone => absurd hgone hexited }
  refine ⟨h.law, howned, { h.handed with }, h.torn, fun slot hs => h.seen slot (hslot slot hs),
    h.numbered, fun hintact => ?_⟩
  have hin := h.intact hintact
  exact { hin with active := fun slot hs => hin.active slot (hslot slot hs) }

theorem prepareEncoder (h : Staged s log) {slot : EncodeSlot} {ts : Int}
    (hphase : s.encode = .preparing slot ts) (initOk coreAsks : Bool) :
    Staged (s.prepareEncoder slot ts initOk coreAsks) log := by
  unfold EncodeSlots.prepareEncoder
  split
  · refine h.reads _ _ (fun r hr => ?_) nofun nofun fun _ _ size _ hencoding => ?_
    · rw [hphase]
      exact hr
    · exact (EncodePhase.encoding.inj hencoding).2.2.1.symm
  · exact h.reads _ _ nofun nofun nofun nofun

theorem encoded (h : Staged s log) {slot : EncodeSlot} {ts : Int} {size : TextureSize}
    {forceKeyframe : Bool} (hphase : s.encode = .encoding slot ts size forceKeyframe) :
    Staged { s with encode := .releasing }
      (log ++ [.encoded (s.textures slot) ts size forceKeyframe]) := by
  have hslot : slot ∈ s.encode.slot? := by
    rw [hphase]
    rfl
  have hstate := h.reads .releasing s.keyframeRequested nofun nofun nofun nofun
  have hsize := h.owned.size slot ts size forceKeyframe hphase
  refine ⟨EventLog.law_concat.mpr ⟨h.law, h.seen slot hslot, fun texture ht htorn => ?_,
    fun hintact => ?_⟩, hstate.owned,
    hstate.handed.notes (newestSlot_concat ..) (untaken_concat ..), h.torn, nofun, ?_,
    fun hintact => ?_⟩
  · obtain ⟨pic, hfinishing, -⟩ := h.torn slot texture ht htorn
    have hwrite := h.owned.written slot (by rw [hfinishing]; rfl)
    exact h.owned.active (hwrite ▸ h.owned.read slot hslot)
  · obtain ⟨n, htexture⟩ := (h.intact hintact).active slot hslot
    exact ⟨n, hsize ▸ htexture⟩
  · rw [newest_concat]
    exact h.numbered
  · have hin := h.intact fun hfailed => hintact (List.mem_append_left _ hfailed)
    refine ⟨hin.textures, hin.prepared, hin.copied, ?_, nofun, ?_⟩
    · rw [newest_concat]
      exact hin.last
    · rw [newest_concat, lastTaken_concat]
      exact hin.fresh

theorem release (h : Staged s log) :
    Staged { s with activeSlot := none, encode := .waiting } log := by
  have howned : Owned { s with activeSlot := none, encode := .waiting } :=
    { h.owned with active := nofun, read := nofun, idle := fun _ => rfl, size := nofun,
                   exited := nofun }
  refine ⟨h.law, howned, { h.handed with }, h.torn, nofun, h.numbered, fun hintact => ?_⟩
  have hin := h.intact hintact
  exact { hin with active := nofun }

/-! ### Runs -/

theorem captureStep (h : Staged s log) (answer : CreationAnswer) :
    Staged (s.captureStep answer).1 (log ++ (s.captureStep answer).2) := by
  unfold EncodeSlots.captureStep
  split
  · simpa using h
  next pic hphase =>
    split
    · simpa using h
    next hinactive => exact h.recreateTextures hphase (by simpa using hinactive) answer
  · exact h.pickSlot ‹_›
  · rw [List.append_nil]
    exact h.beginCopy ‹_›
  · rw [List.append_nil]
    exact h.finishCopy ‹_›
  · exact h.publish ‹_›

theorem encodeStep (h : Staged s log) (initOk coreAsks : Bool) :
    Staged (s.encodeStep initOk coreAsks).1 (log ++ (s.encodeStep initOk coreAsks).2) := by
  unfold EncodeSlots.encodeStep
  split
  · exact h.takeReady
  · rw [List.append_nil]
    exact h.prepareEncoder ‹_› initOk coreAsks
  · exact h.encoded ‹_›
  · rw [List.append_nil]
    exact h.release
  · simpa using h

/-- Nothing that is said of the slots depends on whether the share goes on. -/
theorem stops (h : Staged s log) (sharing : Bool) {running : Bool}
    (hrunning : s.running = false → running = false) : Staged { s with sharing, running } log :=
  ⟨h.law, { h.owned with exited := fun hexited => hrunning (h.owned.exited hexited) },
    { h.handed with }, h.torn, h.seen, h.numbered, fun hintact => { h.intact hintact with }⟩

theorem step (h : Staged s log) (op : EncodeOp) : Staged (s.step op).1 (log ++ (s.step op).2) := by
  cases op with
  | admitFrame desc shareScale readable nowUs =>
    have hnext := h.admitFrame desc shareScale readable nowUs
    simpa [EncodeSlots.step] using hnext
  | captureThread answer => exact h.captureStep answer
  | requestKeyframe nowUs =>
    have hnext := h.requestKeyframe nowUs
    simpa [EncodeSlots.step] using hnext
  | encodeThread initOk coreAsks => exact h.encodeStep initOk coreAsks
  | stopSharing =>
    have hnext := h.stops false id
    simpa [EncodeSlots.step] using hnext
  | stopEncoding =>
    by_cases hsharing : s.sharing = true
    · simpa [EncodeSlots.step, hsharing] using h
    · have hnext := h.stops s.sharing fun _ => rfl
      simpa [EncodeSlots.step, hsharing] using hnext

theorem new : Staged {} [] := by
  have hempty : ∀ m, m ∉ newest [] := nofun
  refine ⟨EventLog.law_nil, ⟨nofun, nofun, nofun, nofun, nofun, fun _ => rfl, nofun, nofun, nofun,
    nofun, nofun⟩, ⟨nofun, fun _ _ _ => rfl⟩, nofun, nofun,
    ⟨nofun, fun m hm => absurd hm (hempty m)⟩, fun _ => ?_⟩
  exact ⟨fun _ hnot => absurd rfl hnot, fun _ _ => by simp, nofun, nofun, nofun,
    fun _ _ _ m hm => absurd hm (hempty m)⟩

theorem run (ops : List EncodeOp) : Staged (EncodeSlots.run ops).1 (EncodeSlots.run ops).2 := by
  let Inv : EncodeSlots × List EncodeEvent → Prop := fun r => Staged r.1 r.2
  have hstep : ∀ r op, Inv r → Inv (Machine.logged EncodeSlots.step r op) :=
    fun _ op hr => hr.step op
  exact Machine.run_preserves hstep new ops

end Staged

/-- With the capture thread through and nothing ready, the newest picture is the one taken last. -/
theorem Staged.newest_taken (h : Staged s log) (hcreated : .unprepared ∉ log)
    (hidle : s.capture = .idle) (hready : s.readySlot = none) {n : Nat} (hn : newest log = some n) :
    ∃ size, lastTaken log = some (some ⟨size, .picture n⟩) := by
  refine (h.intact hcreated).fresh ?_ ?_ hready n hn <;> rw [hidle] <;> rfl

/-- How many steps the encode thread is away from taking a texture that is ready. -/
def stepsToTake : EncodePhase → Nat
  | .waiting => 1
  | .releasing => 2
  | .encoding _ _ _ _ => 3
  | .preparing _ _ => 4
  | .exited => 0

/-- A step of the encode thread takes what is ready, or brings the thread nearer to it. -/
theorem encodeStep_progress (hrunning : s.running = true) (hphase : s.encode ≠ .exited)
    (initOk coreAsks : Bool) :
    (s.encodeStep initOk coreAsks).1.running = true ∧
      (s.encodeStep initOk coreAsks).1.encode ≠ .exited ∧
      (s.encodeStep initOk coreAsks).1.capture = s.capture ∧
      ((s.encodeStep initOk coreAsks).1.readySlot = none ∨
        (s.encodeStep initOk coreAsks).1.readySlot = s.readySlot ∧
          stepsToTake (s.encodeStep initOk coreAsks).1.encode < stepsToTake s.encode) ∧
      ∀ e ∈ (s.encodeStep initOk coreAsks).2, e ≠ .unprepared ∧ ∀ n slot, e ≠ .published n slot := by
  unfold encodeStep
  split
  next hwaiting =>
    unfold takeReady
    split
    next hstopped =>
      rw [hrunning] at hstopped
      cases hstopped
    · split
      next hready =>
        exact ⟨hrunning, hphase, rfl, .inl hready, List.forall_mem_nil _⟩
      · exact ⟨hrunning, nofun, rfl, .inl rfl, by simp⟩
  next slot ts hpreparing =>
    unfold prepareEncoder
    rw [hpreparing]
    split <;> exact ⟨hrunning, nofun, rfl, .inr ⟨rfl, by simp [stepsToTake]⟩, List.forall_mem_nil _⟩
  next slot ts size forceKeyframe hencoding =>
    rw [hencoding]
    exact ⟨hrunning, nofun, rfl, .inr ⟨rfl, by simp [stepsToTake]⟩, by simp⟩
  next hreleasing =>
    rw [hreleasing]
    exact ⟨hrunning, nofun, rfl, .inr ⟨rfl, by simp [stepsToTake]⟩, List.forall_mem_nil _⟩
  next hexited =>
    exact absurd hexited hphase

/-- Steps of the encode thread alone. -/
def encodeTurns (turns : List (Bool × Bool)) : List EncodeOp :=
  turns.map fun turn => .encodeThread turn.1 turn.2

theorem run_encodeTurns (log : List EncodeEvent) (hrunning : s.running = true)
    (hphase : s.encode ≠ .exited) (turns : List (Bool × Bool))
    (hnear : s.readySlot = none ∨ stepsToTake s.encode ≤ turns.length) :
    ∃ events, (∀ e ∈ events, e ≠ .unprepared ∧ ∀ n slot, e ≠ .published n slot) ∧
      (Machine.run (Machine.logged step) (s, log) (encodeTurns turns)).2 = log ++ events ∧
      (Machine.run (Machine.logged step) (s, log) (encodeTurns turns)).1.capture = s.capture ∧
      (Machine.run (Machine.logged step) (s, log) (encodeTurns turns)).1.readySlot = none := by
  induction turns generalizing s log with
  | nil =>
    refine ⟨[], List.forall_mem_nil _, (List.append_nil log).symm, rfl, ?_⟩
    obtain hready | hnone := hnear
    · exact hready
    · cases hencode : s.encode <;> simp [hencode, stepsToTake] at hnone
      exact absurd hencode hphase
  | cons turn turns ih =>
    obtain ⟨hrun, hgoes, hcapture, hready, hquiet⟩ :=
      encodeStep_progress hrunning hphase turn.1 turn.2
    have hnear' : (s.encodeStep turn.1 turn.2).1.readySlot = none ∨
        stepsToTake (s.encodeStep turn.1 turn.2).1.encode ≤ turns.length := by
      obtain hnone | ⟨hsame, hless⟩ := hready
      · exact .inl hnone
      · obtain hnone | hlong := hnear
        · exact .inl (hsame.trans hnone)
        · rw [List.length_cons] at hlong
          exact .inr (by omega)
    obtain ⟨events, hevents, hlog, hidle, htaken⟩ :=
      ih (log ++ (s.encodeStep turn.1 turn.2).2) hrun hgoes hnear'
    refine ⟨(s.encodeStep turn.1 turn.2).2 ++ events, List.forall_mem_append.mpr ⟨hquiet, hevents⟩,
      ?_, hidle.trans hcapture, htaken⟩
    rw [← List.append_assoc]
    exact hlog

theorem newest_append {events : List EncodeEvent} (hquiet : ∀ e ∈ events, ∀ n slot, e ≠ .published n slot) :
    newest (log ++ events) = newest log := by
  induction events using List.reverseRecOn with
  | nil => rw [List.append_nil]
  | append_singleton events e ih =>
    obtain ⟨hevents, he⟩ := List.forall_mem_append.mp hquiet
    rw [← List.append_assoc, newest_concat, ih hevents]
    cases e with
    | published n slot => exact absurd rfl (he _ (List.mem_singleton.mpr rfl) n slot)
    | _ => rfl

/-- If the newest picture is taken, then from its slot. -/
theorem lastTakenSlot_of_taken (hlaw : EventLog.Law PicturesInOrder log)
    (htaken : untaken log = none) (hsome : newest log ≠ none) :
    lastTakenSlot log = newestSlot log := by
  induction log using List.reverseRecOn with
  | nil => exact absurd rfl hsome
  | append_singleton front e ih =>
    obtain ⟨hfront, he⟩ := EventLog.law_concat.mp hlaw
    rw [untaken_concat] at htaken
    rw [newest_concat] at hsome
    rw [lastTakenSlot_concat, newestSlot_concat]
    cases e with
    | published n slot => cases htaken
    | taken slot texture => exact he.1.symm
    | resized | unprepared | encoded => exact ih hfront htaken hsome

/-- No picture is left behind: once the capture thread is through, four steps of a running encode
thread are enough for the newest picture to be taken, from the slot it was published in. What is
seen there is that picture if all pictures have found their textures prepared. -/
theorem newest_picture_taken (ops : List EncodeOp) (hidle : (run ops).1.capture = .idle)
    (hrunning : (run ops).1.running = true) {n : Nat} (hn : newest (run ops).2 = some n)
    (turns : List (Bool × Bool)) (hlong : 4 ≤ turns.length) :
    let log := (run (ops ++ encodeTurns turns)).2
    newest log = some n ∧ untaken log = none ∧ lastTakenSlot log = newestSlot log ∧
      (.unprepared ∉ (run ops).2 → ∃ size, lastTaken log = some (some ⟨size, .picture n⟩)) := by
  intro log
  have hphase : (run ops).1.encode ≠ .exited := by
    intro hexited
    have hstopped := (Staged.run ops).owned.exited hexited
    rw [hrunning] at hstopped
    cases hstopped
  have hnear : stepsToTake (run ops).1.encode ≤ turns.length := by
    refine Nat.le_trans ?_ hlong
    cases (run ops).1.encode <;> simp [stepsToTake]
  obtain ⟨events, hquiet, hlog, hcapture, hready⟩ :=
    run_encodeTurns (run ops).2 hrunning hphase turns (.inr hnear)
  have hstaged := Staged.run (ops ++ encodeTurns turns)
  have hturns : run (ops ++ encodeTurns turns) =
      Machine.run (Machine.logged step) (run ops) (encodeTurns turns) := Machine.run_append ..
  have hlater : log = (run ops).2 ++ events := (congrArg Prod.snd hturns).trans hlog
  have hthrough : (run (ops ++ encodeTurns turns)).1.capture = .idle := by
    rw [hturns]
    exact hcapture.trans hidle
  have hnothing : (run (ops ++ encodeTurns turns)).1.readySlot = none := by
    rw [hturns]
    exact hready
  have hnewest : newest log = some n := by
    rw [hlater, newest_append fun e he => (hquiet e he).2, hn]
  have htaken : untaken log = none := by
    refine hstaged.handed.waits ?_ ?_ hnothing
    · rw [hthrough]
      rfl
    · rw [hthrough]
      rfl
  refine ⟨hnewest, htaken, lastTakenSlot_of_taken hstaged.law htaken (by simp [hnewest]),
    fun hprepared => hstaged.newest_taken ?_ hthrough hnothing hnewest⟩
  show .unprepared ∉ log
  rw [hlater, List.mem_append, not_or]
  exact ⟨hprepared, fun hin => (hquiet _ hin).1 rfl⟩

/-- A picture that is scaled down, a keyframe request on the static screen behind it, and the
encode thread. -/
def scaledThenAsked : List EncodeOp :=
  [.admitFrame ⟨1280, 960⟩ 2 true 0, .captureThread {}, .captureThread {}, .captureThread {},
    .captureThread {}, .captureThread {}, .requestKeyframe 5]

theorem newest_picture_taken_one :
    let log := (run (scaledThenAsked ++
      encodeTurns [(true, false), (true, false), (true, false), (true, false)])).2
    newest log = some 0 ∧ untaken log = none ∧ lastTakenSlot log = newestSlot log ∧
      ∃ size, lastTaken log = some (some ⟨size, .picture 0⟩) := by
  obtain ⟨hnewest, htaken, hslot, hseen⟩ := newest_picture_taken scaledThenAsked rfl rfl rfl
    [(true, false), (true, false), (true, false), (true, false)] (by decide)
  exact ⟨hnewest, htaken, hslot, hseen (by decide)⟩

/-- The window grows as the scale shrinks, so the textures stay: the second picture is too large for
the one it is copied into. -/
example : lastTaken (run ([.admitFrame ⟨640, 480⟩ 0 true 0, .captureThread {}, .captureThread {},
    .captureThread {}, .captureThread {}, .captureThread {}, .admitFrame ⟨1280, 960⟩ 2 true 5,
    .captureThread {}, .captureThread {}, .captureThread {}, .captureThread {}] ++
      encodeTurns [(true, false)])).2 = some (some ⟨⟨640, 480⟩, .misfit 1⟩) := by
  decide

end EncodeSlots

end Parties.Video

import Parties.Video.Decodable
import Parties.Video.FrameReorderRules

/-!
# The reorder buffer delivers decodable streams

The chain state of the buffer is the last delivered number once there is one.
Every member function moves it along the frames it delivers: the step lemma has
one case per operation, the run lemma composes the steps. No invariant of the
held frames is needed for this, since the delivery branches compare the numbers
of the frames themselves.
-/

namespace Parties.Video

variable {φ : Type}

/-- The headers of the frames a sequence of callbacks delivered. -/
def deliveredHeaders (events : List (ReorderEvent φ)) : List VideoFrameHeader :=
  (deliveredFrames events).map Prod.fst

@[simp] theorem deliveredHeaders_nil : deliveredHeaders ([] : List (ReorderEvent φ)) = [] := rfl

@[simp] theorem deliveredHeaders_deliver (hdr : VideoFrameHeader) (frame : φ)
    (events : List (ReorderEvent φ)) :
    deliveredHeaders (.deliver hdr frame :: events) = hdr :: deliveredHeaders events := rfl

@[simp] theorem deliveredHeaders_append (xs ys : List (ReorderEvent φ)) :
    deliveredHeaders (xs ++ ys) = deliveredHeaders xs ++ deliveredHeaders ys := by
  simp [deliveredHeaders]

namespace VideoFrameReorderBuffer

/-- The chain state of the buffer. -/
def anchor (b : VideoFrameReorderBuffer φ) : Option (BitVec 32) :=
  if b.haveLast then some b.lastDelivered else none

/-- `r` is the outcome of a call on `b` whose deliveries take the chain from the
state of `b` to the state of the new buffer. -/
def Extends (b : VideoFrameReorderBuffer φ)
    (r : VideoFrameReorderBuffer φ × List (ReorderEvent φ)) : Prop :=
  ChainPath b.anchor (deliveredHeaders r.2) r.1.anchor

/-- `r` is the outcome of a call on `b` that delivered nothing and kept the
chain state. -/
structure Silent (b : VideoFrameReorderBuffer φ)
    (r : VideoFrameReorderBuffer φ × List (ReorderEvent φ)) : Prop where
  haveLast : r.1.haveLast = b.haveLast
  lastDelivered : r.1.lastDelivered = b.lastDelivered
  delivered : deliveredFrames r.2 = []

variable {b : VideoFrameReorderBuffer φ}

theorem Silent.trans {r r' : VideoFrameReorderBuffer φ × List (ReorderEvent φ)}
    (h : Silent b r) (h' : Silent r.1 r') : Silent b r' :=
  ⟨h'.haveLast.trans h.haveLast, h'.lastDelivered.trans h.lastDelivered, h'.delivered⟩

/-- Callbacks that deliver nothing add up. -/
theorem Silent.append {r : VideoFrameReorderBuffer φ × List (ReorderEvent φ)}
    {losses : List (ReorderEvent φ)} (h : Silent b r) (hlosses : deliveredFrames losses = []) :
    Silent b (r.1, losses ++ r.2) :=
  ⟨h.haveLast, h.lastDelivered, by simp [h.delivered, hlosses]⟩

theorem Silent.extends {r : VideoFrameReorderBuffer φ × List (ReorderEvent φ)}
    (h : Silent b r) : Extends b r := by
  simp [Extends, anchor, deliveredHeaders, h.haveLast, h.lastDelivered, h.delivered]

theorem RecoveryOnly.silent {r : VideoFrameReorderBuffer φ × List (ReorderEvent φ)}
    (h : RecoveryOnly b r) : Silent b r := by
  obtain ⟨⟨awaiting, reported, hstate⟩, hdelivered, _⟩ := h
  exact ⟨by rw [hstate], by rw [hstate], hdelivered⟩

variable [FrameBytes φ]

/-- The drained frames follow one another, starting behind the last one. -/
theorem Drains.chainPath {b' : VideoFrameReorderBuffer φ} {taken : List (Int × Held φ)}
    (h : Drains b taken b') :
    ChainPath (some b.lastDelivered) (taken.map fun e => e.2.hdr) (some b'.lastDelivered) := by
  induction h with
  | stop => rfl
  | take hfront hnext hrest ih => exact ⟨follows_succ hnext, ih⟩

/-- A frame the chain accepts is delivered together with what waited behind it. -/
theorem Resumes.extends {hdr : VideoFrameHeader} {frame : φ} {taken : List (Int × Held φ)}
    {a : VideoFrameReorderBuffer φ} {b' : VideoFrameReorderBuffer φ}
    {r : VideoFrameReorderBuffer φ × List (ReorderEvent φ)}
    (h : Resumes b hdr frame taken b' r) (hhave : b.haveLast = true)
    (hlast : b.lastDelivered = hdr.frameSeq) (haccepts : Accepts a.anchor hdr) :
    Extends a r := by
  obtain ⟨hdrains, ⟨_, hrecovery⟩, hdelivered⟩ := h
  obtain ⟨⟨awaiting, reported, hstate⟩, _, _⟩ := hrecovery
  have hpath := hdrains.chainPath
  have hframe := congrArg haveLast hdrains.frame
  simp only [forgetInflightThrough_eq] at hpath hframe
  rw [hlast] at hpath
  have hanchor : r.1.anchor = some b'.lastDelivered := by
    rw [show r.1 = _ from hstate]
    simp [anchor, settled, hframe, hhave]
  simp only [Extends, deliveredHeaders, hdelivered, hanchor, List.map_cons, List.map_map,
    Function.comp_def]
  exact ⟨haccepts, hpath⟩

omit [FrameBytes φ] in
theorem accepts_of_last {last : BitVec 32} {hdr : VideoFrameHeader} (hhave : b.haveLast = true)
    (hlast : b.lastDelivered = last) (h : Follows last hdr) : Accepts b.anchor hdr := by
  rw [anchor, if_pos hhave, hlast]
  exact h

/-! ### One step -/

theorem boundHeld_silent (b : VideoFrameReorderBuffer φ)
    (losses : List (ReorderEvent φ)) (hlosses : deliveredFrames losses = []) :
    Silent b (b.boundHeld, losses) := by
  have hframe := (boundHeldLoop_evicts b.held.size b).frame
  have hhave := congrArg haveLast hframe
  have hlast := congrArg lastDelivered hframe
  exact ⟨hhave, hlast, hlosses⟩

theorem onStartupDelta_extends (hhave : b.haveLast = false) (hdr : VideoFrameHeader) (frame : φ)
    (nowUs : Int) : Extends b (b.onStartupDelta hdr frame nowUs, []) := by
  have hkept : (b.onStartupDelta hdr frame nowUs).haveLast = false := by
    unfold onStartupDelta
    dsimp only
    split <;> split <;>
      first
      | exact hhave
      | exact (boundHeld_silent _ [] rfl).haveLast.trans hhave
  simp [Extends, anchor, hhave, hkept]

theorem onGapDelta_silent (b : VideoFrameReorderBuffer φ) (hdr : VideoFrameHeader) (frame : φ)
    (nowUs : Int) : Silent b (b.onGapDelta hdr frame nowUs) := by
  unfold onGapDelta
  dsimp only
  split
  · exact ⟨rfl, rfl, rfl⟩
  · -- whether the gap starts here or not, only the held frames and their clock change
    generalize hheld : VideoFrameReorderBuffer.hold _ hdr frame nowUs = b₀
    have hkept : Silent b (b₀, []) := by
      rw [← hheld]
      split <;> exact ⟨rfl, rfl, rfl⟩
    have hrequire := (requireKeyframe_recoveryOnly b₀ nowUs).silent
    split
    · exact hkept.trans (hrequire.trans (boundHeld_silent _ _ hrequire.delivered))
    · split
      · exact hkept.trans hrequire
      · exact hkept

theorem onFrame_extends (b : VideoFrameReorderBuffer φ) (hdr : VideoFrameHeader) (frame : φ)
    (nowUs : Int) : Extends b (b.onFrame hdr frame nowUs) := by
  unfold onFrame
  split
  · exact Silent.extends ⟨rfl, rfl, rfl⟩
  next hnotOld =>
    split
    next hhave =>
      have hhave : b.haveLast = false := by simpa using hhave
      split
      · exact onStartupDelta_extends hhave hdr frame nowUs
      next hkey =>
        obtain ⟨taken, b', hresumes⟩ := resumeAt_resumes _ hdr frame nowUs
        refine hresumes.extends rfl rfl ?_
        simpa [anchor, hhave, Accepts] using hkey
    next hhave =>
      have hhave : b.haveLast = true := by simpa using hhave
      have hnewer : videoSeqNewer hdr.frameSeq b.lastDelivered = true := by
        simpa [hhave] using hnotOld
      split
      next hnext =>
        obtain ⟨taken, b', hresumes⟩ := resumeAt_resumes _ hdr frame nowUs
        exact hresumes.extends hhave rfl (accepts_of_last hhave rfl (follows_succ hnext))
      · split
        next hkey =>
          obtain ⟨taken, b', hresumes⟩ := resumeAt_resumes _ hdr frame nowUs
          exact hresumes.extends hhave rfl
            (accepts_of_last hhave rfl (follows_keyframe hkey hnewer))
        · exact (onGapDelta_silent b hdr frame nowUs).extends

omit [FrameBytes φ] in
theorem onFrameStarted_silent (b : VideoFrameReorderBuffer φ) (hdr : VideoFrameHeader)
    (nowUs : Int) : Silent b (b.onFrameStarted hdr nowUs, []) := by
  unfold onFrameStarted
  split
  · exact ⟨rfl, rfl, rfl⟩
  · split
    · exact ⟨rfl, rfl, rfl⟩
    · split <;> exact ⟨rfl, rfl, rfl⟩

theorem noteAborted_silent (b : VideoFrameReorderBuffer φ) (frameSeq : BitVec 32)
    (losses : List (ReorderEvent φ)) (hlosses : deliveredFrames losses = []) :
    Silent b (b.noteAborted frameSeq, losses) := by
  unfold noteAborted
  split
  · exact ⟨rfl, rfl, hlosses⟩
  · split <;> exact ⟨rfl, rfl, hlosses⟩

theorem onFrameAborted_silent (b : VideoFrameReorderBuffer φ) (frameSeq : BitVec 32)
    (nowUs : Int) : Silent b (b.onFrameAborted frameSeq nowUs) := by
  unfold onFrameAborted
  dsimp only
  generalize hb₀ : (if (b.inflightKey && decide (frameSeq = b.inflightKeySeq)) = true then
    { b with inflightKey := false } else b) = b₀
  have hkept : Silent b (b₀, []) := by
    rw [← hb₀]
    split <;> exact ⟨rfl, rfl, rfl⟩
  have hreport := (reportLoss_recoveryOnly b₀).silent
  have hrequire := (requireKeyframe_recoveryOnly b₀ nowUs).silent
  refine hkept.trans ?_
  split
  · exact ⟨rfl, rfl, rfl⟩
  · split
    · split
      · have hmore := (reportLoss_recoveryOnly (b₀.requireKeyframe nowUs).1).silent
        exact hrequire.trans (hmore.append hrequire.delivered)
      · exact hrequire
    · split
      · exact ⟨rfl, rfl, rfl⟩
      · split
        · exact hreport.trans (noteAborted_silent _ frameSeq _ hreport.delivered)
        · exact noteAborted_silent b₀ frameSeq [] rfl

theorem poll_silent (b : VideoFrameReorderBuffer φ) (nowUs : Int) :
    Silent b (b.poll nowUs) := by
  unfold poll
  dsimp only
  split
  · exact ⟨rfl, rfl, rfl⟩
  · split
    · split
      · exact (reportLoss_recoveryOnly b).silent
      · exact ⟨rfl, rfl, rfl⟩
    · split
      · exact (requireKeyframe_recoveryOnly b nowUs).silent
      · exact ⟨rfl, rfl, rfl⟩

/-- Delivering a frame and draining behind it keeps the flag its caller set. -/
theorem Resumes.haveLast {hdr : VideoFrameHeader} {frame : φ} {taken : List (Int × Held φ)}
    {b' : VideoFrameReorderBuffer φ} {r : VideoFrameReorderBuffer φ × List (ReorderEvent φ)}
    (h : Resumes b hdr frame taken b' r) : r.1.haveLast = b.haveLast := by
  obtain ⟨hdrains, ⟨_, hrecovery⟩, _⟩ := h
  obtain ⟨⟨awaiting, reported, hstate⟩, _, _⟩ := hrecovery
  have hframe := congrArg VideoFrameReorderBuffer.haveLast hdrains.frame
  simp only [forgetInflightThrough_eq] at hframe
  rw [show r.1 = _ from hstate]
  exact hframe

/-- A keyframe starts the chain; once started it stays so. -/
theorem onFrame_haveLast (b : VideoFrameReorderBuffer φ) (hdr : VideoFrameHeader) (frame : φ)
    (nowUs : Int) : (b.onFrame hdr frame nowUs).1.haveLast = (b.haveLast || hdr.keyframe) := by
  cases hhave : b.haveLast with
  | false =>
      unfold onFrame
      simp only [hhave, Bool.false_and, Bool.false_eq_true, if_false, Bool.not_false, if_true,
        Bool.false_or]
      cases hkey : hdr.keyframe with
      | false =>
          have hstartup := onStartupDelta_extends hhave hdr frame nowUs
          simp only [Extends, deliveredHeaders_nil, chainPath_nil] at hstartup
          simp [anchor, hhave] at hstartup
          simpa using hstartup
      | true =>
          obtain ⟨taken, b', hresumes⟩ := resumeAt_resumes _ hdr frame nowUs
          exact hresumes.haveLast
  | true =>
      have hextends := onFrame_extends b hdr frame nowUs
      simp only [Extends, anchor, hhave, if_true] at hextends
      by_contra hlost
      simp only [Bool.true_or, Bool.not_eq_true] at hlost
      rw [hlost] at hextends
      exact not_chainPath_none hextends

/-- The keyframe that starts the chain is delivered, whatever its number. -/
theorem onFrame_firstKeyframe (hhave : b.haveLast = false) {hdr : VideoFrameHeader}
    (hkey : hdr.keyframe = true) (frame : φ) (nowUs : Int) :
    (hdr, frame) ∈ deliveredFrames (b.onFrame hdr frame nowUs).2 := by
  unfold onFrame
  simp only [hhave, Bool.false_and, Bool.false_eq_true, if_false, Bool.not_false, if_true, hkey,
    Bool.not_true]
  unfold onFirstKeyframe
  dsimp only
  obtain ⟨taken, b', hresumes⟩ := resumeAt_resumes _ hdr frame nowUs
  rw [hresumes.delivered]
  exact List.mem_cons_self

/-- Only frames and resets move the chain. -/
theorem step_silent (b : VideoFrameReorderBuffer φ) {op : ReorderOp φ} (hreset : ¬ op.isReset)
    (hframe : ∀ hdr frame nowUs, op ≠ .frame hdr frame nowUs) : Silent b (b.step op) := by
  cases op with
  | frameStarted hdr nowUs => exact onFrameStarted_silent b hdr nowUs
  | frame hdr frame nowUs => exact absurd rfl (hframe hdr frame nowUs)
  | frameAborted frameSeq nowUs => exact onFrameAborted_silent b frameSeq nowUs
  | poll nowUs => exact poll_silent b nowUs
  | setRtt rttUs => exact ⟨rfl, rfl, rfl⟩
  | reset => exact absurd rfl hreset

/-- Every call but a reset extends the chain by what it delivers. -/
theorem step_extends (b : VideoFrameReorderBuffer φ) (op : ReorderOp φ) (hop : ¬ op.isReset) :
    Extends b (b.step op) := by
  cases op with
  | frameStarted hdr nowUs => exact (onFrameStarted_silent b hdr nowUs).extends
  | frame hdr frame nowUs => exact onFrame_extends b hdr frame nowUs
  | frameAborted frameSeq nowUs => exact (onFrameAborted_silent b frameSeq nowUs).extends
  | poll nowUs => exact (poll_silent b nowUs).extends
  | setRtt rttUs => exact Silent.extends ⟨rfl, rfl, rfl⟩
  | reset => exact absurd rfl hop

/-! ### Runs -/

theorem run_extends (b : VideoFrameReorderBuffer φ) (ops : List (ReorderOp φ))
    (hops : ∀ op ∈ ops, ¬ op.isReset) : Extends b (b.run ops) := by
  induction ops generalizing b with
  | nil => rfl
  | cons op ops ih =>
      have hstep := step_extends b op (hops op (by simp))
      have hrest := ih (b.step op).1 fun op' hop' => hops op' (by simp [hop'])
      rw [run_cons, Extends, deliveredHeaders_append, chainPath_append]
      exact ⟨_, hstep, hrest⟩

theorem run_silent (b : VideoFrameReorderBuffer φ) {ops : List (ReorderOp φ)}
    (hreset : ∀ op ∈ ops, ¬ op.isReset)
    (hframe : ∀ hdr frame nowUs, .frame hdr frame nowUs ∉ ops) : Silent b (b.run ops) := by
  induction ops generalizing b with
  | nil => exact ⟨rfl, rfl, rfl⟩
  | cons op ops ih =>
      have hstep := step_silent b (hreset op (by simp)) fun hdr frame nowUs heq =>
        hframe hdr frame nowUs (by simp [heq])
      have hrest := ih (b.step op).1 (fun op' hop' => hreset op' (by simp [hop']))
        fun hdr frame nowUs hin => hframe hdr frame nowUs (by simp [hin])
      rw [run_cons]
      exact hstep.trans (hrest.append hstep.delivered)

/-- What a buffer that waits for its first keyframe delivers is decodable. -/
theorem run_decodable {b : VideoFrameReorderBuffer φ} (hb : b.haveLast = false)
    {ops : List (ReorderOp φ)} (hops : ∀ op ∈ ops, ¬ op.isReset) :
    DecodableChain (deliveredHeaders (b.run ops).2) := by
  have h := run_extends b ops hops
  simp only [Extends, anchor, hb, Bool.false_eq_true, if_false] at h
  exact .of_path h

/-- A fresh or just reset buffer delivers a decodable chain, whatever frames,
aborts, polls and round trip times it is given and in whatever order. -/
theorem delivered_decodableChain (b : VideoFrameReorderBuffer φ)
    (hb : (∃ cfg, b = new cfg) ∨ ∃ b₀ : VideoFrameReorderBuffer φ, b = b₀.reset)
    (ops : List (ReorderOp φ)) (hops : ∀ op ∈ ops, ¬ op.isReset) :
    DecodableChain (deliveredHeaders (b.run ops).2) := by
  rcases hb with ⟨cfg, rfl⟩ | ⟨b₀, rfl⟩
  · exact run_decodable rfl hops
  · exact run_decodable rfl hops

/-- A delta that overtook its keyframe, across the wrap of the counter. -/
theorem delivered_decodableChain_overtaken :
    let key : VideoFrameHeader := { frameSeq := 0xFFFFFFFF, flags := 1 }
    let delta : VideoFrameHeader := { frameSeq := 0 }
    let ops : List (ReorderOp Bytes) := [.frame delta [1] 1, .poll 2, .frame key [2] 3]
    deliveredHeaders ((new {} : VideoFrameReorderBuffer Bytes).run ops).2 = [key, delta] ∧
      DecodableChain [key, delta] := by
  intro key delta ops
  have hrun : deliveredHeaders ((new {} : VideoFrameReorderBuffer Bytes).run ops).2 =
      [key, delta] := by decide
  refine ⟨hrun, ?_⟩
  rw [← hrun]
  exact delivered_decodableChain _ (Or.inl ⟨{}, rfl⟩) ops (by decide)

/-! ### Where frames come from -/

/-- Every held frame satisfies `P`. -/
def HeldAll (P : VideoFrameHeader → φ → Prop) (b : VideoFrameReorderBuffer φ) : Prop :=
  ∀ e ∈ b.held.entries, P e.2.hdr e.2.frame

/-- `r` is the outcome of a call that holds and delivers frames with `P` only. -/
structure Yields (P : VideoFrameHeader → φ → Prop)
    (r : VideoFrameReorderBuffer φ × List (ReorderEvent φ)) : Prop where
  held : HeldAll P r.1
  delivered : ∀ x ∈ deliveredFrames r.2, P x.1 x.2

variable {P : VideoFrameHeader → φ → Prop}

omit [FrameBytes φ] in
theorem HeldAll.yields (h : HeldAll P b) {events : List (ReorderEvent φ)}
    (hnone : deliveredFrames events = []) : Yields P (b, events) :=
  ⟨h, by simp [hnone]⟩

omit [FrameBytes φ] in
theorem HeldAll.recovery {r : VideoFrameReorderBuffer φ × List (ReorderEvent φ)}
    (h : HeldAll P b) (hr : RecoveryOnly b r) : Yields P r := by
  obtain ⟨⟨awaiting, reported, hstate⟩, hdelivered, _⟩ := hr
  refine ⟨?_, by simp [hdelivered]⟩
  rw [hstate]
  exact h

theorem HeldAll.boundHeld (h : HeldAll P b) : HeldAll P b.boundHeld :=
  fun e he => h e ((boundHeldLoop_evicts b.held.size b).entries.mem he)

theorem HeldAll.dropHeld (h : HeldAll P b) (keep : Int × Held φ → Bool) :
    HeldAll P (b.dropHeld keep) :=
  fun e he => h e ((dropHeld_evicts b keep).entries.mem he)

theorem HeldAll.hold {hdr : VideoFrameHeader} {frame : φ} (h : HeldAll P b) (hnew : P hdr frame)
    (nowUs : Int) : HeldAll P (b.hold hdr frame nowUs) := by
  intro e he
  rcases OrderedMap.of_mem_emplace he with rfl | he
  · exact hnew
  · exact h e he

omit [FrameBytes φ] in
theorem heldAll_rekey {held : OrderedMap Int (Held φ)} (base : BitVec 32)
    (h : ∀ e ∈ held.entries, P e.2.hdr e.2.frame) :
    ∀ e ∈ (rekeyHeld held base).entries, P e.2.hdr e.2.frame := by
  intro e he
  obtain ⟨e', he', heq⟩ := List.mem_map.mp (OrderedMap.of_mem_rekey he)
  rw [← heq]
  exact h e' he'

/-- A delivery hands on the new frame and frames that were held. -/
theorem Resumes.yields {hdr : VideoFrameHeader} {frame : φ} {taken : List (Int × Held φ)}
    {b' : VideoFrameReorderBuffer φ} {r : VideoFrameReorderBuffer φ × List (ReorderEvent φ)}
    (hr : Resumes b hdr frame taken b' r) (h : HeldAll P b) (hnew : P hdr frame) :
    Yields P r := by
  obtain ⟨hdrains, ⟨losses, hrecovery⟩, hdelivered⟩ := hr
  have hentries := hdrains.entries
  rw [forgetInflightThrough_eq] at hentries
  dsimp only at hentries
  have hmem : ∀ e, e ∈ taken ∨ e ∈ b'.held.entries → P e.2.hdr e.2.frame := by
    intro e he
    refine h e ?_
    rw [hentries, List.mem_append]
    exact he
  refine ⟨?_, fun x hx => ?_⟩
  · have hsettled : HeldAll P b'.settled := heldAll_rekey _ fun e he => hmem e (Or.inr he)
    exact (hsettled.recovery hrecovery).held
  · rw [hdelivered] at hx
    rcases List.mem_cons.mp hx with rfl | hx
    · exact hnew
    · obtain ⟨e, he, rfl⟩ := List.mem_map.mp hx
      exact hmem e (Or.inl he)

theorem onFrame_yields (h : HeldAll P b) {hdr : VideoFrameHeader} {frame : φ} (hnew : P hdr frame)
    (nowUs : Int) : Yields P (b.onFrame hdr frame nowUs) := by
  unfold onFrame
  split
  · exact h.yields rfl
  · split
    · split
      · refine HeldAll.yields ?_ rfl
        unfold onStartupDelta
        dsimp only
        split <;> split <;>
          first
          | exact h
          | exact (HeldAll.hold (b := { b with lastDelivered := hdr.frameSeq }) h hnew
              nowUs).boundHeld
          | exact (h.hold hnew nowUs).boundHeld
      · obtain ⟨taken, b', hresumes⟩ := resumeAt_resumes _ hdr frame nowUs
        refine hresumes.yields ?_ hnew
        exact heldAll_rekey _ (h.dropHeld _)
    · split
      · obtain ⟨taken, b', hresumes⟩ := resumeAt_resumes _ hdr frame nowUs
        exact hresumes.yields h hnew
      · split
        · obtain ⟨taken, b', hresumes⟩ := resumeAt_resumes _ hdr frame nowUs
          refine hresumes.yields ?_ hnew
          exact h.dropHeld _
        · unfold onGapDelta
          dsimp only
          split
          · exact h.yields rfl
          · generalize hheld : VideoFrameReorderBuffer.hold _ hdr frame nowUs = b₀
            have hkept : HeldAll P b₀ := by
              rw [← hheld]
              split
              · exact HeldAll.hold (b := { b with gapSinceUs := nowUs }) h hnew nowUs
              · exact h.hold hnew nowUs
            have hrequire := requireKeyframe_recoveryOnly b₀ nowUs
            split
            · exact (hkept.recovery hrequire).held.boundHeld.yields hrequire.delivered
            · split
              · exact hkept.recovery hrequire
              · exact hkept.yields rfl

theorem onFrameAborted_yields (h : HeldAll P b) (frameSeq : BitVec 32) (nowUs : Int) :
    Yields P (b.onFrameAborted frameSeq nowUs) := by
  have hsilent := (onFrameAborted_silent b frameSeq nowUs).delivered
  refine ⟨?_, by simp [hsilent]⟩
  unfold onFrameAborted
  dsimp only
  generalize hb₀ : (if (b.inflightKey && decide (frameSeq = b.inflightKeySeq)) = true then
    { b with inflightKey := false } else b) = b₀
  have hkept : HeldAll P b₀ := by
    rw [← hb₀]
    split <;> exact h
  have hnote : ∀ b₁ : VideoFrameReorderBuffer φ, HeldAll P b₁ → HeldAll P (b₁.noteAborted frameSeq) := by
    intro b₁ h₁
    unfold noteAborted
    split
    · exact fun e he => h₁ e (OrderedMap.mem_erase.mp he).1
    · split <;> exact h₁
  have hrequire := (hkept.recovery (requireKeyframe_recoveryOnly b₀ nowUs)).held
  split
  · exact hkept
  · split
    · split
      · exact (hrequire.recovery (reportLoss_recoveryOnly _)).held
      · exact hrequire
    · split
      · exact hkept
      · split
        · exact hnote _ (hkept.recovery (reportLoss_recoveryOnly b₀)).held
        · exact hnote _ hkept

theorem poll_yields (h : HeldAll P b) (nowUs : Int) : Yields P (b.poll nowUs) := by
  unfold poll
  dsimp only
  split
  · exact ⟨h.dropHeld _, by simp⟩
  · split
    · split
      · exact h.recovery (reportLoss_recoveryOnly b)
      · exact h.yields rfl
    · split
      · exact h.recovery (requireKeyframe_recoveryOnly b nowUs)
      · exact h.yields rfl

omit [FrameBytes φ] in
theorem onFrameStarted_heldAll (h : HeldAll P b) (hdr : VideoFrameHeader) (nowUs : Int) :
    HeldAll P (b.onFrameStarted hdr nowUs) := by
  unfold onFrameStarted
  split
  · exact h
  · split
    · exact h
    · split <;> exact h

theorem step_yields (h : HeldAll P b) (op : ReorderOp φ)
    (hop : ∀ hdr frame nowUs, op = .frame hdr frame nowUs → P hdr frame) : Yields P (b.step op) := by
  cases op with
  | frameStarted hdr nowUs => exact (onFrameStarted_heldAll h hdr nowUs).yields rfl
  | frame hdr frame nowUs => exact onFrame_yields h (hop hdr frame nowUs rfl) nowUs
  | frameAborted frameSeq nowUs => exact onFrameAborted_yields h frameSeq nowUs
  | poll nowUs => exact poll_yields h nowUs
  | setRtt rttUs => exact ⟨h, by simp [step]⟩
  | reset => exact ⟨fun e he => by simp [step, reset] at he, by simp [step]⟩

theorem run_yields (h : HeldAll P b) {ops : List (ReorderOp φ)}
    (hops : ∀ hdr frame nowUs, .frame hdr frame nowUs ∈ ops → P hdr frame) :
    Yields P (b.run ops) := by
  induction ops generalizing b with
  | nil => exact h.yields rfl
  | cons op ops ih =>
      have hstep := step_yields h op fun hdr frame nowUs heq => hops hdr frame nowUs (by simp [heq])
      have hrest := ih hstep.held fun hdr frame nowUs hin => hops hdr frame nowUs (by simp [hin])
      rw [run_cons]
      refine ⟨hrest.held, fun x hx => ?_⟩
      rw [deliveredFrames_append, List.mem_append] at hx
      exact hx.elim (hstep.delivered x) (hrest.delivered x)

end VideoFrameReorderBuffer

end Parties.Video

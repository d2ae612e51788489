import Mathlib.Data.List.Chain
import Parties.Video.DecoderRequests
import Parties.Video.RouterIsolation

/-!
# The decode thread behind the router

The router hands a watched stream a chain of frames. The gate of the stream sees the very
headers the router has judged, and drops only frames it could not start with, so it never meets
a gap: a discontinuity is left to the self-preview, whose frames do not pass a router.
-/

namespace Parties.Video

/-! ### Frames with their own headers -/

namespace VideoReceiveRouter

variable {φ : Type} [FrameBytes φ] {stream : StreamId}

/-- The header was read from the frame. -/
def OwnHeader (hdr : VideoFrameHeader) (frame : φ) : Prop :=
  VideoFrameHeader.parse (FrameBytes.bytes frame) = some hdr

theorem bufferOps_ownHeader {op : RouterOp φ} {hdr : VideoFrameHeader} {frame : φ} {nowUs : Int}
    (h : .frame hdr frame nowUs ∈ bufferOps stream op) : OwnHeader hdr frame := by
  cases op with
  | onFrame s frame' nowUs' =>
    simp only [bufferOps] at h
    split at h
    · cases h
    next hdr' hparse =>
      split at h
      · simp only [List.mem_singleton, ReorderOp.frame.injEq] at h
        obtain ⟨rfl, rfl, -⟩ := h
        exact hparse
      · cases h
  | onFrameStarted s hdr' nowUs' =>
    simp only [bufferOps] at h
    split at h <;> simp at h
  | onFrameAborted s frameSeq nowUs' =>
    cases frameSeq with
    | none => simp [bufferOps] at h
    | some seq =>
      simp only [bufferOps] at h
      split at h <;> simp at h
  | tick nowUs' needs order => simp [bufferOps] at h
  | setRtt rttUs => simp [bufferOps] at h
  | openStream s nowUs' => simp [bufferOps] at h
  | close s => simp [bufferOps] at h
  | closeAll => simp [bufferOps] at h
  | requestKeyframe s nowUs' => simp [bufferOps] at h
  | collect nowUs' order => simp [bufferOps] at h
  | deliverNext => simp [bufferOps] at h

/-- Every frame of the stream, in its buffer or past it, is kept with its own header. -/
structure Genuine (stream : StreamId) (r : VideoReceiveRouter φ) : Prop where
  playout : r.cfg.playout = true
  flow : ∀ x ∈ flow stream r, OwnHeader x.1 x.2
  held : ∀ b, bufferOf stream r = some b → b.HeldAll OwnHeader

theorem Genuine.step {r : VideoReceiveRouter φ} (h : Genuine stream r) {op : RouterOp φ}
    (hop : ∀ nowUs, op ≠ .openStream stream nowUs) :
    Genuine stream (r.step op).1 ∧ ∀ x ∈ deliveredTo stream (r.step op).2, OwnHeader x.1 x.2 := by
  obtain hserves | ⟨-, hkept, hnone, hquiet, hpre⟩ := step_serves h.playout hop
  · have hrun : (∀ b', (bufferRun (bufferOf stream r) (bufferOps stream op)).1 = some b' →
        b'.HeldAll OwnHeader) ∧
          ∀ x ∈ (bufferRun (bufferOf stream r) (bufferOps stream op)).2, OwnHeader x.1 x.2 := by
      cases hbuffer : bufferOf stream r with
      | none => simp [bufferRun]
      | some b =>
        have hops : ∀ hdr frame nowUs, .frame hdr frame nowUs ∈ bufferOps stream op →
            OwnHeader hdr frame := fun _ _ _ hin => bufferOps_ownHeader hin
        have hyields := VideoFrameReorderBuffer.run_yields (h.held b hbuffer) hops
        refine ⟨fun b' hb' => ?_, hyields.delivered⟩
        obtain rfl : (b.run (bufferOps stream op)).1 = b' := Option.some.inj hb'
        exact hyields.held
    have hall : ∀ x ∈ deliveredTo stream (r.step op).2 ++
        VideoReceiveRouter.flow stream (r.step op).1, OwnHeader x.1 x.2 := by
      rw [hserves.flow]
      exact List.forall_mem_append.mpr ⟨h.flow, hrun.2⟩
    obtain ⟨hdelivered, hflow⟩ := List.forall_mem_append.mp hall
    refine ⟨⟨hserves.playout.trans h.playout, hflow, ?_⟩, hdelivered⟩
    rw [hserves.buffer]
    exact hrun.1
  · refine ⟨⟨hkept.trans h.playout, fun x hx => h.flow x (hpre.subset hx), ?_⟩, ?_⟩
    · simp [hnone]
    · simp [hquiet]

theorem Genuine.run {r : VideoReceiveRouter φ} (h : Genuine stream r) {ops : List (RouterOp φ)}
    (hops : ∀ op ∈ ops, ∀ nowUs, op ≠ .openStream stream nowUs) :
    ∀ x ∈ deliveredTo stream (r.run ops).2, OwnHeader x.1 x.2 := by
  induction ops generalizing r with
  | nil => simp
  | cons op ops ih =>
    obtain ⟨hop, hrest⟩ := List.forall_mem_cons.mp hops
    obtain ⟨hstep, hdelivered⟩ := h.step hop
    rw [run_cons, deliveredTo_append]
    exact List.forall_mem_append.mpr ⟨hdelivered, ih hstep hrest⟩

theorem openStream_genuine {r : VideoReceiveRouter φ} (hplayout : r.cfg.playout = true)
    (hflow : flow stream r = []) (nowUs : Int) : Genuine stream (r.openStream stream nowUs) := by
  refine ⟨hplayout, ?_, fun b hb => ?_⟩
  · have hsame : VideoReceiveRouter.flow stream (r.openStream stream nowUs) = [] := hflow
    rw [hsame]
    exact List.forall_mem_nil _
  · simp only [bufferOf, openStream, Function.update_self, Option.map_some,
      Option.some.injEq] at hb
    subst hb
    intro e he
    simp [VideoFrameReorderBuffer.new, VideoFrameReorderBuffer.setRtt] at he

end VideoReceiveRouter

/-! ### The gate behind a chain -/

/-- The frame a step delivers. -/
def DecodeOp.frame? : DecodeOp → Option Bytes
  | .frame data => some data
  | _ => none

def framesOf (ops : List (Int × DecodeOp)) : List Bytes := ops.filterMap fun op => op.2.frame?

namespace VideoStream

variable {s : VideoStream} {previous : Option VideoFrameHeader}

/-- A stream that has met no gap: an open gate stands at the frame delivered last. -/
structure Unbroken (s : VideoStream) (previous : Option VideoFrameHeader) : Prop where
  idle : s.senderAsking = false
  gate : s.running = true → s.decodeGate.awaitingKeyframe = false →
    s.decodeGate.haveLastFrame = true ∧ ∃ hdr ∈ previous, s.decodeGate.lastFrame = hdr.frameSeq

theorem Unbroken.closed {s' : VideoStream} (h : Unbroken s previous)
    (hsender : s'.senderAsking = s.senderAsking) (hrunning : s'.running = true → s.running = true)
    (hgate : s'.decodeGate = s.decodeGate ∨ s'.decodeGate = s.decodeGate.requireKeyframe) :
    Unbroken s' previous := by
  refine ⟨hsender.trans h.idle, fun hrun => ?_⟩
  obtain hsame | hclosed := hgate
  · rw [hsame]
    exact h.gate (hrunning hrun)
  · rw [hclosed]
    intro hopen
    cases hopen

/-- What the threads but the delivering one leave of the gate. -/
theorem decodeStep_gate (s : VideoStream) (turn : DecodeTurn) (nowUs : Int) :
    (s.decodeStep turn nowUs).1.senderAsking = s.senderAsking ∧
      (s.decodeStep turn nowUs).1.running = s.running ∧
      ((s.decodeStep turn nowUs).1.decodeGate = s.decodeGate ∨
        (s.decodeStep turn nowUs).1.decodeGate = s.decodeGate.requireKeyframe) ∧
      .gateClosed .discontinuity ∉ (s.decodeStep turn nowUs).2 := by
  unfold decodeStep
  split
  · unfold takeBatch
    split_ifs <;> simp
  next batch hphase =>
    obtain hnext | ⟨retained, hnext, -⟩ := s.judgeBatch_cases batch nowUs <;> simp [hnext]
  · simp
  next work rest hphase =>
    have hquiet : .gateClosed .discontinuity ∉ (s.prepareDecoder work turn.initOk).2.1 :=
      fun hin => s.prepareDecoder_quiet work turn.initOk _ hin
    obtain ⟨warm, hprepared⟩ := s.prepareDecoder_eq work turn.initOk
    unfold decodeOne
    generalize s.prepareDecoder work turn.initOk = prepared at *
    obtain ⟨s', events, ok⟩ := prepared
    subst hprepared
    split
    · simp
    · cases ok with
      | false => exact ⟨rfl, rfl, .inl rfl, hquiet⟩
      | true =>
        dsimp only
        split <;> split <;> simpa using hquiet
  · simp [flushBacklog]
  · cases hdecoder : s.decoder <;> simp [recoverAtKeyframe, hdecoder]
  · simp [askForKeyframe]
  · simp

/-- A step that delivers nothing leaves the stream unbroken. -/
theorem Unbroken.step_of_none (h : Unbroken s previous) {op : Int × DecodeOp}
    (hnone : op.2.frame? = none) :
    Unbroken (s.step op).1 previous ∧ .gateClosed .discontinuity ∉ (s.step op).2 := by
  obtain ⟨nowUs, op⟩ := op
  cases op with
  | frame data => cases hnone
  | sendPli =>
    have hstep : s.step (nowUs, .sendPli) = (s, []) := by simp [step, sendPli, h.idle]
    rw [hstep]
    exact ⟨h, List.not_mem_nil⟩
  | decodeThread turn =>
    obtain ⟨hsender, hrunning, hgate, hnot⟩ := s.decodeStep_gate turn nowUs
    exact ⟨h.closed hsender (hrunning ▸ id) hgate, hnot⟩
  | poll =>
    unfold step streamAwaitingKeyframe
    dsimp only
    split
    · exact ⟨h, List.not_mem_nil⟩
    · split
      · exact ⟨h, List.not_mem_nil⟩
      · split
        · exact ⟨h, List.not_mem_nil⟩
        · exact ⟨h.closed rfl id (.inl rfl), by simp⟩
  | stop => exact ⟨h.closed rfl Bool.noConfusion (.inl rfl), List.not_mem_nil⟩

/-- A frame that follows the one before it passes the gate, or meets it closed. -/
theorem Unbroken.frame (h : Unbroken s previous) {data : Bytes} {hdr : VideoFrameHeader}
    (hparse : VideoFrameHeader.parse data = some hdr)
    (hpayload : VIDEO_FRAME_HEADER_SIZE < data.length)
    (hfollows : ∀ p ∈ previous, Follows p.frameSeq hdr) (nowUs : Int) :
    Unbroken (s.step (nowUs, .frame data)).1 (some hdr) ∧
      .gateClosed .discontinuity ∉ (s.step (nowUs, .frame data)).2 := by
  have hsome : data.drop VIDEO_FRAME_HEADER_SIZE ≠ [] := by
    intro hnil
    rw [List.drop_eq_nil_iff] at hnil
    omega
  have hstep : s.step (nowUs, .frame data) = s.enqueueDecodeWork
      (data.drop VIDEO_FRAME_HEADER_SIZE) hdr.frameSeq ⟨hdr.codec, hdr.width, hdr.height⟩
      hdr.keyframe nowUs := by
    simp only [step, h.idle, onVideoFrameReceived, hparse, hsome, Bool.false_eq_true, if_false]
  rw [hstep, enqueueDecodeWork]
  split
  next hstopped =>
    refine ⟨⟨h.idle, fun hrunning => ?_⟩, List.not_mem_nil⟩
    rw [hrunning] at hstopped
    cases hstopped
  next hrunning =>
    rw [Bool.not_eq_true', Bool.not_eq_false] at hrunning
    obtain ⟨g', hdecision, rfl, -⟩ | ⟨hdecision, hawaiting, -⟩ | ⟨hdecision, hopen, hdelta, hgap⟩ :=
      s.decodeGate.onFrame_cases hdr.frameSeq hdr.keyframe
    · simp only [hdecision]
      exact ⟨⟨h.idle, fun _ _ => ⟨rfl, hdr, rfl, rfl⟩⟩, List.not_mem_nil⟩
    · simp only [hdecision]
      refine ⟨⟨h.idle, fun _ hopen => ?_⟩, List.not_mem_nil⟩
      rw [hawaiting] at hopen
      cases hopen
    · -- a gap: but the open gate stands at the frame before
      obtain ⟨hlast, p, hp, hstands⟩ := h.gate hrunning hopen
      exact absurd ⟨hlast, hstands ▸ (hfollows p hp).2 hdelta⟩ hgap

/-- The frames that are still to come follow each other, and the first of them what was there
before. -/
def ComesAfter (previous : Option VideoFrameHeader) (hdrs : List VideoFrameHeader) : Prop :=
  (previous.toList ++ hdrs).IsChain fun p hdr => Follows p.frameSeq hdr

theorem ComesAfter.follows {hdr : VideoFrameHeader} {hdrs : List VideoFrameHeader}
    (h : ComesAfter previous (hdr :: hdrs)) : ∀ p ∈ previous, Follows p.frameSeq hdr := by
  rintro p rfl
  exact (List.isChain_cons_cons.mp h).1

theorem ComesAfter.tail {hdr : VideoFrameHeader} {hdrs : List VideoFrameHeader}
    (h : ComesAfter previous (hdr :: hdrs)) : ComesAfter (some hdr) hdrs := by
  cases previous with
  | none => exact h
  | some p => exact (List.isChain_cons_cons.mp h).2

/-- Behind a chain of frames there is no discontinuity. -/
theorem Unbroken.run (h : Unbroken s previous) {ops : List (Int × DecodeOp)}
    (hdrs : List VideoFrameHeader)
    (hframes : (framesOf ops).map VideoFrameHeader.parse = hdrs.map some)
    (hpayload : ∀ data ∈ framesOf ops, VIDEO_FRAME_HEADER_SIZE < data.length)
    (hchain : ComesAfter previous hdrs) :
    .gateClosed .discontinuity ∉ (Machine.run (Machine.logged step) (s, []) ops).2 := by
  induction ops generalizing s previous hdrs with
  | nil => exact List.not_mem_nil
  | cons op ops ih =>
    rw [Machine.run_cons, Machine.logged, List.nil_append, Machine.run_logged]
    rw [List.mem_append, not_or]
    cases hframe : op.2.frame? with
    | none =>
      have hrest : framesOf (op :: ops) = framesOf ops := List.filterMap_cons_none hframe
      rw [hrest] at hframes hpayload
      obtain ⟨hstep, hnot⟩ := h.step_of_none hframe
      exact ⟨hnot, ih hstep hdrs hframes hpayload hchain⟩
    | some data =>
      have hrest : framesOf (op :: ops) = data :: framesOf ops := List.filterMap_cons_some hframe
      rw [hrest] at hframes hpayload
      obtain ⟨hpay, hpayload⟩ := List.forall_mem_cons.mp hpayload
      cases hdrs with
      | nil => cases hframes
      | cons hdr hdrs =>
        obtain ⟨hparse, hframes⟩ := List.cons_eq_cons.mp hframes
        have hop : op = (op.1, .frame data) := by
          obtain ⟨nowUs, op⟩ := op
          cases op <;> simp_all [DecodeOp.frame?]
        obtain ⟨hstep, hnot⟩ := h.frame hparse hpay hchain.follows op.1
        rw [← hop] at hstep hnot
        exact ⟨hnot, ih hstep hdrs hframes hpayload hchain.tail⟩

/-- A stream that is opened with nothing left of its last watch, and whose frames carry a
payload: whichever stretch of what the router hands on reaches the decode thread, the gate meets
no gap. -/
theorem no_discontinuity_behind_router (cfg : VideoReceiveRouterConfig)
    (hplayout : cfg.playout = true) (pre post : List (RouterOp Bytes)) (stream : StreamId)
    (nowUs : Int)
    (hclean : VideoReceiveRouter.OpensClean ((VideoReceiveRouter.new cfg).run pre).1
      (.openStream stream nowUs))
    (hpayload : ∀ frame t, .onFrame stream frame t ∈ post → VIDEO_FRAME_HEADER_SIZE < frame.length)
    (selfPreview : Bool) (ops : List (Int × DecodeOp))
    (hframes : framesOf ops <:+: (deliveredTo stream
      ((((VideoReceiveRouter.new cfg).run pre).1.openStream stream nowUs).run
        (VideoReceiveRouter.untilReopen stream post)).2).map Prod.snd) :
    .gateClosed .discontinuity ∉ (run selfPreview ops).2 := by
  have hnew : (VideoReceiveRouter.new cfg : VideoReceiveRouter Bytes).cfg.playout = true := hplayout
  have hplays := VideoReceiveRouter.run_playout hnew pre
  have hflow := VideoReceiveRouter.flow_eq_nil_iff.mpr hclean
  have hgenuine := VideoReceiveRouter.openStream_genuine hplays hflow nowUs
  have hown := hgenuine.run fun op (hop : op ∈ VideoReceiveRouter.untilReopen stream post) =>
    VideoReceiveRouter.mem_untilReopen op hop
  have hdecodable := (VideoReceiveRouter.isolated_of_flow_nil hplays hflow nowUs post).decodable
  have hreceived := (VideoReceiveRouter.isolated_of_flow_nil hplays hflow nowUs
    (VideoReceiveRouter.untilReopen stream post)).received
  generalize deliveredTo stream _ = delivered at hframes hown hdecodable hreceived
  obtain ⟨front, back, hsplit⟩ := hframes
  obtain ⟨front', back, rfl, hfront, -⟩ := List.map_eq_append_iff.mp hsplit.symm
  obtain ⟨front, middle, rfl, -, hmiddle⟩ := List.map_eq_append_iff.mp hfront
  have hin : ∀ x ∈ middle, x ∈ front ++ middle ++ back :=
    fun x hx => List.mem_append_left _ (List.mem_append_right _ hx)
  have hidle : Unbroken (new selfPreview) none := ⟨rfl, fun _ hopen => by cases hopen⟩
  refine hidle.run (middle.map Prod.fst) ?_ (fun data hdata => ?_) ?_
  · rw [← hmiddle, List.map_map, List.map_map]
    exact List.map_congr_left fun x hx => hown x (hin x hx)
  · rw [← hmiddle] at hdata
    obtain ⟨x, hx, rfl⟩ := List.mem_map.mp hdata
    obtain ⟨t, ht⟩ := hreceived x (hin x hx)
    exact hpayload x.2 t ((List.takeWhile_sublist _).subset ht)
  · have hchain := hdecodable.follows
    rw [List.map_append, List.map_append] at hchain
    exact hchain.left_of_append.right_of_append

/-- A keyframe and a delta behind a router, and a decode thread between them. -/
theorem no_discontinuity_behind_router_two : .gateClosed .discontinuity ∉
    (run false [(30, .frame (keyframeBytes 7 ++ [1])), (31, .decodeThread {}),
      (32, .decodeThread {}), (40, .frame (deltaFrameBytes 8 ++ [2])),
      (41, .decodeThread {})]).2 := by
  refine no_discontinuity_behind_router {} rfl []
    [.onFrame 5 (keyframeBytes 7 ++ [1]) 10, .onFrame 5 (deltaFrameBytes 8 ++ [2]) 20,
      .collect 1000000 [(5, 2)], .deliverNext, .deliverNext] 5 0 ⟨rfl, ?_⟩ ?_ false _ ?_
  · intro p hp
    cases hp
  · intro frame t hin
    simp only [List.mem_cons, RouterOp.onFrame.injEq, reduceCtorEq, List.not_mem_nil] at hin
    obtain ⟨-, rfl, -⟩ | ⟨-, rfl, -⟩ | h | h | h | h := hin
    · decide
    · decide
    all_goals exact h.elim
  · have hdelivered : framesOf [(30, .frame (keyframeBytes 7 ++ [1])), (31, .decodeThread {}),
        (32, .decodeThread {}), (40, .frame (deltaFrameBytes 8 ++ [2])), (41, .decodeThread {})] =
        [keyframeBytes 7 ++ [1], deltaFrameBytes 8 ++ [2]] := rfl
    rw [hdelivered]
    decide

end VideoStream

end Parties.Video

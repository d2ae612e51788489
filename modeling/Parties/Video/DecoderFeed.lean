import Parties.Lib.EventLog
import Parties.Video.DecodeLoop

/-!
# What reaches a decoder

The gate sees the frames in the order of their delivery, the decoder gets them in batches
later, and either thread may give up what the other has not seen yet. Still a decoder is handed
nothing it cannot decode: a keyframe, or the successor of the frame it has decoded last. The
invariant is about all that is ahead of the decoder, the batch and the queue behind it; while
the thread is on its way to a lock where it will empty the queue, nothing is known of it.
-/

namespace Parties.Video

/-! ### The law -/

/-- The frame the present decoder has decoded last. -/
def decodedStep (last : Option DecodeWork) : DecodeEvent → Option DecodeWork
  | .initDecoder _ _ | .shutdownDecoder => none
  | .decode work _ decoded => if decoded then some work else none
  | .gateClosed _ | .requestKeyframe | .trackerCall _ => last

def lastDecoded (log : List DecodeEvent) : Option DecodeWork := log.foldl decodedStep none

/-- `work` is the frame behind `last`. -/
def DecodeWork.Succeeds (work : DecodeWork) (last : Option DecodeWork) : Prop :=
  ∃ v ∈ last, work.timestamp = v.timestamp + 1

/-- The decoder can take `work` behind the events `front`. It is new to a delta only if the
sharer changed the format of its stream with this very frame. -/
inductive CanDecode (front : List DecodeEvent) (work : DecodeWork) : Prop where
  | keyframe (h : work.keyframe = true)
  | delta (h : work.Succeeds (lastDecoded front))
  | reformatted (before : List DecodeEvent) (hardware : Bool) (v : DecodeWork)
      (hfront : front = before ++ [.shutdownDecoder, .initDecoder work.format hardware])
      (hv : lastDecoded before = some v) (h : work.timestamp = v.timestamp + 1)
      (hformat : v.format ≠ work.format)

/-- What holds of the events in front of a frame that is handed to a decoder. -/
def FedRight (front : List DecodeEvent) : DecodeEvent → Prop
  | .decode work _ _ => CanDecode front work
  | _ => True

/-! ### Chains of frames ahead of the decoder -/

variable {last : Option DecodeWork} {works rest : List DecodeWork} {work : DecodeWork}

/-- The frames can be decoded one after the other behind `last`. -/
def Feeds : Option DecodeWork → List DecodeWork → Prop
  | _, [] => True
  | last, work :: works => (work.keyframe = true ∨ work.Succeeds last) ∧ Feeds (some work) works

/-- The last of the frames, or `last` if there is none. -/
def lastOf (last : Option DecodeWork) (works : List DecodeWork) : Option DecodeWork :=
  works.getLast?.or last

@[simp] theorem lastOf_nil : lastOf last [] = last := rfl

@[simp] theorem lastOf_cons : lastOf last (work :: works) = lastOf (some work) works := by
  cases works with
  | nil => rfl
  | cons next works => simp [lastOf, List.getLast?_cons]

@[simp] theorem lastOf_concat : lastOf last (works ++ [work]) = some work := by simp [lastOf]

theorem lastOf_append : lastOf last (works ++ rest) = lastOf (lastOf last works) rest := by
  simp only [lastOf, List.getLast?_append, Option.or_assoc]

theorem feeds_append :
    Feeds last (works ++ rest) ↔ Feeds last works ∧ Feeds (lastOf last works) rest := by
  induction works generalizing last with
  | nil => simp [Feeds]
  | cons work works ih =>
    rw [List.cons_append, Feeds, Feeds, ih, lastOf_cons, and_assoc]

theorem feeds_concat : Feeds last (works ++ [work]) ↔
    Feeds last works ∧ (work.keyframe = true ∨ work.Succeeds (lastOf last works)) := by
  rw [feeds_append]
  simp [Feeds]

/-- A chain that starts at a keyframe does not depend on what was there before. -/
theorem Feeds.restart {last' : Option DecodeWork} (h : Feeds last (work :: works))
    (hkey : work.keyframe = true) : Feeds last' (work :: works) := ⟨.inl hkey, h.2⟩

/-! ### The trim -/

variable {ω : Type} {isKeyframe : ω → Bool} {frames : List ω}

/-- All frames are retained, or those from the last keyframe on; the others are counted. -/
theorem trimToLatestKeyframe_cases (isKeyframe : ω → Bool) (frames : List ω) :
    (trimToLatestKeyframe isKeyframe frames = (frames, {}) ∧ ∀ f ∈ frames, isKeyframe f = false) ∨
    ∃ dropped key behind, frames = dropped ++ key :: behind ∧ isKeyframe key = true ∧
      (∀ f ∈ behind, isKeyframe f = false) ∧
      trimToLatestKeyframe isKeyframe frames = (key :: behind, ⟨true, dropped.length⟩) := by
  induction frames using List.reverseRecOn with
  | nil => exact .inl ⟨rfl, by simp⟩
  | append_singleton frames f ih =>
    unfold trimToLatestKeyframe at ih ⊢
    rw [List.foldl_append, List.foldl_cons, List.foldl_nil]
    by_cases hf : isKeyframe f = true
    · right
      refine ⟨frames, f, [], rfl, hf, by simp, ?_⟩
      obtain ⟨hall, -⟩ | ⟨dropped, key, behind, rfl, -, -, htrim⟩ := ih
      · rw [hall, trimStep, if_pos hf]
        simp
      · rw [htrim, trimStep, if_pos hf]
        simp
    · have hdelta : isKeyframe f = false := Bool.not_eq_true _ ▸ hf
      obtain ⟨hall, hnone⟩ | ⟨dropped, key, behind, rfl, hkey, hbehind, htrim⟩ := ih
      · left
        rw [hall, trimStep, if_neg hf]
        exact ⟨rfl, List.forall_mem_append.mpr ⟨hnone, by simpa using hdelta⟩⟩
      · right
        refine ⟨dropped, key, behind ++ [f], by simp, hkey,
          List.forall_mem_append.mpr ⟨hbehind, by simpa using hdelta⟩, ?_⟩
        rw [htrim, trimStep, if_neg hf]
        rfl

/-- The retained frames are still a chain, with the same end. -/
theorem Feeds.trim {queue : List DecodeWork} (h : Feeds last (works ++ queue)) :
    Feeds last ((trimToLatestKeyframe DecodeWork.keyframe works).1 ++ queue) ∧
      lastOf last ((trimToLatestKeyframe DecodeWork.keyframe works).1 ++ queue) =
        lastOf last (works ++ queue) := by
  obtain ⟨hall, -⟩ | ⟨dropped, key, behind, rfl, hkey, -, htrim⟩ :=
    trimToLatestKeyframe_cases DecodeWork.keyframe works
  · rw [hall]
    exact ⟨h, rfl⟩
  · rw [htrim]
    rw [List.append_assoc, feeds_append] at h
    refine ⟨Feeds.restart h.2 hkey, ?_⟩
    simp only [lastOf_append, lastOf_cons]

/-! ### The gate -/

namespace VideoDecodeGate

/-- An open gate stands at the last frame it let through. -/
def StandsAt (g : VideoDecodeGate) (last : Option DecodeWork) : Prop :=
  g.awaitingKeyframe = false → g.haveLastFrame = true ∧ ∃ v ∈ last, g.lastFrame = v.timestamp

theorem requireKeyframe_standsAt (g : VideoDecodeGate) : g.requireKeyframe.StandsAt last := by
  intro hopen
  cases hopen

end VideoDecodeGate

/-! ### The invariant -/

variable {s : VideoStream} {log : List DecodeEvent}

@[simp] theorem lastDecoded_concat (log : List DecodeEvent) (e : DecodeEvent) :
    lastDecoded (log ++ [e]) = decodedStep (lastDecoded log) e := by
  rw [lastDecoded, List.foldl_append, List.foldl_cons, List.foldl_nil]
  rfl

/-- The batch the decode thread goes on with; none if the queue is not to be decoded. -/
def VideoStream.inHand (s : VideoStream) : Option (List DecodeWork) :=
  match s.phase with
  | .waiting => if s.running then some [] else none
  | .judging batch | .decoding batch => some batch
  | .asking => some []
  | .flushing | .recovering _ | .exited => none

structure Feeding (s : VideoStream) (log : List DecodeEvent) : Prop where
  law : EventLog.Law FedRight log
  fits : ∀ v ∈ lastDecoded log, s.decoder = some v.format
  chain : ∀ batch ∈ s.inHand, Feeds (lastDecoded log) (batch ++ s.queue)
  gate : ∀ batch ∈ s.inHand, s.decodeGate.StandsAt (lastOf (lastDecoded log) (batch ++ s.queue))

namespace Feeding

/-- Events that are no business of the decoder. -/
theorem note (h : Feeding s log) {e : DecodeEvent} (hlaw : ∀ front, FedRight front e)
    (hsame : decodedStep (lastDecoded log) e = lastDecoded log) : Feeding s (log ++ [e]) := by
  refine ⟨EventLog.law_concat.mpr ⟨h.law, hlaw log⟩, ?_, ?_, ?_⟩ <;>
    rw [lastDecoded_concat, hsame]
  · exact h.fits
  · exact h.chain
  · exact h.gate

/-- Only what the thread goes on with, the gate and the queue matter. -/
theorem of_same {s' : VideoStream} (h : Feeding s log) (hdecoder : s'.decoder = s.decoder)
    (hhand : s'.inHand = s.inHand) (hgate : s'.decodeGate = s.decodeGate)
    (hqueue : s'.queue = s.queue) : Feeding s' log := by
  refine ⟨h.law, ?_, ?_, ?_⟩
  · rw [hdecoder]
    exact h.fits
  · rw [hhand, hqueue]
    exact h.chain
  · rw [hhand, hqueue, hgate]
    exact h.gate

/-- The queue is emptied and the gate closed: what comes next is a keyframe. -/
theorem emptied {s' : VideoStream} (h : Feeding s log) (hdecoder : s'.decoder = s.decoder)
    (hhand : ∀ batch ∈ s'.inHand, batch = [])
    (hgate : s'.decodeGate = s.decodeGate.requireKeyframe) (hqueue : s'.queue = []) :
    Feeding s' log := by
  refine ⟨h.law, ?_, fun batch hb => ?_, fun batch _ => ?_⟩
  · rw [hdecoder]
    exact h.fits
  · rw [hhand batch hb, hqueue]
    trivial
  · rw [hgate]
    exact s.decodeGate.requireKeyframe_standsAt

/-- Nothing of the queue is to be decoded any more. -/
theorem abandoned {s' : VideoStream} (h : Feeding s log) (hdecoder : s'.decoder = s.decoder)
    (hhand : s'.inHand = none) : Feeding s' log := by
  refine ⟨h.law, ?_, fun batch hb => ?_, fun batch hb => ?_⟩
  · rw [hdecoder]
    exact h.fits
  · rw [hhand] at hb
    cases hb
  · rw [hhand] at hb
    cases hb

/-! ### The threads around the decoder -/

theorem enqueueDecodeWork (h : Feeding s log) (encoded : Bytes) (timestamp : BitVec 32)
    (format : DecodeFormat) (isKeyframe : Bool) (nowUs : Int) :
    Feeding (s.enqueueDecodeWork encoded timestamp format isKeyframe nowUs).1
      (log ++ (s.enqueueDecodeWork encoded timestamp format isKeyframe nowUs).2) := by
  unfold VideoStream.enqueueDecodeWork
  split
  · simpa using h
  · obtain ⟨g', hdecision, rfl, hwhy⟩ | ⟨hdecision, -, -⟩ | ⟨hdecision, -, -, -⟩ :=
      s.decodeGate.onFrame_cases timestamp isKeyframe
    · simp only [hdecision, List.append_nil]
      refine ⟨h.law, h.fits, fun batch hb => ?_, fun batch hb _ => ?_⟩
      · rw [← List.append_assoc, feeds_concat]
        refine ⟨h.chain batch hb, hwhy.imp id ?_⟩
        rintro ⟨hopen, -, hnext⟩
        obtain ⟨-, v, hv, hlast⟩ := h.gate batch hb hopen
        exact ⟨v, hv, by rw [hnext, hlast]⟩
      · rw [← List.append_assoc, lastOf_concat]
        exact ⟨rfl, _, rfl, rfl⟩
    · simp only [hdecision, List.append_nil]
      exact h
    · simp only [hdecision]
      refine Feeding.note ?_ (fun _ => trivial) rfl
      refine ⟨h.law, h.fits, fun batch hb => ?_, fun batch _ =>
        s.decodeGate.requireKeyframe_standsAt⟩
      rw [List.append_nil]
      exact (feeds_append.mp (h.chain batch hb)).1

theorem onVideoFrameReceived (h : Feeding s log) (data : Bytes) (nowUs : Int) :
    Feeding (s.onVideoFrameReceived data nowUs).1
      (log ++ (s.onVideoFrameReceived data nowUs).2) := by
  unfold VideoStream.onVideoFrameReceived
  split
  · simpa using h
  · dsimp only
    split
    · simpa using h
    · exact h.enqueueDecodeWork ..

theorem sendPli (h : Feeding s log) : Feeding s.sendPli.1 (log ++ s.sendPli.2) := by
  unfold VideoStream.sendPli
  split
  · have hsame : Feeding { s with senderAsking := false } log := h.of_same rfl rfl rfl rfl
    exact hsame.note (fun _ => trivial) rfl
  · simpa using h

theorem streamAwaitingKeyframe (h : Feeding s log) (nowUs : Int) :
    Feeding (s.streamAwaitingKeyframe nowUs).2.1
      (log ++ (s.streamAwaitingKeyframe nowUs).2.2) := by
  unfold VideoStream.streamAwaitingKeyframe
  split
  · simpa using h
  · split
    · simpa using h
    · split
      · simpa using h
      · have hsame : Feeding
            { s with staleFlushes := (s.staleFlushes.takeSlowRequest nowUs).1 } log :=
          h.of_same rfl rfl rfl rfl
        exact hsame.note (fun _ => trivial) rfl

theorem stopStreamThread (h : Feeding s log) : Feeding s.stopStreamThread log := by
  have hhand : s.stopStreamThread.inHand = s.inHand ∨ s.stopStreamThread.inHand = none := by
    unfold VideoStream.inHand VideoStream.stopStreamThread
    cases s.phase <;> simp
  obtain hsame | hnone := hhand
  · exact h.of_same rfl hsame rfl rfl
  · exact h.abandoned rfl hnone

/-! ### The decode thread -/

theorem takeBatch (h : Feeding s log) (hphase : s.phase = .waiting) : Feeding s.takeBatch log := by
  unfold VideoStream.takeBatch
  split
  · exact h.abandoned rfl rfl
  next hrunning =>
    have hhand : s.inHand = some [] := by simp_all [VideoStream.inHand]
    split
    · exact h
    · refine ⟨h.law, h.fits, fun batch hb => ?_, fun batch hb => ?_⟩ <;>
        obtain rfl := Option.some.inj hb
      · rw [List.append_nil]
        exact h.chain [] hhand
      · rw [List.append_nil]
        exact h.gate [] hhand

theorem judgeBatch {batch : List DecodeWork} (h : Feeding s log) (hphase : s.phase = .judging batch)
    (nowUs : Int) : Feeding (s.judgeBatch batch nowUs) log := by
  have hhand : s.inHand = some batch := by rw [VideoStream.inHand, hphase]
  obtain hnext | ⟨retained, hnext, hretained⟩ := s.judgeBatch_cases batch nowUs
  · rw [hnext]
    exact h.abandoned rfl rfl
  · have hchain : Feeds (lastDecoded log) (retained ++ s.queue) ∧
        lastOf (lastDecoded log) (retained ++ s.queue) =
          lastOf (lastDecoded log) (batch ++ s.queue) := by
      obtain rfl | rfl := hretained
      · exact ⟨h.chain _ hhand, rfl⟩
      · exact (h.chain batch hhand).trim
    rw [hnext]
    refine ⟨h.law, h.fits, fun b hb => ?_, fun b hb => ?_⟩ <;> obtain rfl := Option.some.inj hb
    · exact hchain.1
    · rw [hchain.2]
      exact h.gate batch hhand

theorem flushBacklog (h : Feeding s log) (nowUs : Int) :
    Feeding (s.flushBacklog nowUs).1 (log ++ (s.flushBacklog nowUs).2) := by
  have hempty : Feeding (s.flushBacklog nowUs).1 log := by
    refine h.emptied rfl (fun batch hb => ?_) rfl rfl
    unfold VideoStream.flushBacklog VideoStream.inHand at hb
    cases hrequest : (s.staleFlushes.onStaleFlush nowUs).2 <;> simp_all
  have hclosed := hempty.note (e := .gateClosed (.staleFlush (s.staleFlushes.onStaleFlush nowUs).2))
    (fun _ => trivial) rfl
  have hcalled := hclosed.note (e := .trackerCall (.staleFlush nowUs)) (fun _ => trivial) rfl
  rwa [List.append_assoc] at hcalled

/-- Without a decoder nothing has been decoded. -/
theorem lastDecoded_eq_none (h : Feeding s log) (hnone : s.decoder = none) :
    lastDecoded log = none := by
  cases hlast : lastDecoded log with
  | none => rfl
  | some v =>
    have hfits := h.fits v hlast
    rw [hnone] at hfits
    cases hfits

/-- The decoder is shut down, if there is one. -/
theorem lastDecoded_close (h : Feeding s log) :
    lastDecoded (log ++ if s.decoder.isSome then [DecodeEvent.shutdownDecoder] else []) = none := by
  cases hdecoder : s.decoder with
  | none => simpa using h.lastDecoded_eq_none hdecoder
  | some format => simp [decodedStep]

theorem law_close (h : EventLog.Law FedRight log) (c : Prop) [Decidable c] :
    EventLog.Law FedRight (log ++ if c then [DecodeEvent.shutdownDecoder] else []) := by
  split
  · exact EventLog.law_concat.mpr ⟨h, trivial⟩
  · simpa using h

theorem recoverAtKeyframe (h : Feeding s log) (disableHardware : Bool) :
    Feeding (s.recoverAtKeyframe disableHardware).1
      (log ++ (s.recoverAtKeyframe disableHardware).2) := by
  have hclosed := h.note (e := .gateClosed .recovery) (fun _ => trivial) rfl
  have hnone := hclosed.lastDecoded_close
  unfold VideoStream.recoverAtKeyframe
  dsimp only
  rw [← List.singleton_append, ← List.append_assoc]
  refine ⟨law_close hclosed.law _, ?_, fun batch hb => ?_, fun batch hb =>
    s.decodeGate.requireKeyframe_standsAt⟩
  · rw [hnone]
    intro v hv
    cases hv
  · obtain rfl := Option.some.inj hb
    trivial

theorem askForKeyframe (h : Feeding s log) (hphase : s.phase = .asking) :
    Feeding s.askForKeyframe.1 (log ++ s.askForKeyframe.2) := by
  have hhand : s.inHand = some [] := by rw [VideoStream.inHand, hphase]
  have hstate : Feeding { s with phase := .waiting } log := by
    cases hrunning : s.running with
    | true => exact h.of_same rfl (by simp [VideoStream.inHand, hphase]) rfl rfl
    | false => exact h.abandoned rfl (by simp [VideoStream.inHand])
  exact hstate.note (fun _ => trivial) rfl

/-! ### One frame -/

/-- Behind a decoder that is made ready for `work` the frame can be decoded: the decoder fits the
frame decoded last, or it is a new one. -/
theorem prepareDecoder {work : DecodeWork} (h : Feeding s log)
    (hnext : work.keyframe = true ∨ work.Succeeds (lastDecoded log)) (initOk : Bool) :
    EventLog.Law FedRight (log ++ (s.prepareDecoder work initOk).2.1) ∧
      (∀ v ∈ lastDecoded (log ++ (s.prepareDecoder work initOk).2.1), v.format = work.format) ∧
      ((s.prepareDecoder work initOk).2.2 = true →
        CanDecode (log ++ (s.prepareDecoder work initOk).2.1) work) := by
  unfold VideoStream.prepareDecoder
  split
  next hfits =>
    rw [List.append_nil]
    refine ⟨h.law, fun v hv => ?_, fun _ => hnext.elim .keyframe .delta⟩
    rw [h.fits v hv] at hfits
    exact Option.some.inj hfits
  next hother =>
    have hnone := h.lastDecoded_close
    have hlaw := law_close h.law (s.decoder.isSome = true)
    cases initOk with
    | true =>
      simp only [if_true]
      rw [← List.append_assoc]
      refine ⟨EventLog.law_concat.mpr ⟨hlaw, trivial⟩, ?_, fun _ => ?_⟩
      · rw [lastDecoded_concat]
        intro v hv
        cases hv
      · obtain hkey | ⟨v, hv, hstep⟩ := hnext
        · exact .keyframe hkey
        · have hdecoder : s.decoder = some v.format := h.fits v hv
          refine .reformatted log (!s.hardwareDecodeDisabled) v ?_ hv hstep fun hsame => ?_
          · rw [hdecoder, List.append_assoc]
            rfl
          · exact hother (hdecoder.trans (congrArg some hsame))
    | false =>
      refine ⟨hlaw, ?_, fun hok => by cases hok⟩
      simp only [Bool.false_eq_true, if_false]
      rw [hnone]
      intro v hv
      cases hv

theorem decodeOne {work : DecodeWork} {rest : List DecodeWork} (h : Feeding s log)
    (hphase : s.phase = .decoding (work :: rest)) (turn : DecodeTurn) (nowUs : Int) :
    Feeding (s.decodeOne work rest turn nowUs).1
      (log ++ (s.decodeOne work rest turn nowUs).2) := by
  have hhand : s.inHand = some (work :: rest) := by rw [VideoStream.inHand, hphase]
  obtain ⟨hnext, hrest⟩ := h.chain _ hhand
  obtain ⟨hlaw, hready, hcan⟩ := h.prepareDecoder hnext turn.initOk
  obtain ⟨warm, hprepared⟩ := s.prepareDecoder_eq work turn.initOk
  unfold VideoStream.decodeOne
  split
  · rw [List.append_nil]
    exact h.abandoned rfl rfl
  · generalize s.prepareDecoder work turn.initOk = prepared at *
    obtain ⟨s', events, ok⟩ := prepared
    subst hprepared
    dsimp only at hlaw hready hcan
    have hfits : ∀ v ∈ lastDecoded (log ++ events), some work.format = some v.format :=
      fun v hv => congrArg some (hready v hv).symm
    cases ok with
    | false => exact ⟨hlaw, hfits, fun _ hb => (by cases hb), fun _ hb => (by cases hb)⟩
    | true =>
      have hdone : EventLog.Law FedRight
          (log ++ (events ++ [.decode work (decide (rest ≠ [])) turn.decoded])) := by
        rw [← List.append_assoc]
        exact EventLog.law_concat.mpr ⟨hlaw, hcan rfl⟩
      have hlast : lastDecoded (log ++ (events ++ [.decode work (decide (rest ≠ [])) turn.decoded]))
          = if turn.decoded then some work else none := by
        rw [← List.append_assoc]
        exact lastDecoded_concat ..
      cases hdecoded : turn.decoded with
      | false =>
        simp only [hdecoded, Bool.false_eq_true, if_false] at hdone hlast
        have hfailed : ∀ s' : VideoStream, s'.inHand = none → Feeding s'
            (log ++ (events ++ [.decode work (decide (rest ≠ [])) false])) := by
          refine fun s' hnone => ⟨hdone, ?_, fun b hb => ?_, fun b hb => ?_⟩
          · rw [hlast]
            intro v hv
            cases hv
          all_goals
            rw [hnone] at hb
            cases hb
        simp only [Bool.not_false, if_true]
        split
        next hstopped =>
          exact hfailed _ (by simpa [VideoStream.inHand] using hstopped)
        · exact hfailed _ rfl
      | true =>
        simp only [hdecoded, if_true] at hdone hlast
        simp only [Bool.not_true, Bool.false_eq_true, if_false]
        have hdecodedOne : ∀ tracker, Feeding
            { s with decoder := some work.format, decodedSinceInit := warm || turn.delivered,
                     staleFlushes := tracker, phase := .decoding rest }
            (log ++ (events ++ [.decode work (decide (rest ≠ [])) true])) := by
          refine fun tracker => ⟨hdone, ?_, fun b hb => ?_, fun b hb => ?_⟩
          · rw [hlast]
            intro v hv
            exact congrArg (some ·.format) (Option.some.inj hv)
          · obtain rfl := Option.some.inj hb
            rw [hlast]
            exact hrest
          · obtain rfl := Option.some.inj hb
            rw [hlast]
            have hgate := h.gate _ hhand
            rwa [List.cons_append, lastOf_cons] at hgate
        split
        · exact hdecodedOne s.staleFlushes
        · have hnoted := (hdecodedOne (s.staleFlushes.onFrameDecoded nowUs
              work.recoveryKeyframe)).note
            (e := .trackerCall (.frameDecoded nowUs work.recoveryKeyframe)) (fun _ => trivial) rfl
          rwa [List.append_assoc] at hnoted

theorem decodeStep (h : Feeding s log) (turn : DecodeTurn) (nowUs : Int) :
    Feeding (s.decodeStep turn nowUs).1 (log ++ (s.decodeStep turn nowUs).2) := by
  unfold VideoStream.decodeStep
  split
  · rw [List.append_nil]
    exact h.takeBatch ‹_›
  · rw [List.append_nil]
    exact h.judgeBatch ‹_› nowUs
  next hphase =>
    rw [List.append_nil]
    have hhand : s.inHand = some [] := by rw [VideoStream.inHand, hphase]
    cases hrunning : s.running with
    | true => exact h.of_same rfl (by simp [VideoStream.inHand, hphase]) rfl rfl
    | false => exact h.abandoned rfl (by simp [VideoStream.inHand])
  · exact h.decodeOne ‹_› turn nowUs
  · exact h.flushBacklog nowUs
  · exact h.recoverAtKeyframe _
  · exact h.askForKeyframe ‹_›
  · simpa using h

theorem step (h : Feeding s log) (op : Int × DecodeOp) :
    Feeding (s.step op).1 (log ++ (s.step op).2) := by
  obtain ⟨nowUs, op⟩ := op
  cases op with
  | frame data =>
    by_cases hasking : s.senderAsking = true
    · simpa [VideoStream.step, hasking] using h
    · simpa [VideoStream.step, hasking] using h.onVideoFrameReceived data nowUs
  | sendPli => exact h.sendPli
  | decodeThread turn => exact h.decodeStep turn nowUs
  | poll => exact h.streamAwaitingKeyframe nowUs
  | stop =>
    have hstopped := h.stopStreamThread
    simpa [VideoStream.step] using hstopped

theorem new (selfPreview : Bool) : Feeding (VideoStream.new selfPreview) [] where
  law := EventLog.law_nil
  fits := fun _ hv => by cases hv
  chain := fun batch hb => by
    obtain rfl := Option.some.inj hb
    trivial
  gate := fun _ _ hopen => by cases hopen

theorem run (selfPreview : Bool) (ops : List (Int × DecodeOp)) :
    Feeding (VideoStream.run selfPreview ops).1 (VideoStream.run selfPreview ops).2 := by
  let Inv : VideoStream × List DecodeEvent → Prop := fun r => Feeding r.1 r.2
  have hstep : ∀ r op, Inv r → Inv (Machine.logged VideoStream.step r op) :=
    fun _ op hr => hr.step op
  exact Machine.run_preserves hstep (new selfPreview) ops

end Feeding

/-- Whatever the threads do to each other, whatever is delivered and whatever the decoder makes
of it: it is handed keyframes and the successors of what it has decoded last. -/
theorem VideoStream.decoder_fed_right (selfPreview : Bool) (ops : List (Int × DecodeOp)) :
    EventLog.Law FedRight (run selfPreview ops).2 :=
  (Feeding.run selfPreview ops).law

end Parties.Video

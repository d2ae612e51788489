import Parties.Lib.Machine
import Parties.Video.Playout

/-!
# The playout clock and the clock of the sender

The capture times of a stream come from a clock the viewer knows nothing about. If
that clock is off by a constant, then every unwrapped capture time is off by one
constant and every transit time by its opposite. The delay only looks at differences of
transit times, and the playout time adds the two back together.

All of this holds of exact numbers. The unwrapped capture time grows by up to `2 ^ 31`
milliseconds with a frame, whatever the time between the frames, so a sender whose
timestamps leap drives its value in microseconds out of an `int64_t` in some 4.3 million
frames. Two transit times on either side of the limit then compare the wrong way round.
-/

namespace Parties.Video

/-- The sample of a frame captured later by `ms`. -/
def PlayoutSample.shift (ms : Int) (s : PlayoutSample) : PlayoutSample :=
  { s with transitUs := s.transitUs - ms * 1000 }

namespace VideoPlayoutClock

/-! ### Runs -/

/-- One call, with the time returned and the delay behind it. -/
def step (c : VideoPlayoutClock) (call : VideoFrameHeader × Int) :
    VideoPlayoutClock × List (Int × Int) :=
  let (c, atUs) := c.playoutTime call.1 call.2
  (c, [(atUs, c.delayUs)])

def next (c : VideoPlayoutClock) (call : VideoFrameHeader × Int) : VideoPlayoutClock :=
  (c.step call).1

/-- The playout times and delays of a run of calls. -/
def playoutTimes (c : VideoPlayoutClock) (calls : List (VideoFrameHeader × Int)) :
    List (Int × Int) :=
  (Machine.run (Machine.logged step) (c, []) calls).2

/-- The same call with the capture clock off by `offset`. -/
def offsetCall (offset : BitVec 32) (call : VideoFrameHeader × Int) : VideoFrameHeader × Int :=
  ({ call.1 with timestamp := call.1.timestamp + offset }, call.2)

/-! ### Shifted clocks -/

/-- `c'` is `c` with every capture time later by `ms`. -/
structure ShiftedBy (offset : BitVec 32) (ms : Int) (c c' : VideoPlayoutClock) : Prop where
  cfg : c'.cfg = c.cfg
  haveTs : c'.haveTs = c.haveTs
  lastTs : c.haveTs = true → c'.lastTs = c.lastTs + offset
  lastExtMs : c.haveTs = true → c'.lastExtMs = c.lastExtMs + ms
  delayUs : c'.delayUs = c.delayUs
  lastUpdateUs : c'.lastUpdateUs = c.lastUpdateUs
  samples : c'.samples = c.samples.map (PlayoutSample.shift ms)

/-- Before the first capture time the shift is open. -/
def Shifted (offset : BitVec 32) (c c' : VideoPlayoutClock) : Prop :=
  (∃ ms, ShiftedBy offset ms c c') ∧ (c.haveTs = false → c.samples = [])

variable {c c' : VideoPlayoutClock} {offset : BitVec 32} {ms : Int}

/-- Another shift will do as well while no capture time was seen. -/
theorem ShiftedBy.restart (h : ShiftedBy offset ms c c') (hts : c.haveTs = false)
    (hempty : c.samples = []) (ms' : Int) : ShiftedBy offset ms' c c' where
  cfg := h.cfg
  haveTs := h.haveTs
  lastTs hhave := by
    rw [hts] at hhave
    cases hhave
  lastExtMs hhave := by
    rw [hts] at hhave
    cases hhave
  delayUs := h.delayUs
  lastUpdateUs := h.lastUpdateUs
  samples := by rw [h.samples, hempty, List.map_nil, List.map_nil]

/-! ### Values that fit -/

def InRange (x : Int) : Prop := -2 ^ 63 ≤ x ∧ x < 2 ^ 63

instance (x : Int) : Decidable (InRange x) := inferInstanceAs (Decidable (_ ∧ _))

/-- What is in range in microseconds is so in milliseconds. -/
theorem inRange_of_mul {x : Int} (h : InRange (x * 1000)) : InRange x := by
  unfold InRange at h ⊢
  omega

theorem int64_eq {x : Int} (h : InRange x) : int64 x = x := by
  obtain ⟨hlow, hhigh⟩ := h
  apply Int.bmod_eq_of_le
  · omega
  · omega

/-- The unwrapped capture time, without a limit. -/
def captureMs (c : VideoPlayoutClock) (timestamp : BitVec 32) : Int :=
  if c.haveTs then c.lastExtMs + (timestamp - c.lastTs).toInt else (timestamp.toNat : Int)

theorem unwrap_lastExtMs {timestamp : BitVec 32} (h : InRange (c.captureMs timestamp)) :
    (c.unwrap timestamp).lastExtMs = c.captureMs timestamp := by
  unfold captureMs at h ⊢
  unfold VideoPlayoutClock.unwrap
  by_cases hts : c.haveTs = true
  · rw [if_pos hts] at h
    simp only [hts, if_true]
    exact int64_eq h
  · simp only [hts, Bool.false_eq_true, if_false]

/-- Unwrapping turns the offset into a shift: differences of capture times keep. -/
theorem Shifted.unwrap (h : Shifted offset c c') (timestamp : BitVec 32)
    (hrange : InRange (c.captureMs timestamp))
    (hrange' : InRange (c'.captureMs (timestamp + offset))) :
    ∃ ms, ShiftedBy offset ms (c.unwrap timestamp) (c'.unwrap (timestamp + offset)) := by
  obtain ⟨⟨ms, hshift⟩, hempty⟩ := h
  cases hts : c.haveTs with
  | false =>
      have hts' : c'.haveTs = false := hshift.haveTs.trans hts
      have hagain := hshift.restart hts (hempty hts)
        ((timestamp + offset).toNat - timestamp.toNat)
      refine ⟨_, hagain.cfg, rfl, fun _ => rfl, fun _ => ?_, hagain.delayUs, hagain.lastUpdateUs,
        hagain.samples⟩
      rw [unwrap_lastExtMs hrange, unwrap_lastExtMs hrange']
      simp only [captureMs, hts, hts', Bool.false_eq_true, if_false]
      omega
  | true =>
      have hts' : c'.haveTs = true := hshift.haveTs.trans hts
      refine ⟨ms, hshift.cfg, rfl, fun _ => rfl, fun _ => ?_, hshift.delayUs, hshift.lastUpdateUs,
        hshift.samples⟩
      have hstep : timestamp + offset - c'.lastTs = timestamp - c.lastTs := by
        rw [hshift.lastTs hts]
        exact add_sub_add_right_eq_sub ..
      rw [unwrap_lastExtMs hrange, unwrap_lastExtMs hrange']
      simp only [captureMs, hts, hts', if_true]
      rw [hstep, hshift.lastExtMs hts]
      omega

/-! ### What a call computes from the window -/

theorem window_shift (hshift : ShiftedBy offset ms c c') (arrivalUs transitUs : Int) :
    c'.window arrivalUs (transitUs - ms * 1000) =
      (c.window arrivalUs transitUs).map (PlayoutSample.shift ms) := by
  have hsamples : c'.samples ++ [PlayoutSample.mk arrivalUs (transitUs - ms * 1000)] =
      (c.samples ++ [PlayoutSample.mk arrivalUs transitUs]).map (PlayoutSample.shift ms) := by
    rw [hshift.samples, List.map_append]
    rfl
  rw [window, window, hsamples, hshift.cfg, List.dropWhile_map]
  rfl

theorem baseOf_shift (samples : List PlayoutSample) (transitUs : Int) :
    baseOf (samples.map (PlayoutSample.shift ms)) (transitUs - ms * 1000) =
      baseOf samples transitUs - ms * 1000 := by
  unfold baseOf
  induction samples generalizing transitUs with
  | nil => rfl
  | cons s samples ih =>
      have hmin : min (transitUs - ms * 1000) (PlayoutSample.shift ms s).transitUs =
          min transitUs s.transitUs - ms * 1000 := by
        show min (transitUs - ms * 1000) (s.transitUs - ms * 1000) = _
        omega
      rw [List.map_cons, List.foldl_cons, List.foldl_cons, hmin]
      exact ih _

theorem targetOf_shift (cfg : VideoPlayoutConfig) (samples : List PlayoutSample) (base : Int) :
    targetOf cfg (samples.map (PlayoutSample.shift ms)) (base - ms * 1000) =
      targetOf cfg samples base := by
  have hexcess : (samples.map (PlayoutSample.shift ms)).map (fun s => int64 (s.transitUs -
      (base - ms * 1000))) = samples.map fun s => int64 (s.transitUs - base) := by
    rw [List.map_map]
    apply List.map_congr_left
    intro s _
    show int64 (s.transitUs - ms * 1000 - (base - ms * 1000)) = int64 (s.transitUs - base)
    congr 1
    omega
  rw [targetOf, hexcess]
  rfl

/-- What the call computes of the capture time and of the transit time fits in an `int64_t`. -/
def Fits (c : VideoPlayoutClock) (call : VideoFrameHeader × Int) : Prop :=
  ¬ call.1.flags &&& VIDEO_FLAG_CAPTURE_TIME = 0 →
    InRange (c.captureMs call.1.timestamp * 1000) ∧
      InRange (call.2 - c.captureMs call.1.timestamp * 1000)

instance (c : VideoPlayoutClock) (call : VideoFrameHeader × Int) : Decidable (c.Fits call) :=
  inferInstanceAs (Decidable (_ → _))

/-- The outcome of a call that fits, in these terms. -/
theorem playoutTime_eq {hdr : VideoFrameHeader} {arrivalUs : Int}
    (hflag : ¬ hdr.flags &&& VIDEO_FLAG_CAPTURE_TIME = 0) (hfits : c.Fits (hdr, arrivalUs)) :
    c.playoutTime hdr arrivalUs =
      let c := c.unwrap hdr.timestamp
      let transit := arrivalUs - c.lastExtMs * 1000
      let samples := c.window arrivalUs transit
      let base := baseOf samples transit
      let c := { c with samples := samples }.follow (targetOf c.cfg samples base) arrivalUs
      (c, max arrivalUs (min (int64 (int64 (c.lastExtMs * 1000 + base) + c.delayUs))
        (arrivalUs + c.cfg.maxDelayMs * 1000))) := by
  obtain ⟨hcapture, htransit⟩ := hfits hflag
  have hext : (c.unwrap hdr.timestamp).lastExtMs = c.captureMs hdr.timestamp :=
    unwrap_lastExtMs (inRange_of_mul hcapture)
  dsimp only at hcapture htransit
  rw [← hext] at hcapture htransit
  rw [playoutTime, if_neg hflag]
  dsimp only
  rw [int64_eq hcapture, int64_eq htransit]
  rfl

/-! ### Main results -/

theorem ShiftedBy.follow (h : ShiftedBy offset ms c c') (target arrivalUs : Int) :
    ShiftedBy offset ms (c.follow target arrivalUs) (c'.follow target arrivalUs) where
  cfg := h.cfg
  haveTs := h.haveTs
  lastTs := h.lastTs
  lastExtMs := h.lastExtMs
  delayUs := by simp only [VideoPlayoutClock.follow, h.delayUs, h.lastUpdateUs, h.cfg]
  lastUpdateUs := rfl
  samples := h.samples

/-- A call with a shifted clock returns the same and leaves a shifted clock. -/
theorem Shifted.playoutTime (h : Shifted offset c c') {hdr hdr' : VideoFrameHeader}
    (hflags : hdr'.flags = hdr.flags) (htimestamp : hdr'.timestamp = hdr.timestamp + offset)
    {arrivalUs : Int} (hfits : c.Fits (hdr, arrivalUs)) (hfits' : c'.Fits (hdr', arrivalUs)) :
    Shifted offset (c.playoutTime hdr arrivalUs).1 (c'.playoutTime hdr' arrivalUs).1 ∧
      (c.playoutTime hdr arrivalUs).2 = (c'.playoutTime hdr' arrivalUs).2 := by
  by_cases hflag : hdr.flags &&& VIDEO_FLAG_CAPTURE_TIME = 0
  · have hflag' : hdr'.flags &&& VIDEO_FLAG_CAPTURE_TIME = 0 := by rw [hflags, hflag]
    rw [VideoPlayoutClock.playoutTime, VideoPlayoutClock.playoutTime, if_pos hflag, if_pos hflag']
    exact ⟨h, rfl⟩
  · have hflag' : ¬ hdr'.flags &&& VIDEO_FLAG_CAPTURE_TIME = 0 := by rwa [hflags]
    have hrange := inRange_of_mul (hfits hflag).1
    have hrange' := inRange_of_mul (hfits' hflag').1
    dsimp only at hrange hrange'
    rw [htimestamp] at hrange'
    obtain ⟨ms, hshift⟩ := h.unwrap hdr.timestamp hrange hrange'
    rw [playoutTime_eq hflag hfits, playoutTime_eq hflag' hfits', htimestamp]
    have hhave : (c.unwrap hdr.timestamp).haveTs = true := rfl
    generalize c.unwrap hdr.timestamp = d at hshift hhave ⊢
    generalize c'.unwrap (hdr.timestamp + offset) = d' at hshift ⊢
    have hext := hshift.lastExtMs hhave
    have htransit : arrivalUs - d'.lastExtMs * 1000 =
        arrivalUs - d.lastExtMs * 1000 - ms * 1000 := by
      rw [hext]
      omega
    have htarget : targetOf d'.cfg = targetOf d.cfg := congrArg targetOf hshift.cfg
    dsimp only
    rw [htransit, window_shift hshift, baseOf_shift, htarget, targetOf_shift]
    generalize d.window arrivalUs _ = samples
    generalize targetOf _ samples _ = target
    generalize baseOf samples _ = base
    have hsampled : ShiftedBy offset ms { d with samples := samples }
        { d' with samples := samples.map (PlayoutSample.shift ms) } :=
      ⟨hshift.cfg, hshift.haveTs, hshift.lastTs, hshift.lastExtMs, hshift.delayUs,
        hshift.lastUpdateUs, rfl⟩
    have hfollow := hsampled.follow target arrivalUs
    have hhave' : ({ d with samples := samples }.follow target arrivalUs).haveTs = true := hhave
    generalize { d with samples := samples }.follow target arrivalUs = e at hfollow hhave' ⊢
    generalize { d' with samples := samples.map (PlayoutSample.shift ms) }.follow target arrivalUs =
      e' at hfollow ⊢
    constructor
    · refine ⟨⟨ms, hfollow⟩, fun hno => ?_⟩
      rw [hhave'] at hno
      cases hno
    · have hat : e'.lastExtMs * 1000 + (base - ms * 1000) = e.lastExtMs * 1000 + base := by
        rw [hfollow.lastExtMs hhave']
        omega
      rw [hat, hfollow.delayUs, hfollow.cfg]

theorem Shifted.step (h : Shifted offset c c') {call : VideoFrameHeader × Int}
    (hfits : c.Fits call) (hfits' : c'.Fits (offsetCall offset call)) :
    Shifted offset (c.step call).1 (c'.step (offsetCall offset call)).1 ∧
      (c.step call).2 = (c'.step (offsetCall offset call)).2 := by
  have hflags : (offsetCall offset call).1.flags = call.1.flags := rfl
  have htimestamp : (offsetCall offset call).1.timestamp = call.1.timestamp + offset := rfl
  obtain ⟨hclock, htime⟩ := h.playoutTime hflags htimestamp hfits hfits'
  refine ⟨hclock, ?_⟩
  obtain ⟨⟨ms, hshift⟩, _⟩ := hclock
  exact congrArg (fun out => [out]) (Prod.ext htime hshift.delayUs.symm)

/-- The time returned lies between the arrival and the maximal delay behind it. -/
def WithinDelay (cfg : VideoPlayoutConfig) (call : VideoFrameHeader × Int) (out : Int × Int) :
    Prop :=
  call.2 ≤ out.1 ∧ out.1 ≤ call.2 + cfg.maxDelayMs * 1000

/-- Every time returned lies within the maximal delay behind the arrival. -/
theorem playoutTime_bounds (hdr : VideoFrameHeader) (arrivalUs : Int) :
    arrivalUs ≤ (c.playoutTime hdr arrivalUs).2 ∧
      (c.playoutTime hdr arrivalUs).2 ≤ arrivalUs + c.cfg.maxDelayMs * 1000 := by
  by_cases hflag : hdr.flags &&& VIDEO_FLAG_CAPTURE_TIME = 0
  · rw [playoutTime, if_pos hflag]
    dsimp only
    omega
  · rw [playoutTime, if_neg hflag]
    have hcfg : ∀ c : VideoPlayoutClock, (c.unwrap hdr.timestamp).cfg = c.cfg := fun _ => rfl
    simp only [follow, hcfg]
    omega

theorem playoutTime_cfg (hdr : VideoFrameHeader) (arrivalUs : Int) :
    (c.playoutTime hdr arrivalUs).1.cfg = c.cfg := by
  unfold playoutTime
  split <;> rfl

theorem playoutTimes_cons (c : VideoPlayoutClock) (call : VideoFrameHeader × Int)
    (calls : List (VideoFrameHeader × Int)) :
    c.playoutTimes (call :: calls) = (c.step call).2 ++ (c.step call).1.playoutTimes calls := by
  simp only [playoutTimes, Machine.run_cons, Machine.logged, List.nil_append]
  rw [Machine.run_logged]

theorem playoutTimes_bounds (calls : List (VideoFrameHeader × Int)) :
    List.Forall₂ (WithinDelay c.cfg) calls (c.playoutTimes calls) := by
  induction calls generalizing c with
  | nil => exact .nil
  | cons call calls ih =>
      rw [playoutTimes_cons]
      apply List.Forall₂.cons
      · exact playoutTime_bounds call.1 call.2
      · have hrest := @ih (c.step call).1
        rwa [show (c.step call).1.cfg = c.cfg from playoutTime_cfg ..] at hrest

/-- Where the values of both runs fit, a constant offset of the sender's clock changes neither a
playout time nor a delay; every playout time is within the maximal delay behind the arrival. -/
theorem playoutTimes_offset (cfg : VideoPlayoutConfig) (offset : BitVec 32)
    (calls : List (VideoFrameHeader × Int))
    (hfits : Machine.AllSteps next Fits { cfg := cfg } calls)
    (hfits' : Machine.AllSteps next Fits { cfg := cfg } (calls.map (offsetCall offset))) :
    playoutTimes { cfg := cfg } (calls.map (offsetCall offset)) =
        playoutTimes { cfg := cfg } calls ∧
      List.Forall₂ (WithinDelay cfg) calls (playoutTimes { cfg := cfg } calls) := by
  constructor
  · have hstart : Shifted offset { cfg := cfg } { cfg := cfg } := by
      refine ⟨⟨0, rfl, rfl, fun hno => ?_, fun hno => ?_, rfl, rfl, rfl⟩, fun _ => rfl⟩
      · cases hno
      · cases hno
    exact Machine.logged_simulates (fun _ _ _ h hfits hfits' => h.step hfits hfits') hstart []
      hfits hfits'
  · have hbounds := @playoutTimes_bounds { cfg := cfg } calls
    exact hbounds

/-- Three frames whose capture times cross the end of the counter, the second one late. -/
def wrapping : List (VideoFrameHeader × Int) :=
  [({ flags := VIDEO_FLAG_CAPTURE_TIME, timestamp := 4294967280 }, 1000000),
    ({ flags := VIDEO_FLAG_CAPTURE_TIME, timestamp := 4294967295 }, 1040000),
    ({ flags := VIDEO_FLAG_CAPTURE_TIME, timestamp := 14 }, 1050000)]

theorem playoutTimes_offset_wrapping :
    playoutTimes { cfg := {} } (wrapping.map (offsetCall 100)) =
        playoutTimes { cfg := {} } wrapping ∧
      List.Forall₂ (WithinDelay {}) wrapping (playoutTimes { cfg := {} } wrapping) :=
  playoutTimes_offset {} 100 wrapping (by decide +kernel) (by decide +kernel)

/-! ### A sender whose timestamps leap -/

/-- A frame that arrives when the window has run empty brings no delay. -/
theorem next_alone {hdr : VideoFrameHeader} {arrivalUs : Int} (hfits : c.Fits (hdr, arrivalUs))
    (hflag : ¬ hdr.flags &&& VIDEO_FLAG_CAPTURE_TIME = 0) (hdelay : c.delayUs = 0)
    (hempty : ∀ s ∈ c.samples, (c.cfg.windowMs : Int) * 1000 < arrivalUs - s.atUs) :
    c.next (hdr, arrivalUs) = { c with
      haveTs := true
      lastTs := hdr.timestamp
      lastExtMs := c.captureMs hdr.timestamp
      lastUpdateUs := arrivalUs
      samples := [⟨arrivalUs, arrivalUs - c.captureMs hdr.timestamp * 1000⟩] } := by
  have hext : (c.unwrap hdr.timestamp).lastExtMs = c.captureMs hdr.timestamp :=
    unwrap_lastExtMs (inRange_of_mul (hfits hflag).1)
  have hwindow : ∀ transitUs, (c.unwrap hdr.timestamp).window arrivalUs transitUs =
      [⟨arrivalUs, transitUs⟩] := by
    intro transitUs
    have hold : ∀ s ∈ c.samples, decide ((c.cfg.windowMs : Int) * 1000 < arrivalUs - s.atUs) =
        true := fun s hs => decide_eq_true (hempty s hs)
    refine (List.dropWhile_append_of_pos hold).trans (List.dropWhile_cons_of_neg ?_)
    simp only [decide_eq_true_eq, sub_self]
    omega
  have htarget : ∀ transitUs, targetOf c.cfg [⟨arrivalUs, transitUs⟩]
      (baseOf [⟨arrivalUs, transitUs⟩] transitUs) = 0 := by
    intro transitUs
    have hsorted : ∀ k, [(0 : Int)].getD k 0 = 0 := by
      rintro (_ | k)
      · rfl
      · rfl
    simp only [targetOf, baseOf, List.foldl_cons, List.foldl_nil, min_self, List.map_cons,
      List.map_nil, sub_self]
    rw [show int64 0 = 0 from rfl, List.insertionSort_cons, List.insertionSort_nil,
      List.orderedInsert_nil, hsorted]
    omega
  have hunwrap : c.unwrap hdr.timestamp = { c with
      haveTs := true
      lastTs := hdr.timestamp
      lastExtMs := c.captureMs hdr.timestamp } := by
    rw [← hext]
    rfl
  have hcfg : (c.unwrap hdr.timestamp).cfg = c.cfg := rfl
  rw [next, step]
  dsimp only
  rw [playoutTime_eq hflag hfits]
  dsimp only
  rw [hwindow, hcfg, htarget, hext, hunwrap]
  simp [follow, hdelay]

/-- A frame captured `2 ^ 31` ms in front of the last one, which arrives 4 s behind it. -/
def leap (i : Nat) : VideoFrameHeader × Int :=
  ({ flags := VIDEO_FLAG_CAPTURE_TIME, timestamp := BitVec.ofNat 32 (i * 2 ^ 31) }, 1 + 4000000 * i)

/-- The clock after the frames `0` to `n`. -/
def leapt (offset : BitVec 32) (n : Nat) : VideoPlayoutClock where
  cfg := {}
  haveTs := true
  lastTs := BitVec.ofNat 32 (n * 2 ^ 31) + offset
  lastExtMs := offset.toNat - n * 2 ^ 31
  lastUpdateUs := 1 + 4000000 * n
  samples := [⟨1 + 4000000 * n, 1 + 4000000 * n - (offset.toNat - n * 2 ^ 31) * 1000⟩]

theorem leap_flag (offset : BitVec 32) (i : Nat) :
    ¬ (offsetCall offset (leap i)).1.flags &&& VIDEO_FLAG_CAPTURE_TIME = 0 := by
  show ¬ VIDEO_FLAG_CAPTURE_TIME &&& VIDEO_FLAG_CAPTURE_TIME = 0
  decide

theorem next_leap_zero (offset : BitVec 32) :
    next { cfg := {} } (offsetCall offset (leap 0)) = leapt offset 0 := by
  have hts : offset.toNat < 2 ^ 32 := offset.isLt
  have hcapture : ({ cfg := {} } : VideoPlayoutClock).captureMs
      (offsetCall offset (leap 0)).1.timestamp = offset.toNat := by
    simp [captureMs, offsetCall, leap]
  refine (next_alone (fun _ => ?_) (leap_flag offset 0) rfl ?_).trans ?_
  · dsimp only
    rw [hcapture]
    simp only [InRange, leap]
    omega
  · intro s hs
    cases hs
  · rw [hcapture]
    simp [leapt, leap, offsetCall]

theorem captureMs_leapt (offset : BitVec 32) (n : Nat) :
    (leapt offset n).captureMs (offsetCall offset (leap (n + 1))).1.timestamp =
      offset.toNat - (n + 1 : Nat) * 2 ^ 31 := by
  have hdiff : ((BitVec.ofNat 32 ((n + 1) * 2 ^ 31) + offset) -
      (BitVec.ofNat 32 (n * 2 ^ 31) + offset)) = BitVec.ofNat 32 (2 ^ 31) := by
    rw [add_sub_add_right_eq_sub, Nat.succ_mul, BitVec.ofNat_add, add_sub_cancel_left]
  have hback : (BitVec.ofNat 32 (2 ^ 31)).toInt = -2 ^ 31 := by decide
  simp only [captureMs, leapt, offsetCall, leap, if_true, hdiff, hback]
  omega

theorem next_leap (offset : BitVec 32) {n : Nat} (hn : n < 4294959) :
    next (leapt offset n) (offsetCall offset (leap (n + 1))) = leapt offset (n + 1) := by
  have hts : offset.toNat < 2 ^ 32 := offset.isLt
  have hcapture := captureMs_leapt offset n
  refine (next_alone (fun _ => ?_) (leap_flag offset (n + 1)) rfl fun s hs => ?_).trans ?_
  · dsimp only
    rw [hcapture]
    simp only [InRange, leap]
    omega
  · obtain rfl := List.mem_singleton.mp hs
    show ((3000 : Nat) : Int) * 1000 < 1 + 4000000 * (n + 1 : Nat) - (1 + 4000000 * n)
    omega
  · rw [hcapture]
    rfl

theorem run_leaps (offset : BitVec 32) {n : Nat} (hn : n ≤ 4294959) :
    Machine.run next { cfg := {} } ((List.range (n + 1)).map fun i => offsetCall offset (leap i)) =
      leapt offset n := by
  induction n with
  | zero => exact next_leap_zero offset
  | succ n ih =>
    rw [List.range_succ, List.map_append, Machine.run_append, ih (by omega)]
    exact next_leap offset (by omega)

theorem playoutTimes_append (c : VideoPlayoutClock) (xs ys : List (VideoFrameHeader × Int)) :
    c.playoutTimes (xs ++ ys) = c.playoutTimes xs ++ (Machine.run next c xs).playoutTimes ys := by
  induction xs generalizing c with
  | nil => rfl
  | cons x xs ih =>
    rw [List.cons_append, playoutTimes_cons, playoutTimes_cons, ih, List.append_assoc]
    rfl

/-- Two frames captured 10 ms apart and received 1 ms apart, the later one first. The transit time
of the second is out of range. -/
def lastLeap : List (VideoFrameHeader × Int) :=
  [({ flags := VIDEO_FLAG_CAPTURE_TIME, timestamp := 1511799305 }, 17179840000001),
    ({ flags := VIDEO_FLAG_CAPTURE_TIME, timestamp := 1511799295 }, 17179840001001)]

/-- They arrive one behind the other. -/
theorem leaps_ordered {n : Nat} (hn : n ≤ 4294959) :
    ((List.range (n + 1)).map leap ++ lastLeap).Pairwise fun a b => a.2 ≤ b.2 := by
  rw [List.pairwise_append]
  refine ⟨?_, by decide, fun a ha b hb => ?_⟩
  · rw [List.pairwise_map]
    refine List.pairwise_lt_range.imp fun {i j} hlt => ?_
    show 1 + 4000000 * (i : Int) ≤ 1 + 4000000 * j
    omega
  · obtain ⟨i, hi, rfl⟩ := List.mem_map.mp ha
    have hlast : ∀ b ∈ lastLeap, 17179840000001 ≤ b.2 := by decide
    have hle := hlast b hb
    rw [List.mem_range] at hi
    show 1 + 4000000 * (i : Int) ≤ b.2
    omega

theorem not_playoutTimes_offset :
    ¬ ∀ (cfg : VideoPlayoutConfig) (offset : BitVec 32) (calls : List (VideoFrameHeader × Int)),
      calls.Pairwise (fun a b => a.2 ≤ b.2) →
      playoutTimes { cfg := cfg } (calls.map (offsetCall offset)) =
          playoutTimes { cfg := cfg } calls ∧
        List.Forall₂ (WithinDelay cfg) calls (playoutTimes { cfg := cfg } calls) := by
  intro hclaim
  -- the number of frames is kept out of the terms
  obtain ⟨n, hn⟩ : ∃ n : Nat, n = 4294959 := ⟨_, rfl⟩
  obtain ⟨hsame, -⟩ := hclaim {} 1000 _ (leaps_ordered hn.le)
  have hplain : Machine.run next { cfg := {} } ((List.range (n + 1)).map leap) = leapt 0 n := by
    have hzero : (fun i => offsetCall 0 (leap i)) = leap := by
      funext i
      simp [offsetCall]
    have hrun := run_leaps 0 hn.le
    rwa [hzero] at hrun
  have hoffset : Machine.run next { cfg := {} }
      (((List.range (n + 1)).map leap).map (offsetCall 1000)) = leapt 1000 n := by
    rw [List.map_map]
    exact run_leaps 1000 hn.le
  rw [List.map_append, playoutTimes_append, playoutTimes_append, hplain, hoffset, hn] at hsame
  have htail : playoutTimes (leapt 0 4294959) lastLeap =
      [(17179840000001, 0), (17179840001001, -100)] := by
    decide +kernel
  have htail' : playoutTimes (leapt 1000 4294959) (lastLeap.map (offsetCall 1000)) =
      [(17179840000001, 0), (17179840001001, 0)] := by
    decide +kernel
  rw [htail, htail'] at hsame
  have hlast := congrArg List.getLast? hsame
  simp at hlast

end VideoPlayoutClock

end Parties.Video

import Mathlib.Data.List.Sort
import Parties.Video.Common

/-!
# The playout clock

Mirror of `VideoPlayoutClock` (`common/src/video_playout.cpp`): when to present
a received frame. The percentile of the source is a `double`; here the index it
selects out of `n + 1` sorted samples is a function of `n`, and `nth_element` is
the entry of the sorted list at that index.

The capture times come from the sender, who may send any timestamp: what is
computed from them is kept in an `int64_t`, and here modulo `2 ^ 64`. The arrival
times come from the steady clock of the viewer. It counts microseconds since the
start of the machine, so sums of arrival times and delays are left exact.
-/

namespace Parties.Video

structure VideoPlayoutConfig where
  maxDelayMs : Nat := 300
  windowMs : Nat := 3000
  percentileIndex : Nat → Nat := fun n => n * 95 / 100
  decayMsPerS : Nat := 100

structure PlayoutSample where
  atUs : Int
  transitUs : Int
deriving DecidableEq, Repr

structure VideoPlayoutClock where
  cfg : VideoPlayoutConfig
  haveTs : Bool := false
  lastTs : BitVec 32 := 0
  lastExtMs : Int := 0
  delayUs : Int := 0
  lastUpdateUs : Int := 0
  samples : List PlayoutSample := []

/-- What an `int64_t` holds after a computation with the exact result `x`. -/
def int64 (x : Int) : Int := x.bmod (2 ^ 64)

namespace VideoPlayoutClock

/-- Unwrap the 32-bit millisecond capture clock. -/
def unwrap (c : VideoPlayoutClock) (timestamp : BitVec 32) : VideoPlayoutClock :=
  { c with
    haveTs := true
    lastExtMs :=
      if c.haveTs then int64 (c.lastExtMs + (timestamp - c.lastTs).toInt)
      else (timestamp.toNat : Int)
    lastTs := timestamp }

/-- The samples the window keeps at an arrival. -/
def window (c : VideoPlayoutClock) (arrivalUs transitUs : Int) : List PlayoutSample :=
  (c.samples ++ [PlayoutSample.mk arrivalUs transitUs]).dropWhile fun s =>
    decide ((c.cfg.windowMs : Int) * 1000 < arrivalUs - s.atUs)

/-- The fastest a frame of the window made it. -/
def baseOf (samples : List PlayoutSample) (transitUs : Int) : Int :=
  samples.foldl (fun base s => min base s.transitUs) transitUs

/-- What the transit times ask for, within the limit. -/
def targetOf (cfg : VideoPlayoutConfig) (samples : List PlayoutSample) (base : Int) : Int :=
  let excess := (samples.map fun s => int64 (s.transitUs - base)).insertionSort (· ≤ ·)
  min (excess.getD (cfg.percentileIndex (excess.length - 1)) 0) (cfg.maxDelayMs * 1000)

/-- The delay after a frame whose jitter asks for `target`: up at once, down
slowly. -/
def follow (c : VideoPlayoutClock) (target arrivalUs : Int) : VideoPlayoutClock :=
  let delayUs :=
    if c.delayUs ≤ target then target
    else if c.lastUpdateUs ≠ 0 then
      max target (c.delayUs - ((arrivalUs - c.lastUpdateUs) * c.cfg.decayMsPerS).tdiv 1000)
    else c.delayUs
  { c with delayUs := delayUs, lastUpdateUs := arrivalUs }

/-- The local time at which to present the frame. -/
def playoutTime (c : VideoPlayoutClock) (hdr : VideoFrameHeader) (arrivalUs : Int) :
    VideoPlayoutClock × Int :=
  if hdr.flags &&& VIDEO_FLAG_CAPTURE_TIME = 0 then (c, arrivalUs)
  else
    let c := c.unwrap hdr.timestamp
    let captureUs := int64 (c.lastExtMs * 1000)
    let transit := int64 (arrivalUs - captureUs)
    let samples := c.window arrivalUs transit
    let base := baseOf samples transit
    let c := { c with samples := samples }.follow (targetOf c.cfg samples base) arrivalUs
    let atUs := int64 (int64 (captureUs + base) + c.delayUs)
    (c, max arrivalUs (min atUs (arrivalUs + c.cfg.maxDelayMs * 1000)))

end VideoPlayoutClock

end Parties.Video

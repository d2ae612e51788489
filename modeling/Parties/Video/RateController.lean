import Parties.Lib.Binary64
import Parties.Lib.Machine
import Parties.Video.SendController

/-!
# Bitrate adaptation of the sender

Mirror of the main thread's half of `VideoSendController`
(`common/src/video_send_controller.cpp`): the base round trip time, the windows and their
classification, the adapted bitrate and what the encoder is told of it. The atomics
beside it are those of the lock-free face; the main thread's calls and the atomic steps
of the other threads follow each other in any order.
-/

namespace Parties.Video

open Binary64

structure AdaptationConfig where
  congestionQueueMs : Nat := 100
  admissionDropRatio : Double := Binary64.round 0.2
  windowMs : Nat := 500
  congestedWindows : Nat := 2
  cleanWindows : Nat := 2
  decreaseFactor : Double := Binary64.round 0.85
  goodputFactor : Double := Binary64.round 0.9
  increaseFactor : Double := Binary64.round 1.10
  minReconfigureMs : Nat := 500
  minReconfigureDelta : Double := Binary64.round 0.10
deriving DecidableEq

/-- What a share starts with, the target rate in 32 bits. -/
structure ShareConfig extends VideoSendControllerConfig, AdaptationConfig where
  target_lt : targetBitrateBps < 2 ^ 32 := by decide

structure RateController extends VideoSendController where
  adaptation : AdaptationConfig := {}
  /-- The base round trip time. -/
  rttUs : Nat := 0
  rttBlockMinUs : Nat := 0
  rttPrevBlockMinUs : Nat := 0
  rttBlockStartUs : Int := 0
  windowStartUs : Int := 0
  congestedWindows : Nat := 0
  cleanWindows : Nat := 0
  lastQueueDelayMs : Nat := 0
  peakQueueDelayMs : Nat := 0
  minQueueDelayMs : Nat := 0
  queueSampled : Bool := false
  lastGoodputBps : Nat := 0
  lastLossRatio : Double := .ofInt 0
  haveStats : Bool := false
  lastSuspectedLost : Nat := 0
  lastSpuriousLost : Nat := 0
  lastSentPackets : Nat := 0
  windowLost : Nat := 0
  windowSent : Nat := 0
  publishedBitrate : Nat := 0
  lastPublishUs : Int := 0
  decreases : Nat := 0
deriving DecidableEq

/-- No window open yet. -/
def NO_WINDOW : Int := -1

def MAX_U32 : Nat := 4294967295

/-- `static_cast<uint32_t>` of an integer. -/
def toU32 (n : Int) : Nat := (n % 2 ^ 32).toNat

def scaleBitrate (bps : Nat) (factor : Double) : Nat :=
  let scaled := (Double.ofInt bps).mul factor
  if scaled.le (.ofInt 0) then 0
  else if (Double.ofInt MAX_U32).le scaled then MAX_U32
  else toU32 scaled.llround

/-- The time the outstanding bytes take at the bitrate, less the round trip time. -/
def queueDelayMs (outstandingBytes : Int) (bitrateBps rttUs : Nat) : Nat :=
  if bitrateBps = 0 ∨ outstandingBytes ≤ 0 then 0
  else
    let drainMs := (((Double.ofInt outstandingBytes).mul (.ofInt 8)).mul (.ofInt 1000)).div
      (.ofInt bitrateBps)
    let rttMs := (Double.ofInt rttUs).div (.ofInt 1000)
    let delay := drainMs.sub rttMs
    if delay.le (.ofInt 0) then 0
    else if (Double.ofInt MAX_U32).le delay then MAX_U32
    else toU32 delay.truncate

/-- One round trip, and up to one and a half more for what has to be sent again. -/
def inFlightTimeUs (rttUs : Nat) (lossRatio : Double) : Nat :=
  let extraRtts := (lossRatio.mul (.ofInt 30)).clamp (.ofInt 0) (Binary64.round 1.5)
  toU32 ((Double.ofInt rttUs).mul ((Double.ofInt 1).add extraRtts)).truncate

namespace RateController

def refreshAllowance (c : RateController) : RateController :=
  { c with
    allowanceBytes :=
      c.bitrateBps * (inFlightTimeUs c.rttUs c.lastLossRatio + c.cfg.queueBudgetMs * 1000) / 8
        / 1000000 }

/-! ### Publishing -/

def floorBps (c : RateController) : Nat := min c.cfg.minBitrateBps c.cfg.targetBitrateBps

/-- The adapted bitrate cannot move away from here. -/
def atBound (c : RateController) : Bool :=
  c.bitrateBps = c.cfg.targetBitrateBps || c.bitrateBps = c.floorBps

/-- The share of the published bitrate by which the adapted one is off. -/
def publishDelta (c : RateController) : Double :=
  ((Double.ofInt c.bitrateBps).sub (.ofInt c.publishedBitrate)).abs.div (.ofInt c.publishedBitrate)

/-- Both gates are open. -/
def publishDue (c : RateController) (nowUs : Int) : Bool :=
  if c.bitrateBps = c.publishedBitrate then false
  else if c.publishedBitrate ≠ 0 && !c.atBound &&
      c.publishDelta.lt c.adaptation.minReconfigureDelta then false
  else !decide (nowUs - c.lastPublishUs < c.adaptation.minReconfigureMs * 1000)

def publish (c : RateController) (nowUs : Int) : RateController :=
  { c with
    publishedBitrate := c.bitrateBps, lastPublishUs := nowUs, pendingBitrate := c.bitrateBps }

def publishBitrateIfNeeded (c : RateController) (nowUs : Int) (force : Bool) : RateController :=
  if force || c.publishDue nowUs then c.publish nowUs else c

/-! ### The main thread's calls -/

def repaired (adaptation : AdaptationConfig) : AdaptationConfig :=
  { adaptation with
    windowMs := max 1 adaptation.windowMs
    congestedWindows := max 1 adaptation.congestedWindows
    cleanWindows := max 1 adaptation.cleanWindows }

/-- `reset`: everything but `outstanding_`. -/
def reset (c : RateController) (cfg : ShareConfig) : RateController :=
  let target := if cfg.targetBitrateBps = 0 then 1 else cfg.targetBitrateBps
  let seeded : RateController := {
    cfg := { cfg.toVideoSendControllerConfig with targetBitrateBps := target }
    adaptation := repaired cfg.toAdaptationConfig
    outstanding := c.outstanding
    bitrateBps := target
    rttUs := cfg.defaultRttUs
    windowStartUs := NO_WINDOW }
  -- stamped at time 0: it never delays a real update
  seeded.refreshAllowance.publishBitrateIfNeeded 0 true

def new (cfg : ShareConfig) : RateController := ({} : RateController).reset cfg

def clearOutstanding (c : RateController) : RateController := { c with outstanding := 0 }

def setTargetBitrate (c : RateController) (bps : Nat) : RateController :=
  if bps = 0 then c
  else
    let c := { c with cfg := { c.cfg with targetBitrateBps := bps } }
    if bps < c.bitrateBps then
      -- a lower ceiling takes effect at once, and does not restart the rate gate
      ({ c with bitrateBps := bps }.refreshAllowance).publishBitrateIfNeeded c.lastPublishUs true
    else c

/-- The counters are absolute: what is new since the sample before counts. -/
def countPackets (c : RateController) (suspectedLost spuriousLost sent : Nat) : RateController :=
  let counted :=
    if c.haveStats then
      { c with
        windowLost := c.windowLost +
          ((suspectedLost - c.lastSuspectedLost) - (spuriousLost - c.lastSpuriousLost))
        windowSent := c.windowSent + (sent - c.lastSentPackets) }
    else c
  { counted with
    haveStats := true
    lastSuspectedLost := suspectedLost
    lastSpuriousLost := spuriousLost
    lastSentPackets := sent }

def BLOCK_US : Int := 5000000

/-- A block starts with its first sample; a start at time 0 reads as none. -/
def rotateRttBlock (c : RateController) (nowUs : Int) : RateController :=
  let c := if c.rttBlockStartUs = 0 then { c with rttBlockStartUs := nowUs } else c
  if BLOCK_US ≤ nowUs - c.rttBlockStartUs then
    { c with
      rttPrevBlockMinUs := c.rttBlockMinUs, rttBlockMinUs := 0, rttBlockStartUs := nowUs }
  else c

def sampleRtt (c : RateController) (rttUs : Nat) : RateController :=
  let c :=
    if c.rttBlockMinUs = 0 ∨ rttUs < c.rttBlockMinUs then { c with rttBlockMinUs := rttUs } else c
  { c with
    rttUs :=
      if c.rttPrevBlockMinUs = 0 then c.rttBlockMinUs
      else min c.rttBlockMinUs c.rttPrevBlockMinUs }

def onConnectionStats (c : RateController) (nowUs : Int)
    (rttUs suspectedLost spuriousLost sent : Nat) : RateController :=
  let counted := c.countPackets suspectedLost spuriousLost sent
  (if rttUs ≠ 0 then (counted.rotateRttBlock nowUs).sampleRtt rttUs else counted).refreshAllowance

/-! ### The tick -/

def openWindow (c : RateController) (nowUs : Int) : RateController :=
  if c.windowStartUs = NO_WINDOW then { c with windowStartUs := nowUs } else c

def sampleQueue (c : RateController) : RateController :=
  let delay :=
    queueDelayMs c.outstandingBytes c.bitrateBps (inFlightTimeUs c.rttUs c.lastLossRatio)
  { c with
    lastQueueDelayMs := delay
    peakQueueDelayMs := max c.peakQueueDelayMs delay
    minQueueDelayMs := if c.queueSampled then min c.minQueueDelayMs delay else delay
    queueSampled := true }

def windowOver (c : RateController) (nowUs : Int) : Bool :=
  decide (c.adaptation.windowMs * 1000 ≤ nowUs - c.windowStartUs)

/-- A standing queue, a high share of frames skipped by admission, or a frame lost. -/
def congested (c : RateController) : Bool :=
  let frames := toU32 (c.admissionDropsWindow + c.admittedWindow : Nat)
  (c.queueSampled && decide (c.adaptation.congestionQueueMs ≤ c.minQueueDelayMs)) ||
    (decide (0 < frames) &&
      (c.adaptation.admissionDropRatio.mul (.ofInt frames)).lt (.ofInt c.admissionDropsWindow)) ||
    decide (0 < c.encoderDropsWindow)

def windowLossRatio (c : RateController) : Double :=
  if 0 < c.windowSent then (Double.ofInt c.windowLost).div (.ofInt c.windowSent) else .ofInt 0

/-- The bits completed per second of the window. -/
def windowGoodputBps (c : RateController) (nowUs : Int) : Nat :=
  let windowS := (Double.ofInt (nowUs - c.windowStartUs)).div (.ofInt 1000000)
  if (Double.ofInt 0).lt windowS then
    toU32 ((Double.ofInt MAX_U32).min
      (((Double.ofInt c.completedBytesWindow).mul (.ofInt 8)).div windowS)).truncate
  else 0

/-- Where a decrease goes. -/
def reducedBps (c : RateController) : Nat :=
  let reduced := scaleBitrate c.bitrateBps c.adaptation.decreaseFactor
  let reduced :=
    if 0 < c.lastGoodputBps then
      min reduced (scaleBitrate c.lastGoodputBps c.adaptation.goodputFactor)
    else reduced
  max c.floorBps reduced

/-- Where an increase goes. -/
def raisedBps (c : RateController) : Nat :=
  let raised := scaleBitrate c.bitrateBps c.adaptation.increaseFactor
  let raised :=
    if raised ≤ c.bitrateBps && decide (c.bitrateBps < c.cfg.targetBitrateBps) then
      c.bitrateBps + 1
    else raised
  min raised c.cfg.targetBitrateBps

def decrease (c : RateController) : RateController :=
  if c.reducedBps < c.bitrateBps then
    { c with bitrateBps := c.reducedBps, decreases := c.decreases + 1 }
  else c

def increase (c : RateController) : RateController :=
  if c.bitrateBps < c.raisedBps then { c with bitrateBps := c.raisedBps } else c

/-- The consecutive windows of one kind, and what follows from enough of them. -/
def adapt (c : RateController) (congested : Bool) : RateController :=
  if congested then
    if c.adaptation.congestedWindows ≤ c.congestedWindows + 1 then
      { c with cleanWindows := 0, congestedWindows := 0 }.decrease
    else { c with cleanWindows := 0, congestedWindows := c.congestedWindows + 1 }
  else if c.adaptation.cleanWindows ≤ c.cleanWindows + 1 then
    { c with congestedWindows := 0, cleanWindows := 0 }.increase
  else { c with congestedWindows := 0, cleanWindows := c.cleanWindows + 1 }

/-- The counters of the window, taken with `exchange(0)`. -/
def measure (c : RateController) (nowUs : Int) : RateController :=
  { c with
    lastLossRatio := c.windowLossRatio
    lastGoodputBps := c.windowGoodputBps nowUs
    admissionDropsWindow := 0
    admittedWindow := 0
    encoderDropsWindow := 0
    completedBytesWindow := 0 }

def nextWindow (c : RateController) (nowUs : Int) : RateController :=
  { c with
    windowStartUs := nowUs
    peakQueueDelayMs := 0
    minQueueDelayMs := 0
    queueSampled := false
    windowLost := 0
    windowSent := 0 }

def closeWindow (c : RateController) (nowUs : Int) : RateController :=
  ((c.measure nowUs).adapt c.congested).nextWindow nowUs

/-- The state in which a tick looks at its window. -/
def sampled (c : RateController) (nowUs : Int) : RateController := (c.openWindow nowUs).sampleQueue

/-- `tick` up to the publishing. -/
def evaluate (c : RateController) (nowUs : Int) : RateController :=
  let s := c.sampled nowUs
  (if s.windowOver nowUs then s.closeWindow nowUs else s).refreshAllowance

def tick (c : RateController) (nowUs : Int) : RateController :=
  (c.evaluate nowUs).publishBitrateIfNeeded nowUs false

/-! ### The encode thread and the accounting -/

/-- A pending value of 0 is none. -/
def takeBitrateUpdate (c : RateController) : RateController × Option Nat :=
  ({ c with pendingBitrate := 0 },
    if c.pendingBitrate = 0 then none else some c.pendingBitrate)

def takeKeyframeRequest (c : RateController) : RateController × Bool :=
  ({ c with keyframeRequest := false }, c.keyframeRequest)

def onEncoderDrop (c : RateController) : RateController :=
  { c with encoderDropsWindow := c.encoderDropsWindow + 1 }

/-- A step of the lock-free face. -/
def onFace (c : RateController) (face : VideoSendController) : RateController :=
  { c with toVideoSendController := face }

/-! ### What the samples touch -/

/-- The controller without what it knows of the connection. -/
def unsampled (c : RateController) : RateController :=
  { c with
    allowanceBytes := 0, rttUs := 0, rttBlockMinUs := 0, rttPrevBlockMinUs := 0
    rttBlockStartUs := 0, haveStats := false, lastSuspectedLost := 0, lastSpuriousLost := 0
    lastSentPackets := 0, windowLost := 0, windowSent := 0 }

theorem unsampled_countPackets (c : RateController) (suspectedLost spuriousLost sent : Nat) :
    (c.countPackets suspectedLost spuriousLost sent).unsampled = c.unsampled := by
  rw [countPackets]
  split <;> rfl

theorem unsampled_rotateRttBlock (c : RateController) (nowUs : Int) :
    (c.rotateRttBlock nowUs).unsampled = c.unsampled := by
  unfold rotateRttBlock
  dsimp only
  split <;> split <;> rfl

theorem unsampled_sampleRtt (c : RateController) (rttUs : Nat) :
    (c.sampleRtt rttUs).unsampled = c.unsampled := by
  unfold sampleRtt
  dsimp only
  split <;> rfl

theorem unsampled_onConnectionStats (c : RateController) (nowUs : Int)
    (rttUs suspectedLost spuriousLost sent : Nat) :
    (c.onConnectionStats nowUs rttUs suspectedLost spuriousLost sent).unsampled =
      c.unsampled := by
  have hallowance : ∀ d : RateController, d.refreshAllowance.unsampled = d.unsampled :=
    fun _ => rfl
  rw [onConnectionStats, hallowance]
  split
  · rw [unsampled_sampleRtt, unsampled_rotateRttBlock, unsampled_countPackets]
  · exact unsampled_countPackets ..

/-- What the end of a window leaves as it is: the settings, what was published and whether it
was taken, and the round trip times. -/
def besidesWindow (c : RateController) :
    (VideoSendControllerConfig × AdaptationConfig) × (Nat × Int × Nat) × (Nat × Nat × Nat × Int) :=
  ((c.cfg, c.adaptation), (c.publishedBitrate, c.lastPublishUs, c.pendingBitrate),
    (c.rttUs, c.rttBlockMinUs, c.rttPrevBlockMinUs, c.rttBlockStartUs))

theorem besidesWindow_sampled (c : RateController) (nowUs : Int) :
    (c.sampled nowUs).besidesWindow = c.besidesWindow := by
  rw [sampled, openWindow]
  split <;> rfl

theorem besidesWindow_adapt (c : RateController) (congested : Bool) :
    (c.adapt congested).besidesWindow = c.besidesWindow := by
  unfold adapt decrease increase
  split <;> split <;> (try split) <;> rfl

theorem besidesWindow_evaluate (c : RateController) (nowUs : Int) :
    (c.evaluate nowUs).besidesWindow = c.besidesWindow := by
  have hsampled := c.besidesWindow_sampled nowUs
  rw [evaluate]
  split
  · exact (besidesWindow_adapt ((c.sampled nowUs).measure nowUs) _).trans hsampled
  · exact hsampled

end RateController

/-! ### Runs -/

/-- A call of the main thread, an atomic step of the accounting on any thread, or one of
    the encode thread. -/
inductive ControllerAction where
  | reset (cfg : ShareConfig)
  | clearOutstanding
  | setTargetBitrate (bps : UInt32)
  | connectionStats (nowUs : Int) (rttUs suspectedLost spuriousLost sent : Nat)
  | tick (nowUs : Int)
  | enqueued (bytes : Nat)
  | completed (bytes : Nat) (spurious : Bool) (at' : Completion)
  | sendFailed
  | encoderDrop
  | admitFrame
  | takeBitrateUpdate
  | takeKeyframeRequest

/-- What is published, and what the encode thread takes. -/
inductive Notice where
  /-- `reset` publishes the target and stamps it with time 0. -/
  | restarted (bps : Nat)
  /-- A lowered target, published at once. -/
  | forced (bps : Nat)
  | periodic (nowUs : Int) (bps : Nat)
  | taken (update : Option Nat)
deriving DecidableEq, Repr

namespace RateController

def step (c : RateController) : ControllerAction → RateController × List Notice
  | .reset cfg => (c.reset cfg, [.restarted (c.reset cfg).bitrateBps])
  | .clearOutstanding => (c.clearOutstanding, [])
  | .setTargetBitrate bps =>
    (c.setTargetBitrate bps.toNat,
      if bps.toNat ≠ 0 ∧ bps.toNat < c.bitrateBps then [.forced bps.toNat] else [])
  | .connectionStats nowUs rttUs suspectedLost spuriousLost sent =>
    (c.onConnectionStats nowUs rttUs suspectedLost spuriousLost sent, [])
  | .tick nowUs =>
    (c.tick nowUs,
      if (c.evaluate nowUs).publishDue nowUs then
        [.periodic nowUs (c.evaluate nowUs).bitrateBps]
      else [])
  | .enqueued bytes => (c.onFace (c.toVideoSendController.onEnqueued bytes), [])
  | .completed bytes spurious at' =>
    (c.onFace (c.toVideoSendController.onCompleted bytes spurious at').1, [])
  | .sendFailed => (c.onFace c.toVideoSendController.onSendFailed, [])
  | .encoderDrop => (c.onEncoderDrop, [])
  | .admitFrame => (c.onFace c.toVideoSendController.admitFrame.1, [])
  | .takeBitrateUpdate => (c.takeBitrateUpdate.1, [.taken c.takeBitrateUpdate.2])
  | .takeKeyframeRequest => (c.takeKeyframeRequest.1, [])

/-- The step without its notices. -/
def next (c : RateController) (a : ControllerAction) : RateController := (c.step a).1

end RateController

end Parties.Video

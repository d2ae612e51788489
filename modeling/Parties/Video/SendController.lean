import Mathlib.Data.Int.Order.Basic

/-!
# The sender's byte counter

Mirror of the lock-free face of `VideoSendController`
(`common/src/video_send_controller.cpp`): the counters any thread touches, each
operation on them one atomic step. A call of `on_completed` makes several, and other
threads come in between.
-/

namespace Parties.Video

structure VideoSendControllerConfig where
  targetBitrateBps : Nat := 2000000
  minBitrateBps : Nat := 800000
  queueBudgetMs : Nat := 120
  defaultRttUs : Nat := 50000
deriving DecidableEq, Repr

structure VideoSendController where
  cfg : VideoSendControllerConfig := {}
  outstanding : Int := 0
  allowanceBytes : Int := 0
  bitrateBps : Nat := 0
  pendingBitrate : Nat := 0
  admissionDrops : Nat := 0
  admissionDropsWindow : Nat := 0
  admittedWindow : Nat := 0
  completedBytesWindow : Int := 0
  sendFailures : Nat := 0
  encoderDropsWindow : Nat := 0
  keyframeRequest : Bool := false
deriving DecidableEq, Repr

/-- Where a call of `on_completed` stands. -/
inductive Completion where
  | goodput
  | subtract
  /-- In front of `while (after < 0)`. -/
  | clampLoop (after : Int)
  | returned
deriving DecidableEq, Repr

/-- The bytes the call is about have been taken off the counter. -/
def Completion.subtracted : Completion → Bool
  | goodput | subtract => false
  | clampLoop _ | returned => true

namespace VideoSendController

/-- What may be queued without a loss having been seen: `bitrate / 8` bytes per second
    over the round trip time and the queueing budget. -/
def refreshAllowance (c : VideoSendController) : VideoSendController :=
  { c with
    allowanceBytes := c.bitrateBps * (c.cfg.defaultRttUs + c.cfg.queueBudgetMs * 1000) / 8 / 1000000 }

/-- `reset`: everything but `outstanding_`, whose bytes may still be in flight. -/
def reset (c : VideoSendController) (cfg : VideoSendControllerConfig) : VideoSendController :=
  let target := if cfg.targetBitrateBps = 0 then 1 else cfg.targetBitrateBps
  refreshAllowance {
    cfg := { cfg with targetBitrateBps := target }
    outstanding := c.outstanding
    bitrateBps := target
    -- published at once: the encoder starts at the target
    pendingBitrate := target }

def new (cfg : VideoSendControllerConfig) : VideoSendController :=
  ({} : VideoSendController).reset cfg

def onEnqueued (c : VideoSendController) (bytes : Nat) : VideoSendController :=
  { c with outstanding := c.outstanding + bytes }

/-- The next atomic step of `on_completed(bytes)`. A weak exchange may fail although
    nothing has changed. -/
def onCompleted (c : VideoSendController) (bytes : Nat) (spurious : Bool) :
    Completion → VideoSendController × Completion
  | .goodput => ({ c with completedBytesWindow := c.completedBytesWindow + bytes }, .subtract)
  | .subtract =>
    ({ c with outstanding := c.outstanding - bytes }, .clampLoop (c.outstanding - bytes))
  | .clampLoop after =>
    if after < 0 then
      if c.outstanding = after && !spurious then ({ c with outstanding := 0 }, .returned)
      else (c, .clampLoop c.outstanding)
    else (c, .returned)
  | .returned => (c, .returned)

/-- Nothing was queued, but the frame is lost for every viewer. -/
def onSendFailed (c : VideoSendController) : VideoSendController :=
  { c with
    sendFailures := c.sendFailures + 1
    encoderDropsWindow := c.encoderDropsWindow + 1
    keyframeRequest := true }

def outstandingBytes (c : VideoSendController) : Int :=
  if c.outstanding < 0 then 0 else c.outstanding

def admitFrame (c : VideoSendController) : VideoSendController × Bool :=
  if c.outstanding ≤ c.allowanceBytes then
    ({ c with admittedWindow := c.admittedWindow + 1 }, true)
  else
    ({ c with
      admissionDrops := c.admissionDrops + 1
      admissionDropsWindow := c.admissionDropsWindow + 1 }, false)

/-- What `tick` leaves behind: closed windows and what it publishes. How it comes to
    that is left open here. -/
def tick (c : VideoSendController) (closesWindow : Bool) (bitrate allowance : Nat)
    (publish : Bool) : VideoSendController :=
  let c := if closesWindow then
      { c with
        admissionDropsWindow := 0
        admittedWindow := 0
        encoderDropsWindow := 0
        completedBytesWindow := 0 }
    else c
  { c with
    bitrateBps := bitrate
    allowanceBytes := allowance
    pendingBitrate := if publish then bitrate else c.pendingBitrate }

/-! ### What each of them does to the counter -/

@[simp] theorem outstanding_reset (c : VideoSendController) (cfg : VideoSendControllerConfig) :
    (c.reset cfg).outstanding = c.outstanding := rfl

@[simp] theorem outstanding_onEnqueued (c : VideoSendController) (bytes : Nat) :
    (c.onEnqueued bytes).outstanding = c.outstanding + bytes := rfl

@[simp] theorem outstanding_onSendFailed (c : VideoSendController) :
    c.onSendFailed.outstanding = c.outstanding := rfl

@[simp] theorem outstanding_admitFrame (c : VideoSendController) :
    c.admitFrame.1.outstanding = c.outstanding := by
  rw [admitFrame]
  split <;> rfl

@[simp] theorem outstanding_tick (c : VideoSendController) (closesWindow : Bool)
    (bitrate allowance : Nat) (publish : Bool) :
    (c.tick closesWindow bitrate allowance publish).outstanding = c.outstanding := by
  cases closesWindow <;> rfl

/-- As long as the counter does not fall below zero, a step of `on_completed` takes the
    bytes off once, where it subtracts, and leaves the counter alone otherwise. -/
theorem onCompleted_spec (c : VideoSendController) (bytes : Nat) (spurious : Bool)
    {at' : Completion} (hloop : ∀ after, at' = .clampLoop after → 0 ≤ after) :
    (c.onCompleted bytes spurious at').1.outstanding =
        c.outstanding - (if at' = .subtract then (bytes : Int) else 0) ∧
      ∀ after, (c.onCompleted bytes spurious at').2 = .clampLoop after →
        at' = .subtract ∧ after = c.outstanding - bytes := by
  cases at' with
  | goodput => exact ⟨(Int.sub_zero _).symm, fun after h => by cases h⟩
  | subtract =>
      refine ⟨rfl, ?_⟩
      intro after h
      cases h
      exact ⟨rfl, rfl⟩
  | clampLoop after =>
      have hpos : ¬ after < 0 := not_lt.mpr (hloop after rfl)
      simp [onCompleted, hpos]
  | returned => exact ⟨(Int.sub_zero _).symm, fun after h => by cases h⟩

/-- A step of `on_completed` touches two counters. -/
theorem onCompleted_frame (c : VideoSendController) (bytes : Nat) (spurious : Bool)
    (at' : Completion) :
    ∃ outstanding completedBytesWindow,
      (c.onCompleted bytes spurious at').1 = { c with outstanding, completedBytesWindow } := by
  cases at' with
  | goodput => exact ⟨_, _, rfl⟩
  | subtract => exact ⟨_, _, rfl⟩
  | clampLoop after =>
      unfold onCompleted
      dsimp only
      split
      · split <;> exact ⟨_, _, rfl⟩
      · exact ⟨_, _, rfl⟩
  | returned => exact ⟨_, _, rfl⟩

/-- `admit_frame` counts the frame one way or the other. -/
theorem admitFrame_frame (c : VideoSendController) :
    ∃ admittedWindow admissionDrops admissionDropsWindow,
      c.admitFrame.1 = { c with admittedWindow, admissionDrops, admissionDropsWindow } := by
  rw [admitFrame]
  split <;> exact ⟨_, _, _, rfl⟩

theorem outstandingBytes_of_nonneg {c : VideoSendController} (h : 0 ≤ c.outstanding) :
    c.outstandingBytes = c.outstanding := if_neg (not_lt.mpr h)

end VideoSendController

end Parties.Video

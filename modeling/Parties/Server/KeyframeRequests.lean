import Mathlib.Logic.Function.Basic
import Parties.Lib.Machine
import Parties.Protocol
import Parties.Video.Backlog

/-!
# Keyframe requests to a sharer

Mirror of the request part of `SharerVideoState` (`server/include/server/server.h`)
and of the functions of `server/src/server.cpp` that change it. A request inside
the cooldown is deferred: it is remembered by the time of the first one and sent
when the cooldown ends, unless a keyframe is newer than that time. The server
calls these functions in any order, for any stream; a call carries the times it
reads and whether the sharer has a live session to send to.

A request that is absorbed by an earlier deferred one inherits the earlier time.
If a keyframe was forwarded in between, the next pass takes it for the answer to
both: the absorbed request is lost.
-/

namespace Parties

open Parties.Video

structure SharerVideoState where
  pli : Coalescer (VIDEO_KEYFRAME_REQUEST_COOLDOWN_MS * 1000) := {}
  pliDeferred : Bool := false
  pliDeferredRequester : UserId := 0
  pliDeferredAtUs : Int := 0
  lastKeyframeUs : Int := 0
deriving DecidableEq, Repr

/-- `sharer_video_state_`. -/
abbrev SharerVideoStates := StreamId → Option SharerVideoState

/-- A keyframe request that went out to the sharer of `stream`. -/
structure KeyframeRequest where
  stream : StreamId
  requester : UserId
  nowUs : Int
deriving DecidableEq, Repr

/-- What the server does to `sharer_video_state_`. -/
inductive KeyframeCall where
  | frameForwarded (stream : StreamId) (keyframe : Bool) (nowUs : Int)
  /-- `deferUs` is the time read when the request is deferred. -/
  | request (stream : StreamId) (requester : UserId) (nowUs deferUs : Int) (reachable : Bool)
  | deferredPass (stream : StreamId) (nowUs : Int) (reachable : Bool)
  | shareStopped (stream : StreamId)
deriving DecidableEq, Repr

namespace SharerVideoStates

/-- The bookkeeping of `forward_video_frame`. -/
def frameForwarded (sts : SharerVideoStates) (stream : StreamId) (keyframe : Bool) (nowUs : Int) :
    SharerVideoStates :=
  let st := (sts stream).getD {}
  Function.update sts stream
    (some (if keyframe then { st with lastKeyframeUs := nowUs } else st))

/-- `send_keyframe_request`. -/
def sendKeyframeRequest (stream : StreamId) (requester : UserId) (nowUs : Int) (reachable : Bool) :
    List KeyframeRequest :=
  if reachable then [{ stream := stream, requester := requester, nowUs := nowUs }] else []

def requestKeyframeFromSharer (sts : SharerVideoStates) (stream : StreamId) (requester : UserId)
    (nowUs deferUs : Int) (reachable : Bool) : SharerVideoStates × List KeyframeRequest :=
  if !videoStreamValid stream then (sts, [])
  else
    let st := (sts stream).getD {}
    let (allowed, pli) := st.pli.allow nowUs
    if !allowed then
      (Function.update sts stream (some (if st.pliDeferred then st else
        { st with
          pliDeferred := true
          pliDeferredRequester := requester
          pliDeferredAtUs := deferUs })), [])
    else
      (Function.update sts stream (some { st with pli := pli, pliDeferred := false }),
        sendKeyframeRequest stream requester nowUs reachable)

/-- `send_deferred_keyframe_requests` for one stream. -/
def sendDeferredKeyframeRequest (sts : SharerVideoStates) (stream : StreamId) (nowUs : Int)
    (reachable : Bool) : SharerVideoStates × List KeyframeRequest :=
  match sts stream with
  | none => (sts, [])
  | some st =>
    if !st.pliDeferred then (sts, [])
    -- a keyframe went out after the request
    else if st.pliDeferredAtUs < st.lastKeyframeUs then
      (Function.update sts stream (some { st with pliDeferred := false }), [])
    else
      let (allowed, pli) := st.pli.allow nowUs
      if !allowed then (sts, [])
      else
        (Function.update sts stream (some { st with pli := pli, pliDeferred := false }),
          sendKeyframeRequest stream st.pliDeferredRequester nowUs reachable)

/-- The end of `stop_video_stream`. -/
def shareStopped (sts : SharerVideoStates) (stream : StreamId) : SharerVideoStates :=
  Function.update sts stream none

def step (sts : SharerVideoStates) : KeyframeCall → SharerVideoStates × List KeyframeRequest
  | .frameForwarded stream keyframe nowUs => (sts.frameForwarded stream keyframe nowUs, [])
  | .request stream requester nowUs deferUs reachable =>
    sts.requestKeyframeFromSharer stream requester nowUs deferUs reachable
  | .deferredPass stream nowUs reachable => sts.sendDeferredKeyframeRequest stream nowUs reachable
  | .shareStopped stream => (sts.shareStopped stream, [])

/-- The states after `calls`, with the requests sent on the way. -/
def run (sts : SharerVideoStates) (calls : List KeyframeCall) :
    SharerVideoStates × List KeyframeRequest :=
  Machine.run (Machine.logged step) (sts, []) calls

@[simp] theorem run_nil (sts : SharerVideoStates) : sts.run [] = (sts, []) := rfl

theorem run_cons (sts : SharerVideoStates) (c : KeyframeCall) (calls : List KeyframeCall) :
    sts.run (c :: calls) =
      (((sts.step c).1.run calls).1, (sts.step c).2 ++ ((sts.step c).1.run calls).2) := by
  simp only [run, Machine.run_cons, Machine.logged, List.nil_append]
  exact Machine.run_logged step _ _ calls

theorem run_append (sts : SharerVideoStates) (xs ys : List KeyframeCall) :
    sts.run (xs ++ ys) =
      (((sts.run xs).1.run ys).1, (sts.run xs).2 ++ ((sts.run xs).1.run ys).2) := by
  induction xs generalizing sts with
  | nil => simp
  | cons x xs ih => rw [List.cons_append, run_cons, run_cons, ih, List.append_assoc]

theorem run_fst (sts : SharerVideoStates) (calls : List KeyframeCall) :
    (sts.run calls).1 = Machine.run (fun sts c => (step sts c).1) sts calls := by
  induction calls generalizing sts with
  | nil => rfl
  | cons c calls ih => rw [run_cons, Machine.run_cons, ih]

end SharerVideoStates

/-! ### What the requests are for -/

/-- The share of `stream` is running: it does not stop, and its sharer has a live
session to send requests to. -/
def KeyframeCall.WhileRunning (stream : StreamId) : KeyframeCall → Prop
  | .frameForwarded _ _ _ => True
  | .request s _ _ _ reachable => s = stream → reachable = true
  | .deferredPass s _ reachable => s = stream → reachable = true
  | .shareStopped s => s ≠ stream

/-- A pass at `nowUs` finds the cooldown of `stream` over. -/
def CooldownOver (sts : SharerVideoStates) (stream : StreamId) (nowUs : Int) : Prop :=
  ∀ st ∈ sts stream, st.pli.cooling nowUs = false

instance (sts : SharerVideoStates) (stream : StreamId) (nowUs : Int) :
    Decidable (CooldownOver sts stream nowUs) :=
  inferInstanceAs (Decidable (∀ st ∈ sts stream, st.pli.cooling nowUs = false))

/-- While the share runs, every request is followed by a request to the sharer, at
the latest at the first pass after the cooldown, or by a keyframe. -/
def Answered (calls : List KeyframeCall) : Prop :=
  ∀ pre stream requester t deferUs reachable mid passUs reachable' post,
    calls = pre ++ .request stream requester t deferUs reachable ::
      (mid ++ .deferredPass stream passUs reachable' :: post) →
    videoStreamValid stream = true →
    (∀ c ∈ .request stream requester t deferUs reachable ::
      (mid ++ [.deferredPass stream passUs reachable']), c.WhileRunning stream) →
    CooldownOver (SharerVideoStates.run (fun _ => none)
      (pre ++ .request stream requester t deferUs reachable :: mid)).1 stream passUs →
    (∃ sent ∈ ((SharerVideoStates.run (fun _ => none) pre).1.run
      (.request stream requester t deferUs reachable ::
        (mid ++ [.deferredPass stream passUs reachable']))).2,
      sent.stream = stream ∧ t ≤ sent.nowUs) ∨
    ∃ k, .frameForwarded stream true k ∈ mid

/-- Within one share, two requests to the sharer are a cooldown apart. -/
def Spaced (calls : List KeyframeCall) : Prop :=
  ∀ pre c mid c' post, calls = pre ++ c :: (mid ++ c' :: post) →
    ∀ sent ∈ ((SharerVideoStates.run (fun _ => none) pre).1.step c).2,
    ∀ sent' ∈ ((SharerVideoStates.run (fun _ => none) (pre ++ c :: mid)).1.step c').2,
    sent.stream = sent'.stream → .shareStopped sent.stream ∉ mid →
      sent.nowUs + VIDEO_KEYFRAME_REQUEST_COOLDOWN_MS * 1000 ≤ sent'.nowUs

/-! ### The conditions -/

/-- The clock is positive and does not go back. -/
def Timely (sts : SharerVideoStates) : KeyframeCall → Prop
  | .frameForwarded _ _ _ => True
  | .request stream _ nowUs deferUs _ =>
    0 < nowUs ∧ nowUs ≤ deferUs ∧ ∀ st ∈ sts stream, st.lastKeyframeUs ≤ nowUs
  | .deferredPass _ nowUs _ => 0 < nowUs
  | .shareStopped _ => True

/-- No request is absorbed by a deferred one that is older than the last keyframe. -/
def AbsorbedInTime (sts : SharerVideoStates) : KeyframeCall → Prop
  | .request stream _ nowUs _ _ => ∀ st ∈ sts stream,
      st.pli.cooling nowUs = true → st.pliDeferred = true → st.lastKeyframeUs ≤ st.pliDeferredAtUs
  | _ => True

instance (sts : SharerVideoStates) : (c : KeyframeCall) → Decidable (AbsorbedInTime sts c)
  | .request stream _ nowUs _ _ => inferInstanceAs (Decidable (∀ st ∈ sts stream,
      st.pli.cooling nowUs = true → st.pliDeferred = true → st.lastKeyframeUs ≤ st.pliDeferredAtUs))
  | .frameForwarded _ _ _ | .deferredPass _ _ _ | .shareStopped _ => isTrue trivial

end Parties

import Parties.Client.VideoSend
import Parties.Lib.Tally
import Parties.Video.RateController

/-!
# A send that fails

`AppCore::send_video_frame` charges a frame before it hands it to the transport, and takes
the charge back with `on_completed` if the call fails. That is also how a completed send
is reported, so the bytes are counted as delivered in the window. Other threads come in between
the two calls: what is compared is the same schedule with the frame and without it.
-/

namespace Parties.Client

open Parties.Video

/-- What the call does to the controller, one atomic step after the other: the charge,
    and on failure the steps of `on_completed`, with as many turns of its loop as it
    takes, and the failure. -/
def VideoCall.actions (call : VideoCall) (t : Transport) (turns : List (Bool × Int)) :
    List ControllerAction :=
  .enqueued call.accounted ::
    if (call.perform t).isSome then []
    else
      .completed call.accounted false .goodput ::
      .completed call.accounted false .subtract ::
      turns.map (fun turn => .completed call.accounted turn.1 (.clampLoop turn.2)) ++
      [.sendFailed]

/-- The bytes an action counts as delivered. -/
def delivered : ControllerAction → Int
  | .completed bytes _ at' => if at' = .goodput then bytes else 0
  | _ => 0

/-- The window goes on. -/
def KeepsWindow : ControllerAction → Prop
  | .reset _ | .tick _ => False
  | _ => True

theorem completedBytesWindow_next (c : RateController) {a : ControllerAction}
    (h : KeepsWindow a) :
    (c.next a).completedBytesWindow = c.completedBytesWindow + delivered a := by
  cases a with
  | reset cfg => exact h.elim
  | tick nowUs => exact h.elim
  | setTargetBitrate bps =>
      apply Eq.trans ?_ (add_zero _).symm
      rw [RateController.next, RateController.step]
      unfold RateController.setTargetBitrate
      split
      · rfl
      · dsimp only
        split <;> rfl
  | connectionStats nowUs rttUs suspectedLost spuriousLost sent =>
      have hsame := congrArg (fun d => d.completedBytesWindow)
        (c.unsampled_onConnectionStats nowUs rttUs suspectedLost spuriousLost sent)
      exact hsame.trans (add_zero _).symm
  | completed bytes spurious at' =>
      cases at' with
      | goodput => rfl
      | subtract => exact (add_zero _).symm
      | clampLoop after =>
          apply Eq.trans ?_ (add_zero _).symm
          simp only [RateController.next, RateController.step, RateController.onFace,
            VideoSendController.onCompleted]
          split
          · split <;> rfl
          · rfl
      | returned => exact (add_zero _).symm
  | admitFrame =>
      obtain ⟨_, _, _, hface⟩ := c.toVideoSendController.admitFrame_frame
      apply Eq.trans ?_ (add_zero _).symm
      rw [RateController.next, RateController.step, hface]
      rfl
  | _ => exact (add_zero _).symm

theorem completedBytesWindow_run (c : RateController) {actions : List ControllerAction}
    (h : ∀ a ∈ actions, KeepsWindow a) :
    (Machine.run RateController.next c actions).completedBytesWindow =
      c.completedBytesWindow + tally delivered actions := by
  induction actions generalizing c with
  | nil => exact (add_zero _).symm
  | cons a actions ih =>
      obtain ⟨ha, hactions⟩ := List.forall_mem_cons.mp h
      rw [Machine.run_cons, ih (c.next a) hactions, completedBytesWindow_next c ha, tally, tally,
        List.map_cons, List.sum_cons, add_assoc]

/-- The whole of the frame is counted as delivered when its send fails. -/
theorem tally_delivered_actions {call : VideoCall} {t : Transport}
    (hfails : call.perform t = none) (turns : List (Bool × Int)) :
    tally delivered (call.actions t turns) = call.accounted := by
  have hturns : tally delivered
      (turns.map fun turn => .completed call.accounted turn.1 (.clampLoop turn.2)) = 0 := by
    apply tally_eq_zero
    intro a ha
    obtain ⟨turn, _, rfl⟩ := List.mem_map.mp ha
    rfl
  rw [tally] at hturns ⊢
  simp only [VideoCall.actions, hfails, Option.isSome_none, Bool.false_eq_true, if_false,
    List.map_cons, List.map_append, List.map_nil, List.sum_cons, List.sum_append, hturns]
  simp [delivered]

theorem accounted_pos {serverVersion : BitVec 16} {source : VideoSource} {hdr : VideoFrameHeader}
    {encoded : Bytes} {call : VideoCall}
    (hcall : videoCall serverVersion source hdr encoded = some call) : 0 < call.accounted := by
  rcases videoCall_cases hcall with rfl | ⟨_, rfl⟩
  · dsimp only
    have hheader : 0 < VIDEO_FRAME_HEADER_SIZE := by decide
    omega
  · dsimp only
    omega

/-- A frame whose send fails is never without a trace. Whatever other threads do to the
controller while the call runs, as long as the window goes on, at its end the window holds
the bytes of the frame beside what it would hold had the frame never been offered. If
nobody else touches the controller this is the only difference to a send failure. -/
theorem failedSend_counted {serverVersion : BitVec 16} {source : VideoSource}
    {hdr : VideoFrameHeader} {encoded : Bytes} {call : VideoCall}
    (hcall : videoCall serverVersion source hdr encoded = some call) {t : Transport}
    (hfails : call.perform t = none) (c : RateController) :
    (∀ (turns : List (Bool × Int)) (actions : List (Bool × ControllerAction)),
      (actions.filter fun a => a.1).map Prod.snd = call.actions t turns →
      (∀ a ∈ actions.map Prod.snd, KeepsWindow a) →
      let offered := Machine.run RateController.next c (actions.map Prod.snd)
      let never := Machine.run RateController.next c
        ((actions.filter fun a => !a.1).map Prod.snd)
      offered.completedBytesWindow = never.completedBytesWindow + call.accounted ∧
        offered.completedBytesWindow ≠ never.completedBytesWindow) ∧
    Machine.run RateController.next c (call.actions t []) =
      { c.onFace c.toVideoSendController.onSendFailed with
        completedBytesWindow := c.completedBytesWindow + call.accounted } ∧
    Machine.run RateController.next c (call.actions t []) ≠
      c.onFace c.toVideoSendController.onSendFailed := by
  have hpos : (0 : Int) < call.accounted := Int.natCast_pos.mpr (accounted_pos hcall)
  have halone : Machine.run RateController.next c (call.actions t []) =
      { c.onFace c.toVideoSendController.onSendFailed with
        completedBytesWindow := c.completedBytesWindow + call.accounted } := by
    simp [VideoCall.actions, hfails, Machine.run, RateController.next, RateController.step,
      RateController.onFace, VideoSendController.onEnqueued, VideoSendController.onCompleted,
      VideoSendController.onSendFailed]
  refine ⟨?_, halone, ?_⟩
  · intro turns actions hown hwindow offered never
    have hothers : ∀ a ∈ (actions.filter fun a => !a.1).map Prod.snd, KeepsWindow a := by
      intro a ha
      obtain ⟨pair, hpair, rfl⟩ := List.mem_map.mp ha
      exact hwindow _ (List.mem_map_of_mem (List.mem_of_mem_filter hpair))
    have hsum : offered.completedBytesWindow = never.completedBytesWindow + call.accounted := by
      rw [completedBytesWindow_run c hwindow, completedBytesWindow_run c hothers,
        ← tally_delivered_actions hfails turns, ← hown, add_assoc]
      simp only [tally, List.map_map]
      congr 1
      exact (tally_filter_not_add_filter (fun a : Bool × ControllerAction => a.1) actions).symm
    exact ⟨hsum, by omega⟩
  · intro hsame
    have hbytes := congrArg (fun d => d.completedBytesWindow) (halone.symm.trans hsame)
    have hadded : c.completedBytesWindow + call.accounted = c.completedBytesWindow := hbytes
    omega

/-- A frame of a hundred bytes for which the transport opens no stream, in the first
window of a share. -/
theorem failedSend_counted_noStream :
    ∃ call, videoCall 0x0104 .screen {} (List.replicate 100 0) = some call ∧
      Machine.run RateController.next (.new {}) (call.actions ⟨true, true, true, false, true⟩ []) =
        { (RateController.new {}).onFace
            (RateController.new {}).toVideoSendController.onSendFailed with
          completedBytesWindow := call.accounted } := by
  refine ⟨_, rfl, ?_⟩
  have hcounted := (failedSend_counted (t := ⟨true, true, true, false, true⟩)
    (rfl : videoCall 0x0104 .screen {} (List.replicate 100 0) = some _) rfl (.new {})).2.1
  have hnone : (RateController.new {}).completedBytesWindow = 0 := rfl
  rwa [hnone, zero_add] at hcounted

/-- A send that fails is a send failure and more: the next window reports a goodput that
nothing of it was delivered for. -/
theorem not_failedSend_traceless :
    ¬ (∀ (serverVersion : BitVec 16) (source : VideoSource) (hdr : VideoFrameHeader)
        (encoded : Bytes) (call : VideoCall) (t : Transport) (c : RateController),
      videoCall serverVersion source hdr encoded = some call → call.perform t = none →
      Machine.run RateController.next c (call.actions t []) =
        c.onFace c.toVideoSendController.onSendFailed) ∧
    ∃ call, videoCall 0x0104 .screen {} (List.replicate 100 0) = some call ∧
      (Machine.run RateController.next (.new {})
        (.tick 0 :: call.actions ⟨true, true, true, false, true⟩ [] ++ [.tick 500000])).lastGoodputBps
        = 1840 ∧
      (Machine.run RateController.next (.new {})
        [.tick 0, .sendFailed, .tick 500000]).lastGoodputBps = 0 := by
  constructor
  · intro h
    have hsame := congrArg (fun d => d.completedBytesWindow)
      (h 0x0104 .screen {} (List.replicate 100 0) _ ⟨true, true, true, false, true⟩ (.new {})
        rfl rfl)
    exact absurd hsame (by decide +kernel)
  · exact ⟨_, rfl, by decide +kernel, by decide +kernel⟩

end Parties.Client

import Mathlib.Algebra.Order.Group.Int
import Parties.Client.VideoSend
import Parties.Lib.Machine
import Parties.Lib.Tally
import Parties.Video.SendController

/-!
# The bytes of video in flight

The sharer's side of `AppCore::send_video_frame` with the callbacks of the transport
(`s_video_out_stream_cb` and `SEND_COMPLETE` on stream 1) and the counters of
`VideoSendController`, one for each source. Frames are sent from several threads and
reported from another, so what each of them does is cut into its atomic steps, and
these come in any order. The transport reports every send it has queued exactly once,
canceled or not, and before the stream is shut down; it may do so while the call that
queued it has not returned.
-/

namespace Parties.Client

open Parties.Video

/-- Where a frame stands that has been charged. -/
inductive SendPhase where
  | charged
  /-- The transport owns it. -/
  | queued (ctx : SendCtx)
  /-- `SEND_COMPLETE` came and reports the bytes. -/
  | reported (source : VideoSource) (bytes : Nat) (completion : Completion)
  /-- The call returned false, and the app takes the charge back. -/
  | refused (completion : Completion)
  | failed
deriving DecidableEq, Repr

/-- The bytes are still counted. -/
def SendPhase.unsettled : SendPhase → Bool
  | charged | queued _ => true
  | reported _ _ completion | refused completion => !completion.subtracted
  | failed => false

/-- The call of `on_completed` that is under way. -/
def SendPhase.completion : SendPhase → Option Completion
  | reported _ _ completion | refused completion => some completion
  | _ => none

theorem SendPhase.unsettled_of_completion {phase : SendPhase} {completion : Completion}
    (h : phase.completion = some completion) : phase.unsettled = !completion.subtracted := by
  cases phase with
  | reported source bytes at' | refused at' =>
      cases h
      rfl
  | charged | queued ctx | failed => cases h

/-- One frame, from the charge on. -/
structure VideoSend where
  call : VideoCall
  phase : SendPhase := .charged
  callReturned : Bool := false
  abortRequested : Bool := false
  closed : Bool := false
deriving DecidableEq, Repr

inductive StreamEvent where
  | sendComplete
  | peerReceiveAborted
  | shutdownComplete
deriving DecidableEq, Repr

namespace VideoSend

def settled (send : VideoSend) : Bool := !send.phase.unsettled

/-- What the frame counts for at the controller of `source`. -/
def owed (source : VideoSource) (send : VideoSend) : Int :=
  if send.call.source = source ∧ send.phase.unsettled then send.call.accounted else 0

/-- A call of `on_completed` found the counter below zero. -/
def clamps (send : VideoSend) : Prop :=
  ∃ after < 0, send.phase.completion = some (.clampLoop after)

def transportCall (send : VideoSend) (t : Transport) : VideoSend :=
  match send.phase with
  | .charged =>
    match send.call.perform t with
    | some ctx => { send with phase := .queued ctx }
    | none => { send with phase := .refused .goodput }
  | _ => send

def returnCall (send : VideoSend) : VideoSend :=
  match send.phase with
  | .charged => send
  | _ => { send with callReturned := true }

/-- The stream callback, for the context of this send. -/
def onStreamEvent (send : VideoSend) : StreamEvent → VideoSend
  | .sendComplete =>
    match send.phase with
    | .queued ctx =>
      match ctx.videoBytesCompleted with
      | some (source, bytes) => { send with phase := .reported source bytes .goodput }
      | none => send
    | _ => send
  | .peerReceiveAborted => { send with abortRequested := true }
  | .shutdownComplete =>
    match send.phase with
    -- what is queued is completed first
    | .queued _ => send
    | _ => { send with closed := true }

end VideoSend

/-- The senders of one connection. -/
structure VideoSender where
  controllers : VideoSource → VideoSendController := fun _ => .new {}
  sends : List VideoSend := []

inductive SendAction where
  /-- `send_video_frame` up to the call. -/
  | sendVideoFrame (authenticated connected : Bool) (serverVersion : BitVec 16)
      (source : VideoSource) (hdr : VideoFrameHeader) (encoded : Bytes)
  | transportCall (i : Nat) (t : Transport)
  | returnCall (i : Nat)
  | streamEvent (i : Nat) (event : StreamEvent)
  /-- The next step of the call of `on_completed` for a send. -/
  | completion (i : Nat) (spurious : Bool)
  | sendFailed (i : Nat)
  | admitFrame (source : VideoSource)
  | resetVideoSender (source : VideoSource) (cfg : VideoSendControllerConfig)
  | tick (source : VideoSource) (closesWindow : Bool) (bitrate allowance : Nat) (publish : Bool)
deriving Repr

namespace VideoSender

def setController (s : VideoSender) (source : VideoSource) (c : VideoSendController) :
    VideoSender :=
  { s with controllers := Function.update s.controllers source c }

theorem controllers_setController (s : VideoSender) (source : VideoSource)
    (c : VideoSendController) : (s.setController source c).controllers source = c :=
  Function.update_self ..

theorem controllers_setController_ne (s : VideoSender) {source source' : VideoSource}
    (h : source' ≠ source) (c : VideoSendController) :
    (s.setController source c).controllers source' = s.controllers source' :=
  Function.update_of_ne h ..

/-- Put a send back after one of its steps. -/
def setSend (s : VideoSender) (i : Nat) (send : VideoSend) : VideoSender :=
  { s with sends := s.sends.set i send }

/-- The next step of the call of `on_completed` a send is in. -/
def completionStep (s : VideoSender) (i : Nat) (send : VideoSend) (spurious : Bool) :
    VideoSender :=
  match send.phase with
  | .reported source bytes completion =>
    let next := (s.controllers source).onCompleted bytes spurious completion
    (s.setController source next.1).setSend i
      { send with phase := .reported source bytes next.2 }
  | .refused completion =>
    if !send.callReturned then s
    else
      let next := (s.controllers send.call.source).onCompleted send.call.accounted spurious
        completion
      (s.setController send.call.source next.1).setSend i { send with phase := .refused next.2 }
  | _ => s

def recordFailure (s : VideoSender) (i : Nat) (send : VideoSend) : VideoSender :=
  match send.phase with
  | .refused .returned =>
    (s.setController send.call.source (s.controllers send.call.source).onSendFailed).setSend i
      { send with phase := .failed }
  | _ => s

/-- What one of the sends does next, if there is one of that number. -/
def withSend (s : VideoSender) (i : Nat) (f : VideoSend → VideoSender) : VideoSender :=
  match s.sends[i]? with
  | some send => f send
  | none => s

def step (s : VideoSender) : SendAction → VideoSender
  | .sendVideoFrame authenticated connected serverVersion source hdr encoded =>
    if !authenticated || !connected then s
    else
      match videoCall serverVersion source hdr encoded with
      | none => s
      | some call =>
        { s.setController source ((s.controllers source).onEnqueued call.accounted) with
          sends := s.sends ++ [{ call }] }
  | .transportCall i t => s.withSend i fun send => s.setSend i (send.transportCall t)
  | .returnCall i => s.withSend i fun send => s.setSend i send.returnCall
  | .streamEvent i event => s.withSend i fun send =>
    if send.closed then s else s.setSend i (send.onStreamEvent event)
  | .completion i spurious => s.withSend i fun send => s.completionStep i send spurious
  | .sendFailed i => s.withSend i (s.recordFailure i)
  | .admitFrame source => s.setController source (s.controllers source).admitFrame.1
  | .resetVideoSender source cfg => s.setController source ((s.controllers source).reset cfg)
  | .tick source closesWindow bitrate allowance publish =>
    s.setController source ((s.controllers source).tick closesWindow bitrate allowance publish)

end VideoSender

/-! ### What holds of a send -/

/-- The transport and the app settle a send with what was charged for it. -/
structure VideoSend.Valid (send : VideoSend) : Prop where
  made : ∃ serverVersion hdr encoded,
    videoCall serverVersion send.call.source hdr encoded = some send.call
  queued : ∀ ctx, send.phase = .queued ctx →
    ctx.videoBytesCompleted = some (send.call.source, send.call.accounted)
  reported : ∀ source bytes completion, send.phase = .reported source bytes completion →
    source = send.call.source ∧ bytes = send.call.accounted
  unclamped : ∀ after, send.phase.completion = some (.clampLoop after) → 0 ≤ after

namespace VideoSend

theorem owed_nonneg (source : VideoSource) (send : VideoSend) : 0 ≤ send.owed source := by
  rw [owed]
  split
  · exact Int.natCast_nonneg _
  · exact le_rfl

theorem Valid.transportCall {send : VideoSend} (h : send.Valid) (t : Transport) :
    (send.transportCall t).Valid ∧ ∀ source, (send.transportCall t).owed source = send.owed source := by
  rw [VideoSend.transportCall]
  split
  next hphase =>
    obtain ⟨serverVersion, hdr, encoded, hcall⟩ := h.made
    split
    next ctx hsent =>
      constructor
      · refine ⟨h.made, ?_, fun _ _ _ heq => (by cases heq), fun _ heq => (by cases heq)⟩
        intro ctx' heq
        cases heq
        exact videoBytesCompleted_eq_accounted hcall hsent
      · intro source
        simp only [owed, hphase, SendPhase.unsettled]
    · constructor
      · exact ⟨h.made, fun _ heq => (by cases heq), fun _ _ _ heq => (by cases heq),
          fun _ heq => (by cases heq)⟩
      · intro source
        simp only [owed, hphase, SendPhase.unsettled, Completion.subtracted, Bool.not_false]
  · exact ⟨h, fun _ => rfl⟩

theorem Valid.returnCall {send : VideoSend} (h : send.Valid) :
    send.returnCall.Valid ∧ ∀ source, send.returnCall.owed source = send.owed source := by
  rw [VideoSend.returnCall]
  split
  · exact ⟨h, fun _ => rfl⟩
  · exact ⟨⟨h.made, h.queued, h.reported, h.unclamped⟩, fun _ => rfl⟩

theorem Valid.onStreamEvent {send : VideoSend} (h : send.Valid) (event : StreamEvent) :
    (send.onStreamEvent event).Valid ∧
      ∀ source, (send.onStreamEvent event).owed source = send.owed source := by
  have hkept : ∀ send' : VideoSend, send'.call = send.call → send'.phase = send.phase →
      send'.Valid ∧ ∀ source, send'.owed source = send.owed source := by
    intro send' hcall hphase
    constructor
    · constructor
      · rw [hcall]
        exact h.made
      · rw [hcall, hphase]
        exact h.queued
      · rw [hcall, hphase]
        exact h.reported
      · rw [hphase]
        exact h.unclamped
    · intro source
      rw [owed, owed, hcall, hphase]
  cases event with
  | sendComplete =>
      simp only [VideoSend.onStreamEvent]
      split
      next ctx hphase =>
        rw [h.queued ctx hphase]
        constructor
        · refine ⟨h.made, fun _ heq => (by cases heq), ?_, fun _ heq => (by cases heq)⟩
          intro source bytes completion heq
          cases heq
          exact ⟨rfl, rfl⟩
        · intro source
          simp only [owed, hphase, SendPhase.unsettled, Completion.subtracted, Bool.not_false]
      · exact hkept send rfl rfl
  | peerReceiveAborted => exact hkept _ rfl rfl
  | shutdownComplete =>
      simp only [VideoSend.onStreamEvent]
      split
      · exact hkept send rfl rfl
      · exact hkept _ rfl rfl

end VideoSend

/-! ### The balance -/

namespace VideoSender

/-- Each counter holds the bytes of its frames that are charged and not settled. -/
structure Balanced (s : VideoSender) : Prop where
  sends : ∀ send ∈ s.sends, send.Valid
  outstanding : ∀ source,
    (s.controllers source).outstanding = tally (VideoSend.owed source) s.sends

theorem balanced_new : Balanced {} where
  sends := by
    intro send hmem
    cases hmem
  outstanding _ := rfl

theorem Balanced.owed_le {s : VideoSender} (h : s.Balanced) {send : VideoSend}
    (hmem : send ∈ s.sends) (source : VideoSource) :
    send.owed source ≤ (s.controllers source).outstanding := by
  rw [h.outstanding]
  exact le_tally (fun send _ => send.owed_nonneg source) hmem

theorem Balanced.outstanding_nonneg {s : VideoSender} (h : s.Balanced) (source : VideoSource) :
    0 ≤ (s.controllers source).outstanding := by
  rw [h.outstanding, tally]
  apply List.sum_nonneg
  intro x hx
  obtain ⟨send, _, rfl⟩ := List.mem_map.mp hx
  exact send.owed_nonneg source

/-- A step of one send keeps the balance if the counters follow what it owes. -/
theorem Balanced.setSend {s : VideoSender} (h : s.Balanced) (s' : VideoSender) {i : Nat}
    {send send' : VideoSend} (hi : s.sends[i]? = some send) (hvalid : send'.Valid)
    (howed : ∀ source, (s'.controllers source).outstanding =
      (s.controllers source).outstanding - send.owed source + send'.owed source)
    (hsends : s'.sends = s.sends) : (s'.setSend i send').Balanced where
  sends := by
    intro other hmem
    rw [VideoSender.setSend, hsends] at hmem
    rcases List.mem_or_eq_of_mem_set hmem with hold | rfl
    · exact h.sends other hold
    · exact hvalid
  outstanding source := by
    rw [VideoSender.setSend, hsends, tally_set hi, ← h.outstanding]
    exact howed source

/-- A step that changes nothing a send owes. -/
theorem Balanced.replace {s : VideoSender} (h : s.Balanced) {i : Nat} {send send' : VideoSend}
    (hi : s.sends[i]? = some send)
    (hsame : send'.Valid ∧ ∀ source, send'.owed source = send.owed source) :
    (s.setSend i send').Balanced := by
  apply h.setSend s hi hsame.1 _ rfl
  intro source
  rw [hsame.2 source, Int.sub_add_cancel]

/-- The operations that leave the counter alone. -/
theorem Balanced.setController {s : VideoSender} (h : s.Balanced) {source : VideoSource}
    {c : VideoSendController} (hc : c.outstanding = (s.controllers source).outstanding) :
    (s.setController source c).Balanced where
  sends := h.sends
  outstanding source' := by
    have hold := h.outstanding source'
    by_cases heq : source' = source
    · subst heq
      rw [controllers_setController, hc, hold]
      rfl
    · rw [controllers_setController_ne s heq, hold]
      rfl

/-- A call of `on_completed` takes the bytes off where the frame becomes settled. -/
theorem Balanced.complete {s : VideoSender} (h : s.Balanced) {i : Nat} {send send' : VideoSend}
    (hi : s.sends[i]? = some send) {completion : Completion} (spurious : Bool)
    (hat : send.phase.completion = some completion) (hcall : send'.call = send.call)
    (hat' : send'.phase.completion = some ((s.controllers send.call.source).onCompleted
      send.call.accounted spurious completion).2)
    (hreported : ∀ source bytes completion, send'.phase = .reported source bytes completion →
      source = send.call.source ∧ bytes = send.call.accounted) :
    ((s.setController send.call.source ((s.controllers send.call.source).onCompleted
      send.call.accounted spurious completion).1).setSend i send').Balanced := by
  have hvalid := h.sends send (List.mem_of_getElem? hi)
  have hloop : ∀ after, completion = .clampLoop after → 0 ≤ after := by
    intro after heq
    exact hvalid.unclamped after (by rw [hat, heq])
  obtain ⟨hout, hnext⟩ := VideoSendController.onCompleted_spec (s.controllers send.call.source)
    send.call.accounted spurious hloop
  have hunsettled := SendPhase.unsettled_of_completion hat
  have hunsettled' := SendPhase.unsettled_of_completion hat'
  apply h.setSend (s.setController send.call.source _) hi _ _ rfl
  · refine ⟨?_, ?_, ?_, ?_⟩
    · rw [hcall]
      exact hvalid.made
    · intro ctx heq
      rw [heq] at hat'
      cases hat'
    · rw [hcall]
      exact hreported
    · intro after heq
      rw [hat'] at heq
      obtain ⟨rfl, rfl⟩ := hnext after (Option.some.inj heq)
      -- the frame is among those the counter still holds
      have hle := h.owed_le (List.mem_of_getElem? hi) send.call.source
      simp only [VideoSend.owed, hunsettled, Completion.subtracted, Bool.not_false, and_self,
        if_true] at hle
      omega
  · intro source
    by_cases heq : source = send.call.source
    · subst heq
      rw [controllers_setController, hout, VideoSend.owed, VideoSend.owed, hcall, hunsettled,
        hunsettled']
      cases completion with
      | goodput => simp [VideoSendController.onCompleted, Completion.subtracted]
      | subtract => simp [VideoSendController.onCompleted, Completion.subtracted]
      | clampLoop after =>
          have hpos : ¬ after < 0 := not_lt.mpr (hloop after rfl)
          simp [VideoSendController.onCompleted, Completion.subtracted, hpos]
      | returned => simp [VideoSendController.onCompleted, Completion.subtracted]
    · have hother : ∀ send'' : VideoSend, send''.call = send.call → send''.owed source = 0 := by
        intro send'' hsame
        rw [VideoSend.owed, hsame, if_neg]
        rintro ⟨hsource, _⟩
        exact heq hsource.symm
      rw [controllers_setController_ne s heq, hother send rfl, hother send' hcall]
      omega

theorem Balanced.completionStep {s : VideoSender} (h : s.Balanced) {i : Nat} {send : VideoSend}
    (hi : s.sends[i]? = some send) (spurious : Bool) :
    (s.completionStep i send spurious).Balanced := by
  have hvalid := h.sends send (List.mem_of_getElem? hi)
  rw [VideoSender.completionStep]
  split
  next source bytes completion hphase =>
    obtain ⟨rfl, rfl⟩ := hvalid.reported source bytes completion hphase
    have hat : send.phase.completion = some completion := by rw [hphase]; rfl
    refine h.complete hi spurious hat ?_ ?_ ?_
    · rfl
    · rfl
    · intro source bytes completion' heq
      cases heq
      exact ⟨rfl, rfl⟩
  next completion hphase =>
    split
    · exact h
    · have hat : send.phase.completion = some completion := by rw [hphase]; rfl
      refine h.complete hi spurious hat ?_ ?_ ?_
      · rfl
      · rfl
      · intro source bytes completion' heq
        cases heq
  · exact h

theorem Balanced.recordFailure {s : VideoSender} (h : s.Balanced) {i : Nat} {send : VideoSend}
    (hi : s.sends[i]? = some send) : (s.recordFailure i send).Balanced := by
  rw [VideoSender.recordFailure]
  split
  next hphase =>
    have hvalid := h.sends send (List.mem_of_getElem? hi)
    have hbal : (s.setController send.call.source
        (s.controllers send.call.source).onSendFailed).Balanced := h.setController rfl
    apply hbal.replace hi
    constructor
    · exact ⟨hvalid.made, fun _ heq => (by cases heq), fun _ _ _ heq => (by cases heq),
        fun _ heq => (by cases heq)⟩
    · intro source
      simp [VideoSend.owed, hphase, SendPhase.unsettled, Completion.subtracted]
  · exact h

/-- A frame is charged before anything else happens to it. -/
theorem Balanced.charge {s : VideoSender} (h : s.Balanced) {serverVersion : BitVec 16}
    {source : VideoSource} {hdr : VideoFrameHeader} {encoded : Bytes} {call : VideoCall}
    (hcall : videoCall serverVersion source hdr encoded = some call) :
    Balanced { s.setController source ((s.controllers source).onEnqueued call.accounted) with
      sends := s.sends ++ [{ call }] } := by
  have hsource : call.source = source := by
    rcases videoCall_cases hcall with rfl | ⟨rfl, rfl⟩ <;> rfl
  constructor
  · intro send hmem
    rcases List.mem_append.mp hmem with hold | hnew
    · exact h.sends send hold
    · rw [List.mem_singleton.mp hnew]
      refine ⟨⟨serverVersion, hdr, encoded, ?_⟩, fun _ heq => (by cases heq),
        fun _ _ _ heq => (by cases heq), fun _ heq => (by cases heq)⟩
      rw [hsource]
      exact hcall
  · intro source'
    have hold := h.outstanding source'
    rw [tally_concat, ← hold]
    by_cases heq : source' = source
    · subst heq
      simp [controllers_setController, VideoSend.owed, hsource, SendPhase.unsettled]
    · have hne : ¬ source = source' := fun hsame => heq hsame.symm
      simp [controllers_setController_ne s heq, VideoSend.owed, hsource, hne]

theorem Balanced.withSend {s : VideoSender} (h : s.Balanced) {i : Nat}
    {f : VideoSend → VideoSender}
    (hf : ∀ send, s.sends[i]? = some send → (f send).Balanced) : (s.withSend i f).Balanced := by
  rw [VideoSender.withSend]
  split
  next send hi =>
    exact hf send hi
  · exact h

theorem balanced_step (s : VideoSender) (action : SendAction) (h : s.Balanced) :
    (s.step action).Balanced := by
  cases action with
  | sendVideoFrame authenticated connected serverVersion source hdr encoded =>
      rw [step]
      split
      · exact h
      · split
        · exact h
        next call hcall =>
          exact h.charge hcall
  | transportCall i t =>
      apply h.withSend
      intro send hi
      exact h.replace hi ((h.sends send (List.mem_of_getElem? hi)).transportCall t)
  | returnCall i =>
      apply h.withSend
      intro send hi
      exact h.replace hi (h.sends send (List.mem_of_getElem? hi)).returnCall
  | streamEvent i event =>
      apply h.withSend
      intro send hi
      split
      · exact h
      · exact h.replace hi ((h.sends send (List.mem_of_getElem? hi)).onStreamEvent event)
  | completion i spurious =>
      apply h.withSend
      intro send hi
      exact h.completionStep hi spurious
  | sendFailed i =>
      apply h.withSend
      intro send hi
      exact h.recordFailure hi
  | admitFrame source => exact h.setController (VideoSendController.outstanding_admitFrame _)
  | resetVideoSender source cfg => exact h.setController rfl
  | tick source closesWindow bitrate allowance publish =>
      exact h.setController (VideoSendController.outstanding_tick ..)

/-- In every run a counter holds the bytes of the frames charged and not yet settled: no
    report finds it below zero, it is zero once every frame is settled, and the start of
    a share does not touch it. -/
theorem outstanding_eq_unsettled (actions : List SendAction) (source : VideoSource) :
    let s := Machine.run step {} actions
    (s.controllers source).outstanding = tally (VideoSend.owed source) s.sends ∧
      (s.controllers source).outstandingBytes = tally (VideoSend.owed source) s.sends ∧
      (∀ send ∈ s.sends, ¬ send.clamps) ∧
      ((∀ send ∈ s.sends, send.settled) → (s.controllers source).outstandingBytes = 0) ∧
      ∀ source' cfg, ((s.step (.resetVideoSender source' cfg)).controllers source).outstanding =
        (s.controllers source).outstanding := by
  intro s
  have h : s.Balanced := Machine.run_preserves balanced_step balanced_new actions
  have hbytes : (s.controllers source).outstandingBytes = tally (VideoSend.owed source) s.sends := by
    rw [VideoSendController.outstandingBytes_of_nonneg (h.outstanding_nonneg source),
      h.outstanding]
  refine ⟨h.outstanding source, hbytes, ?_, ?_, ?_⟩
  · rintro send hmem ⟨after, hneg, hat⟩
    exact absurd ((h.sends send hmem).unclamped after hat) (not_le.mpr hneg)
  · intro hsettled
    rw [hbytes]
    apply tally_eq_zero
    intro send hmem
    have hdone := hsettled send hmem
    rw [VideoSend.settled, Bool.not_eq_true'] at hdone
    simp [VideoSend.owed, hdone]
  · intro source' cfg
    have hreset := (balanced_step s (.resetVideoSender source' cfg) h).outstanding source
    rw [h.outstanding source]
    exact hreset

end VideoSender

end Parties.Client

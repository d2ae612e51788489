import Mathlib.Algebra.Order.Group.Int
import Parties.Lib.Tally
import Parties.Server.VideoOutstanding

/-!
# Every byte toward a viewer is settled once

A send adds its bytes to the counter and takes them out again. In between they are with
its context, its call or its callback, and whoever exchanges them out of the context takes
them out of the counter. So the counter is the tally of what the sends still have in it.
That holds through any interleaving, as each of the exchanges is one atomic operation.
-/

namespace Parties.QuicServer

open Parties.Video

/-! ### What holds of a send -/

theorem settle_of_pos {n : Nat} (h : 0 < n) : settle n = some (-(n : Int)) :=
  if_pos (Nat.pos_iff_ne_zero.mp h)

/-- Who has the bytes of a frame stream, and what they have done to the counter: nobody
    yet, the context, the call, the callback, and nobody any more. -/
inductive FrameLedger (total : Nat) : FrameCall → Nat → FrameCallback → List Int → Prop where
  | opened : FrameLedger total .opened 0 .idle []
  | added : FrameLedger total .added 0 .idle [total]
  | stored {call : FrameCall} (hcall : call.storing) : FrameLedger total call total .idle [total]
  | calling {callback : FrameCallback} (hcallback : callback.held = 0)
      (hopen : callback.closing = false) : FrameLedger total (.uncharging total) 0 callback [total]
  | callingBack {call : FrameCall} {closes : Bool} (hready : call.ready) (hcall : call.held = 0)
      (hcloses : closes → call.isOver) :
      FrameLedger total call 0 (.uncharging total closes) [total]
  | settled {call : FrameCall} {callback : FrameCallback} (hready : call.ready)
      (hcall : call.held = 0) (hcallback : callback.held = 0)
      (hcloses : callback.closing → call.isOver) :
      FrameLedger total call 0 callback [(total : Int), -(total : Int)]

theorem FrameCall.ready_of_storing {call : FrameCall} (h : call.storing) :
    call.ready ∧ call.held = 0 := by
  cases call with
  | stored | accepted | refused => exact ⟨rfl, rfl⟩
  | opened | added | uncharging n | gaveUp => cases h

namespace VideoOutStreamContext

variable {ctx : VideoOutStreamContext} {total : Nat} {ops : List Int}

def Ledger (ctx : VideoOutStreamContext) (total : Nat) (ops : List Int) : Prop :=
  FrameLedger total ctx.call ctx.charged ctx.callback ops

/-- The call either takes what the context has, or goes on without touching the bytes. -/
theorem callStep_ready (hready : ctx.call.ready) (hcall : ctx.call.held = 0) (streamSend : Bool) :
    (∃ call : FrameCall, call.ready ∧ call.held = 0 ∧ (ctx.call.storing → call.storing) ∧
      (ctx.call.isOver → call.isOver) ∧ ctx.callStep streamSend = ({ ctx with call }, none)) ∨
    ctx.call = .refused ∧ ctx.callStep streamSend =
      ({ ctx with call := .uncharging ctx.charged, charged := 0 }, none) := by
  obtain ⟨frame, charged, call, callback, abortRequested⟩ := ctx
  cases call with
  | opened | added => cases hready
  | stored => cases streamSend <;> exact .inl ⟨_, rfl, rfl, fun _ => rfl, nofun, rfl⟩
  | refused => exact .inr ⟨rfl, rfl⟩
  | uncharging n =>
      obtain rfl : n = 0 := hcall
      exact .inl ⟨.gaveUp, rfl, rfl, nofun, nofun, rfl⟩
  | accepted => exact .inl ⟨.accepted, rfl, rfl, id, id, rfl⟩
  | gaveUp => exact .inl ⟨.gaveUp, rfl, rfl, id, id, rfl⟩

theorem abort_cases (ctx : VideoOutStreamContext) (stream : StreamId)
    (beforeSeq : Option (BitVec 32)) :
    ctx.abort stream beforeSeq = ctx ∨
      ctx.abort stream beforeSeq = { ctx with abortRequested := true } := by
  rw [abort]
  split
  · split
    · exact .inr rfl
    · exact .inl rfl
  · exact .inl rfl

theorem frame_callStep (ctx : VideoOutStreamContext) (streamSend : Bool) :
    (ctx.callStep streamSend).1.frame = ctx.frame := by
  rw [callStep]
  split <;> rfl

theorem Ledger.callStep (h : ctx.Ledger total ops) (htotal : ctx.total = total) (hpos : 0 < total)
    (streamSend : Bool) :
    (ctx.callStep streamSend).1.Ledger total (ops ++ (ctx.callStep streamSend).2.toList) := by
  have hidle : ctx.call.ready → ctx.call.held = 0 → _ := fun hready hcall =>
    ctx.callStep_ready hready hcall streamSend
  obtain ⟨frame, charged, call, callback, abortRequested⟩ := ctx
  rw [Ledger] at h
  dsimp only at h
  cases h with
  | opened =>
      rw [VideoOutStreamContext.callStep, htotal]
      exact .added
  | added =>
      rw [VideoOutStreamContext.callStep, htotal]
      exact .stored rfl
  | stored hstoring =>
      obtain ⟨hready, hcall⟩ := FrameCall.ready_of_storing hstoring
      rcases hidle hready hcall with ⟨call', _, _, hstoring', _, hstep⟩ | ⟨rfl, hstep⟩
      · rw [hstep]
        exact .stored (hstoring' hstoring)
      · rw [hstep]
        exact .calling rfl rfl
  | calling hcallback hopen =>
      have hsettle : settle total = some (-(total : Int)) := settle_of_pos hpos
      simp only [VideoOutStreamContext.callStep, hsettle]
      refine .settled rfl rfl hcallback ?_
      intro hclosing
      exact absurd (hopen.symm.trans hclosing) Bool.false_ne_true
  | callingBack hready hcall hcloses =>
      rcases hidle hready hcall with ⟨call', hready', hcall', _, hover, hstep⟩ | ⟨rfl, hstep⟩
      · rw [hstep]
        exact .callingBack hready' hcall' fun hc => hover (hcloses hc)
      · rw [hstep]
        exact .callingBack rfl rfl hcloses
  | settled hready hcall hcallback hcloses =>
      rcases hidle hready hcall with ⟨call', hready', hcall', _, hover, hstep⟩ | ⟨rfl, hstep⟩
      · rw [hstep]
        exact .settled hready' hcall' hcallback fun hc => hover (hcloses hc)
      · rw [hstep]
        exact .settled rfl rfl hcallback hcloses

theorem delivers_cases {event : StreamEvent} (h : ctx.delivers event) :
    ctx.callback = .idle ∧ ctx.call.ready ∧ (event = .shutdownComplete → ctx.call.isOver) := by
  cases event with
  | shutdownComplete =>
      simp only [delivers, Bool.and_eq_true, decide_eq_true_iff] at h
      refine ⟨h.1, ?_, fun _ => h.2⟩
      cases hat : ctx.call with
      | accepted | gaveUp => rfl
      | opened | added | stored | refused | uncharging n =>
          rw [hat] at h
          cases h.2
  | startComplete | sendComplete | peerReceiveAborted =>
      simp only [delivers, Bool.and_eq_true, decide_eq_true_iff] at h
      exact ⟨h.1, h.2.1, nofun⟩

theorem frame_onStreamEvent (ctx : VideoOutStreamContext) (event : StreamEvent) :
    (ctx.onStreamEvent event).frame = ctx.frame := by
  cases event <;> rfl

theorem Ledger.onStreamEvent (h : ctx.Ledger total ops) {event : StreamEvent}
    (hdelivers : ctx.delivers event) : (ctx.onStreamEvent event).Ledger total ops := by
  have hcases := delivers_cases hdelivers
  obtain ⟨frame, charged, call, callback, abortRequested⟩ := ctx
  dsimp only at hcases
  obtain ⟨rfl, hready, hcloses⟩ := hcases
  cases event with
  | startComplete => exact h
  | peerReceiveAborted => exact h
  | sendComplete =>
      rw [Ledger] at h
      dsimp only at h
      cases h with
      | opened | added => cases hready
      | stored hstoring =>
          exact .callingBack hready (FrameCall.ready_of_storing hstoring).2 nofun
      | calling _ _ => exact .calling rfl rfl
      | settled _ hheld _ _ => exact .settled hready hheld rfl nofun
  | shutdownComplete =>
      rw [Ledger] at h
      dsimp only at h
      cases h with
      | opened | added => cases hready
      | stored hstoring =>
          exact .callingBack hready (FrameCall.ready_of_storing hstoring).2 fun _ => hcloses rfl
      | calling _ _ => exact absurd (hcloses rfl) Bool.false_ne_true
      | settled _ hheld _ _ => exact .settled hready hheld rfl fun _ => hcloses rfl

theorem frame_callbackStep (ctx : VideoOutStreamContext) :
    ctx.callbackStep.1.frame = ctx.frame := by
  rw [callbackStep]
  split <;> rfl

theorem Ledger.callbackStep (h : ctx.Ledger total ops) (hpos : 0 < total) :
    ctx.callbackStep.1.Ledger total (ops ++ ctx.callbackStep.2.toList) := by
  obtain ⟨frame, charged, call, callback, abortRequested⟩ := ctx
  rw [Ledger] at h
  dsimp only at h
  cases h with
  | opened => exact .opened
  | added => exact .added
  | stored hstoring => exact .stored hstoring
  | calling hcallback hopen =>
      cases callback with
      | idle => exact .calling rfl rfl
      | uncharging n closes =>
          obtain rfl : n = 0 := hcallback
          obtain rfl : closes = false := hopen
          exact .calling rfl rfl
      | closed => cases hopen
  | @callingBack _ closes hready hcall hcloses =>
      have hsettle : settle total = some (-(total : Int)) := settle_of_pos hpos
      simp only [VideoOutStreamContext.callbackStep, hsettle]
      cases closes with
      | true => exact .settled hready hcall rfl fun _ => hcloses rfl
      | false => exact .settled hready hcall rfl nofun
  | settled hready hcall hcallback hcloses =>
      cases callback with
      | idle => exact .settled hready hcall rfl nofun
      | uncharging n closes =>
          obtain rfl : n = 0 := hcallback
          cases closes with
          | true => exact .settled hready hcall rfl fun _ => hcloses rfl
          | false => exact .settled hready hcall rfl nofun
      | closed => exact .settled hready hcall rfl hcloses

theorem unsettled_eq_false (hready : ctx.call.ready) (hcharged : ctx.charged = 0)
    (hcall : ctx.call.held = 0) (hcallback : ctx.callback.held = 0) : ctx.unsettled = false := by
  have hadded : ctx.call ≠ .added := by
    intro hadded
    rw [hadded] at hready
    cases hready
  simp [unsettled, hadded, hcharged, hcall, hcallback]

/-- The bytes are in the counter once, and were taken out once or are still to be. -/
theorem Ledger.counted (h : ctx.Ledger total ops) (hpos : 0 < total) :
    ctx.unsettled = true ∧ ops = [(total : Int)] ∨
      ctx.unsettled = false ∧ (ops = [] ∨ ops = [(total : Int), -(total : Int)]) := by
  have hne : total ≠ 0 := Nat.pos_iff_ne_zero.mp hpos
  obtain ⟨frame, charged, call, callback, abortRequested⟩ := ctx
  rw [Ledger] at h
  dsimp only at h
  cases h with
  | opened => exact .inr ⟨rfl, .inl rfl⟩
  | added => exact .inl ⟨rfl, rfl⟩
  | stored hstoring => exact .inl ⟨by simp [unsettled, hne], rfl⟩
  | calling hcallback hopen => exact .inl ⟨by simp [unsettled, FrameCall.held, hne], rfl⟩
  | callingBack hready hcall hcloses =>
      exact .inl ⟨by simp [unsettled, FrameCallback.held, hne], rfl⟩
  | settled hready hcall hcallback hcloses =>
      exact .inr ⟨unsettled_eq_false hready rfl hcall hcallback, .inr rfl⟩

/-- As long as something is to be settled the call runs, the transport has the frame or the
    callback runs. -/
theorem Ledger.running (h : ctx.Ledger total ops) (hpos : 0 < total)
    (hunsettled : ctx.unsettled) :
    ctx.call.isOver = false ∨ ctx.call = .accepted ∨ ctx.callback.held ≠ 0 := by
  obtain ⟨frame, charged, call, callback, abortRequested⟩ := ctx
  rw [Ledger] at h
  dsimp only at h
  cases h with
  | opened | added | calling _ _ => exact .inl rfl
  | stored hstoring =>
      cases call with
      | accepted => exact .inr (.inl rfl)
      | stored | refused => exact .inl rfl
      | opened | added | uncharging n | gaveUp => cases hstoring
  | callingBack hready hcall hcloses => exact .inr (.inr (Nat.pos_iff_ne_zero.mp hpos))
  | settled hready hcall hcallback hcloses =>
      rw [unsettled_eq_false hready rfl hcall hcallback] at hunsettled
      cases hunsettled

/-- A stream that has closed is settled. -/
theorem Ledger.ops_of_closed (h : ctx.Ledger total ops) (hclosed : ctx.callback = .closed) :
    ops = [(total : Int), -(total : Int)] := by
  obtain ⟨frame, charged, call, callback, abortRequested⟩ := ctx
  obtain rfl : callback = .closed := hclosed
  rw [Ledger] at h
  dsimp only at h
  cases h with
  | calling hcallback hopen => cases hopen
  | settled hready hcall hcallback hcloses => rfl

end VideoOutStreamContext

inductive SendLedger (bytes : Nat) : SendPhase → Nat → List Int → Prop where
  | made : SendLedger bytes .made bytes []
  | charged : SendLedger bytes .charged bytes [bytes]
  | queued : SendLedger bytes .queued bytes [bytes]
  | refused : SendLedger bytes .refused bytes [bytes]
  | freed : SendLedger bytes .freed 0 ((bytes : Int) :: (settle bytes).toList)

namespace SendCtx

variable {ctx : SendCtx} {bytes : Nat} {ops : List Int}

def Ledger (ctx : SendCtx) (bytes : Nat) (ops : List Int) : Prop :=
  SendLedger bytes ctx.phase ctx.len ops

theorem Ledger.callStep (h : ctx.Ledger bytes ops) (streamSend : Bool) :
    (ctx.callStep streamSend).1.Ledger bytes (ops ++ (ctx.callStep streamSend).2.toList) := by
  obtain ⟨stream, len, phase⟩ := ctx
  rw [Ledger] at h
  dsimp only at h
  cases h with
  | made => exact .charged
  | charged => cases streamSend <;> constructor
  | queued => exact .queued
  | refused => exact .freed
  | freed =>
      rw [SendCtx.callStep, Option.toList_none, List.append_nil]
      exact .freed

theorem Ledger.onStreamEvent (h : ctx.Ledger bytes ops) (event : StreamEvent) :
    (ctx.onStreamEvent event).1.Ledger bytes (ops ++ (ctx.onStreamEvent event).2.toList) := by
  rw [SendCtx.onStreamEvent]
  split
  next hcompletes =>
    obtain ⟨stream, len, phase⟩ := ctx
    obtain rfl : phase = .queued := hcompletes.2
    rw [Ledger] at h
    dsimp only at h
    cases h with
    | queued => exact .freed
  · rw [Option.toList_none, List.append_nil]
    exact h

/-- A step leaves the send on its stream, and one that is done stays done. -/
theorem stream_callStep (ctx : SendCtx) (streamSend : Bool) :
    (ctx.callStep streamSend).1.stream = ctx.stream ∧
      (ctx.phase = .freed → (ctx.callStep streamSend).1.phase = .freed) := by
  obtain ⟨stream, len, phase⟩ := ctx
  cases phase <;> exact ⟨rfl, by rintro ⟨⟩ <;> rfl⟩

theorem stream_onStreamEvent (ctx : SendCtx) (event : StreamEvent) :
    (ctx.onStreamEvent event).1.stream = ctx.stream ∧
      (ctx.phase = .freed → (ctx.onStreamEvent event).1.phase = .freed) := by
  rw [onStreamEvent]
  split
  · exact ⟨rfl, fun _ => rfl⟩
  · exact ⟨rfl, id⟩

theorem Ledger.counted (h : ctx.Ledger bytes ops) :
    ctx.unsettled = true ∧ ops = [(bytes : Int)] ∨
      ctx.unsettled = false ∧ (ops = [] ∨ ops = (bytes : Int) :: (settle bytes).toList) := by
  obtain ⟨stream, len, phase⟩ := ctx
  rw [Ledger] at h
  dsimp only at h
  cases h with
  | made => exact .inr ⟨rfl, .inl rfl⟩
  | charged | queued | refused => exact .inl ⟨rfl, rfl⟩
  | freed => exact .inr ⟨rfl, .inr rfl⟩

end SendCtx

namespace VideoSend

variable {send : VideoSend}

/-- A send has added its bytes to the counter and taken them out as far as its context says. -/
def Valid (send : VideoSend) : Prop :=
  match send.ctx with
  | .frameStream ctx => ctx.total = send.bytes ∧ 0 < send.bytes ∧ ctx.Ledger send.bytes send.ops
  | .stream1 ctx => ctx.Ledger send.bytes send.ops

/-- An abort asks for a shutdown and settles nothing. -/
theorem Valid.abort (h : send.Valid) (stream : StreamId) (beforeSeq : Option (BitVec 32)) :
    (send.abort stream beforeSeq).Valid ∧ (send.abort stream beforeSeq).ops = send.ops ∧
      ∀ ctx, (send.abort stream beforeSeq).ctx = .stream1 ctx → send.ctx = .stream1 ctx := by
  obtain ⟨bytes, ctx, ops⟩ := send
  cases ctx with
  | frameStream ctx =>
      refine ⟨?_, rfl, nofun⟩
      rcases ctx.abort_cases stream beforeSeq with hsame | hasked
      · simp only [VideoSend.abort, hsame]
        exact h
      · simp only [VideoSend.abort, hasked]
        exact h
  | stream1 ctx => exact ⟨h, rfl, fun _ => id⟩

/-- What a send has done to the counter. -/
theorem Valid.ops_cases (h : send.Valid) :
    send.unsettled = true ∧ send.ops = [(send.bytes : Int)] ∨
      send.unsettled = false ∧
        (send.ops = [] ∨ send.ops = (send.bytes : Int) :: (settle send.bytes).toList) := by
  obtain ⟨bytes, ctx, ops⟩ := send
  cases ctx with
  | frameStream ctx =>
      obtain ⟨_, hpos, hledger⟩ := h
      rw [settle_of_pos hpos]
      exact hledger.counted hpos
  | stream1 ctx => exact SendCtx.Ledger.counted h

theorem sum_settle (bytes : Nat) : ((bytes : Int) :: (settle bytes).toList).sum = 0 := by
  rcases Nat.eq_zero_or_pos bytes with rfl | hpos
  · rfl
  · rw [settle_of_pos hpos]
    simp

/-- What is left of a send in the counter. -/
theorem Valid.sum_ops (h : send.Valid) : send.ops.sum = send.owed := by
  rw [owed]
  rcases h.ops_cases with ⟨hunsettled, hops⟩ | ⟨hsettled, hops | hops⟩
  · simp [hunsettled, hops]
  · simp [hsettled, hops]
  · rw [hops, sum_settle, hsettled]
    rfl

/-- Its bytes were added once, and then taken out once. -/
theorem Valid.ops_before (h : send.Valid) :
    send.ops <+: [(send.bytes : Int), -(send.bytes : Int)] := by
  rcases h.ops_cases with ⟨_, hops⟩ | ⟨_, hops | hops⟩
  · exact ⟨[-(send.bytes : Int)], by rw [hops]; rfl⟩
  · exact ⟨_, by rw [hops]; rfl⟩
  · rcases Nat.eq_zero_or_pos send.bytes with hzero | hpos
    · exact ⟨[-(send.bytes : Int)], by rw [hops, hzero]; rfl⟩
    · exact ⟨[], by rw [hops, settle_of_pos hpos]; rfl⟩

theorem Valid.running (h : send.Valid) (hunsettled : send.unsettled) :
    send.calling ∨ send.atTransport := by
  obtain ⟨bytes, ctx, ops⟩ := send
  cases ctx with
  | frameStream ctx =>
      obtain ⟨_, hpos, hledger⟩ := h
      simp only [calling, atTransport, Bool.not_eq_true', Bool.or_eq_true, decide_eq_true_iff]
      exact hledger.running hpos hunsettled
  | stream1 ctx =>
      obtain ⟨stream, len, phase⟩ := ctx
      cases phase with
      | made | freed => cases hunsettled
      | charged | refused => exact .inl rfl
      | queued => exact .inr rfl

end VideoSend

/-! ### The balance -/

namespace ViewerVideo

variable {s : ViewerVideo}

/-- The counter holds what its sends have done to it, and stream 1 does not shut down before
    what is on it is settled. -/
structure Balanced (s : ViewerVideo) : Prop where
  sends : ∀ send ∈ s.sends, send.Valid
  outstanding : s.videoOutstandingBytes = tally (fun send => send.ops.sum) s.sends
  shutDown : ∀ stream ∈ s.shutDown, stream < s.streamsOpened ∧ s.quicVideoStream ≠ some stream
  current : ∀ stream, s.quicVideoStream = some stream → stream < s.streamsOpened
  freed : ∀ send ∈ s.sends, ∀ ctx, send.ctx = .stream1 ctx → ctx.stream ∈ s.shutDown →
    ctx.phase = .freed

theorem balanced_new : Balanced {} where
  sends := nofun
  outstanding := rfl
  shutDown := nofun
  current := nofun
  freed := nofun

/-- What one step of a send must do for the balance: keep the send valid, and leave stream 1
    alone or settle. -/
theorem Balanced.account (h : s.Balanced) {i : Nat} {send : VideoSend}
    (hi : s.sends[i]? = some send) {ctx : SendContext} {delta : Option Int}
    (hvalid : VideoSend.Valid { send with ctx, ops := send.ops ++ delta.toList })
    (hfreed : ∀ new, ctx = .stream1 new → ∃ old, send.ctx = .stream1 old ∧
      new.stream = old.stream ∧ (old.phase = .freed → new.phase = .freed)) :
    (s.account i send ctx delta).Balanced where
  sends := by
    intro send' hmem
    rcases List.mem_or_eq_of_mem_set hmem with hold | rfl
    · exact h.sends send' hold
    · exact hvalid
  outstanding := by
    have hdelta : (delta.toList).sum = delta.getD 0 := by
      cases delta with
      | none => rfl
      | some d => exact List.sum_singleton
    rw [ViewerVideo.account, tally_set hi, List.sum_append, hdelta, h.outstanding]
    dsimp only
    omega
  shutDown := h.shutDown
  current := h.current
  freed := by
    intro send' hmem new hnew hshut
    rcases List.mem_or_eq_of_mem_set hmem with hold | rfl
    · exact h.freed send' hold new hnew hshut
    · obtain ⟨old, hold, hstream, hkeeps⟩ := hfreed new hnew
      rw [hstream] at hshut
      exact hkeeps (h.freed send (List.mem_of_getElem? hi) old hold hshut)

/-- A send starts with nothing in the counter, and on a stream 1 that is open. -/
theorem Balanced.push (h : s.Balanced) {bytes : Nat} {ctx : SendContext}
    (hvalid : VideoSend.Valid { bytes, ctx })
    (hopen : ∀ new, ctx = .stream1 new → s.quicVideoStream = some new.stream) :
    (s.push bytes ctx).Balanced where
  sends := by
    intro send hmem
    rcases List.mem_append.mp hmem with hold | hnew
    · exact h.sends send hold
    · rw [List.mem_singleton.mp hnew]
      exact hvalid
  outstanding := by
    rw [ViewerVideo.push, tally_concat, h.outstanding]
    exact (add_zero _).symm
  shutDown := h.shutDown
  current := h.current
  freed := by
    intro send hmem new hnew hshut
    rcases List.mem_append.mp hmem with hold | hlast
    · exact h.freed send hold new hnew hshut
    · rw [List.mem_singleton.mp hlast] at hnew
      exact absurd (hopen new hnew) (h.shutDown new.stream hshut).2

theorem Balanced.sendVideoTo (h : s.Balanced) (data : Bytes) : (s.sendVideoTo data).Balanced := by
  rw [ViewerVideo.sendVideoTo]
  split
  next stream _ hstream =>
    apply h.push
    · exact SendLedger.made
    · intro new hnew
      cases hnew
      exact hstream
  · exact h

theorem Balanced.sendVideoFrameTo (h : s.Balanced) (frameStreams streamOpen : Bool)
    (frame : Bytes) : (s.sendVideoFrameTo frameStreams streamOpen frame).Balanced := by
  rw [ViewerVideo.sendVideoFrameTo]
  repeat' split
  · exact h
  · exact h
  · exact h
  next hfits _ _ =>
    apply h.push
    · have hlen : (1 + frame.length % 2 ^ 32) % 2 ^ 32 = 1 + frame.length := by
        rw [VIDEO_FRAME_MAX_BYTES] at hfits
        omega
      refine ⟨rfl, ?_, FrameLedger.opened⟩
      rw [VideoOutStreamContext.total, hlen]
      exact Nat.lt_add_right _ Nat.one_pos
    · nofun
  · exact h
  next stream hstream =>
    apply h.push
    · exact SendLedger.made
    · intro new hnew
      cases hnew
      exact hstream

theorem Balanced.callStep (h : s.Balanced) {i : Nat} {send : VideoSend}
    (hi : s.sends[i]? = some send) (streamSend : Bool) :
    (s.callStep i send streamSend).Balanced := by
  have hvalid := h.sends send (List.mem_of_getElem? hi)
  obtain ⟨bytes, ctx, ops⟩ := send
  cases ctx with
  | frameStream ctx =>
      obtain ⟨htotal, hpos, hledger⟩ := hvalid
      apply h.account hi
      · refine ⟨?_, hpos, hledger.callStep htotal hpos streamSend⟩
        rw [VideoOutStreamContext.total, ctx.frame_callStep]
        exact htotal
      · nofun
  | stream1 ctx =>
      apply h.account hi
      · exact SendCtx.Ledger.callStep hvalid streamSend
      · intro new hnew
        cases hnew
        obtain ⟨hstream, hkeeps⟩ := ctx.stream_callStep streamSend
        exact ⟨ctx, rfl, hstream, hkeeps⟩

theorem Balanced.onStreamEvent (h : s.Balanced) {i : Nat} {send : VideoSend}
    (hi : s.sends[i]? = some send) (event : StreamEvent) :
    (s.onStreamEvent i send event).Balanced := by
  have hvalid := h.sends send (List.mem_of_getElem? hi)
  obtain ⟨bytes, ctx, ops⟩ := send
  cases ctx with
  | frameStream ctx =>
      obtain ⟨htotal, hpos, hledger⟩ := hvalid
      rw [ViewerVideo.onStreamEvent]
      dsimp only
      split
      next hdelivers =>
        apply h.account hi
        · refine ⟨?_, hpos, ?_⟩
          · rw [VideoOutStreamContext.total, ctx.frame_onStreamEvent]
            exact htotal
          · rw [Option.toList_none, List.append_nil]
            exact hledger.onStreamEvent hdelivers
        · nofun
      · exact h
  | stream1 ctx =>
      apply h.account hi
      · exact SendCtx.Ledger.onStreamEvent hvalid event
      · intro new hnew
        cases hnew
        obtain ⟨hstream, hkeeps⟩ := ctx.stream_onStreamEvent event
        exact ⟨ctx, rfl, hstream, hkeeps⟩

theorem Balanced.callbackStep (h : s.Balanced) {i : Nat} {send : VideoSend}
    (hi : s.sends[i]? = some send) : (s.callbackStep i send).Balanced := by
  have hvalid := h.sends send (List.mem_of_getElem? hi)
  obtain ⟨bytes, ctx, ops⟩ := send
  cases ctx with
  | frameStream ctx =>
      obtain ⟨htotal, hpos, hledger⟩ := hvalid
      apply h.account hi
      · refine ⟨?_, hpos, hledger.callbackStep hpos⟩
        rw [VideoOutStreamContext.total, ctx.frame_callbackStep]
        exact htotal
      · nofun
  | stream1 ctx => exact h

theorem Balanced.abortVideoFrames (h : s.Balanced) (stream : StreamId)
    (beforeSeq : Option (BitVec 32)) : (s.abortVideoFrames stream beforeSeq).Balanced where
  sends := by
    intro send' hmem
    obtain ⟨send, hsend, rfl⟩ := List.mem_map.mp hmem
    exact ((h.sends send hsend).abort stream beforeSeq).1
  outstanding := by
    rw [ViewerVideo.abortVideoFrames, h.outstanding, tally, tally, List.map_map]
    congr 1
    apply List.map_congr_left
    intro send hsend
    exact congrArg List.sum ((h.sends send hsend).abort stream beforeSeq).2.1.symm
  shutDown := h.shutDown
  current := h.current
  freed := by
    intro send' hmem ctx hctx hshut
    obtain ⟨send, hsend, rfl⟩ := List.mem_map.mp hmem
    exact h.freed send hsend ctx (((h.sends send hsend).abort stream beforeSeq).2.2 ctx hctx) hshut

/-- Stream 1 shuts down with nothing on it and no call for it under way: what was sent on it
    is settled. -/
theorem Balanced.streamShutdownComplete (h : s.Balanced) (stream : Nat) :
    (s.streamShutdownComplete stream).Balanced := by
  rw [ViewerVideo.streamShutdownComplete]
  split
  · exact h
  next hready =>
    rw [Bool.or_eq_true, Bool.or_eq_true, not_or, not_or] at hready
    obtain ⟨⟨hopened, hqueued⟩, hcalling⟩ := hready
    refine ⟨h.sends, h.outstanding, ?_, ?_, ?_⟩
    · intro stream' hshut
      rcases List.mem_cons.mp hshut with rfl | hold
      · refine ⟨Nat.lt_of_not_le fun hle => hopened (decide_eq_true hle), ?_⟩
        dsimp only
        split
        · nofun
        next hother =>
          exact hother
      · obtain ⟨hlt, hother⟩ := h.shutDown stream' hold
        refine ⟨hlt, ?_⟩
        dsimp only
        split
        · nofun
        · exact hother
    · intro stream' hstream
      dsimp only at hstream
      split at hstream
      · cases hstream
      · exact h.current stream' hstream
    · intro send hmem ctx hctx hshut
      rcases List.mem_cons.mp hshut with hsame | hold
      · rw [queuedOn, List.any_eq_true, not_exists] at hqueued
        rw [callingStream1, List.any_eq_true, not_exists] at hcalling
        have hnotQueued := hqueued send
        have hnotCalling := hcalling send
        simp only [hctx, hmem, true_and, hsame, decide_true, Bool.true_and,
          decide_eq_true_iff] at hnotQueued hnotCalling
        cases hphase : ctx.phase with
        | queued => exact absurd hphase hnotQueued
        | made | charged | refused =>
            rw [SendCtx.calling, hphase] at hnotCalling
            exact absurd rfl hnotCalling
        | freed => rfl
      · exact h.freed send hmem ctx hctx hold

theorem Balanced.withSend (h : s.Balanced) {i : Nat} {f : VideoSend → ViewerVideo}
    (hf : ∀ send, s.sends[i]? = some send → (f send).Balanced) : (s.withSend i f).Balanced := by
  rw [ViewerVideo.withSend]
  split
  next send hi =>
    exact hf send hi
  · exact h

theorem balanced_step (s : ViewerVideo) (action : ViewerAction) (h : s.Balanced) :
    (s.step action).Balanced := by
  cases action with
  | peerStreamStarted =>
      rw [step]
      split
      · refine ⟨h.sends, h.outstanding, ?_, ?_, h.freed⟩
        · intro stream hshut
          have hlt := (h.shutDown stream hshut).1
          refine ⟨Nat.lt_succ_of_lt hlt, ?_⟩
          intro hsame
          exact hlt.ne' (Option.some.inj hsame)
        · intro stream hstream
          cases hstream
          exact Nat.lt_succ_self _
      · exact h
  | sendVideoTo data => exact h.sendVideoTo data
  | sendVideoFrameTo frameStreams streamOpen frame =>
      exact h.sendVideoFrameTo frameStreams streamOpen frame
  | call i streamSend =>
      apply h.withSend
      intro send hi
      exact h.callStep hi streamSend
  | streamEvent i event =>
      apply h.withSend
      intro send hi
      exact h.onStreamEvent hi event
  | callback i =>
      apply h.withSend
      intro send hi
      exact h.callbackStep hi
  | abortVideoFrames stream beforeSeq => exact h.abortVideoFrames stream beforeSeq
  | streamShutdownComplete stream => exact h.streamShutdownComplete stream
  | connectionShutdownComplete =>
      rw [step]
      split
      · exact h
      · exact ⟨h.sends, h.outstanding, fun stream hshut => ⟨(h.shutDown stream hshut).1, nofun⟩,
          nofun, h.freed⟩

/-- A send whose stream has shut down is settled. -/
theorem Balanced.settled (h : s.Balanced) (hdown : s.AllShutDown) {send : VideoSend}
    (hmem : send ∈ s.sends) : send.ops = (send.bytes : Int) :: (settle send.bytes).toList := by
  have hvalid := h.sends send hmem
  have hdone := hdown send hmem
  have hfreed := h.freed send hmem
  obtain ⟨bytes, ctx, ops⟩ := send
  cases ctx with
  | frameStream ctx =>
      obtain ⟨_, hpos, hledger⟩ := hvalid
      rw [settle_of_pos hpos]
      exact hledger.ops_of_closed hdone
  | stream1 ctx =>
      have hphase := hfreed ctx rfl hdone
      obtain ⟨stream, len, phase⟩ := ctx
      obtain rfl : phase = .freed := hphase
      have hledger : SendLedger bytes .freed len ops := hvalid
      cases hledger with
      | freed => rfl

/-- In every run the counter holds the bytes of the sends that are charged and not settled,
    and such a send is in its call, at the transport or in its callback. Each send adds its
    bytes once and takes them out at most once; once all streams have shut down each has
    taken them out, and the counter is zero. -/
theorem videoOutstanding_settled_once (actions : List ViewerAction) :
    let s := Machine.run step {} actions
    s.videoOutstandingBytes = tally VideoSend.owed s.sends ∧
      (∀ send ∈ s.sends,
        send.ops <+: [(send.bytes : Int), -(send.bytes : Int)] ∧
        send.ops.sum = send.owed ∧
        (send.unsettled → send.ops = [(send.bytes : Int)] ∧ (send.calling ∨ send.atTransport))) ∧
      (s.AllShutDown →
        s.videoOutstandingBytes = 0 ∧
        ∀ send ∈ s.sends, 0 < send.bytes →
          send.ops = [(send.bytes : Int), -(send.bytes : Int)]) := by
  intro s
  have h : s.Balanced := Machine.run_preserves balanced_step balanced_new actions
  refine ⟨?_, ?_, ?_⟩
  · rw [h.outstanding, tally, tally]
    congr 1
    apply List.map_congr_left
    intro send hmem
    exact (h.sends send hmem).sum_ops
  · intro send hmem
    have hvalid := h.sends send hmem
    refine ⟨hvalid.ops_before, hvalid.sum_ops, fun hunsettled => ⟨?_, hvalid.running hunsettled⟩⟩
    rcases hvalid.ops_cases with ⟨_, hops⟩ | ⟨hsettled, _⟩
    · exact hops
    · rw [hsettled] at hunsettled
      cases hunsettled
  · intro hdown
    constructor
    · rw [h.outstanding]
      apply tally_eq_zero
      intro send hmem
      rw [h.settled hdown hmem, VideoSend.sum_settle]
    · intro send hmem hpos
      rw [h.settled hdown hmem, settle_of_pos hpos, Option.toList_some]

/-- A frame that is canceled, and one that the transport refuses while the first is still
    out. -/
example :
    let sent := Machine.run step {} [
      .sendVideoFrameTo true true (List.replicate 20 0), .call 0 true, .call 0 true, .call 0 true,
      .sendVideoFrameTo true true (List.replicate 30 0), .call 1 true, .call 1 true, .call 1 false,
      .streamEvent 0 .sendComplete, .call 1 true, .callback 0, .call 1 true]
    let closed := Machine.run step sent [
      .streamEvent 0 .shutdownComplete, .callback 0, .streamEvent 1 .shutdownComplete, .callback 1]
    sent.sends.map (·.ops) = [[21, -21], [31, -31]] ∧ closed.videoOutstandingBytes = 0 :=
  ⟨rfl, rfl⟩

end ViewerVideo

end Parties.QuicServer

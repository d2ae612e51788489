import Parties.Client.WatchHop

/-!
# Watching a restarted share

`open_video_rx` starts a fresh buffer so that nothing of an earlier share survives
into a new watch. That holds as long as no frame of another share is taken in: a
straggler that arrives while the buffer has no baseline, or is ahead of it, moves
the baseline to a number the new share has not reached, and the new keyframes are
dropped as old. The run theorem has the exact reading: without such a frame, and
with nothing of another share left in the playout queue when the stream is opened,
every frame handed on belongs to the watched share and its first keyframe is among
them.
-/

namespace Parties.Client

open Parties.Video
open Parties.Video.VideoReceiveRouter (flow bufferOf AllFrom)

namespace Viewer

/-- The first keyframe of the watched share that came in. -/
def firstKeyframe (v : Viewer) : Option ShareFrame :=
  v.arrived.find? fun f => f.share = v.watchedShare && f.isKeyframe

/-- The frames of the watch on their way to the decoder or there. -/
def handedOn (stream : StreamId) (v : Viewer) : List (VideoFrameHeader × ShareFrame) :=
  v.delivered ++ flow stream v.router

/-- The watch has seen nothing of another share, and its first keyframe came
through. -/
structure FreshWatch (stream : StreamId) (v : Viewer) : Prop where
  sameShare : ∀ x ∈ v.handedOn stream, x.2.share = v.watchedShare
  firstKeyframe : v.router.isOpen stream = true → ∀ frame ∈ v.firstKeyframe,
    ∃ hdr, (hdr, frame) ∈ v.handedOn stream

/-- The invariant: the buffer has its baseline once a keyframe of the watched share
is in, and holds frames of that share only. -/
structure Watching (stream : StreamId) (v : Viewer) : Prop where
  all : AllFrom (fun frame => frame.share = v.watchedShare) stream v.router
  delivered : ∀ x ∈ v.delivered, x.2.share = v.watchedShare
  baseline : ∀ b, bufferOf stream v.router = some b →
    b.haveLast = v.firstKeyframe.isSome ∧
      ∀ frame ∈ v.firstKeyframe, ∃ hdr, (hdr, frame) ∈ v.handedOn stream

variable {stream : StreamId} {v : Viewer}

theorem Watching.freshWatch (h : Watching stream v) : FreshWatch stream v := by
  constructor
  · intro x hx
    exact (List.mem_append.mp hx).elim (h.delivered x) (h.all.flow x)
  · intro hopen
    obtain ⟨st, hst⟩ := Option.isSome_iff_exists.mp hopen
    exact (h.baseline st.buffer (by simp [bufferOf, hst])).2

/-! ### Calls on the router -/

theorem Watching.all_call (h : Watching stream v) (op : RouterOp ShareFrame)
    (hop : ∀ frame, VideoReceiveRouter.Brings stream frame op → frame.share = v.watchedShare) :
    AllFrom (fun frame => frame.share = v.watchedShare) stream (v.call stream op).router ∧
      ∀ x ∈ (v.call stream op).delivered, x.2.share = v.watchedShare := by
  obtain ⟨hall, hdelivered⟩ := h.all.step op hop
  refine ⟨hall, fun x hx => ?_⟩
  exact (List.mem_append.mp hx).elim (h.delivered x) (hdelivered x)

/-- What serves the stream hands on what the buffer delivered. -/
theorem handedOn_call {op : RouterOp ShareFrame} {ops : List (ReorderOp ShareFrame)}
    (hserves : VideoReceiveRouter.Serves stream ops v.router (v.router.step op)) :
    (v.call stream op).handedOn stream =
      v.handedOn stream ++
        (VideoReceiveRouter.bufferRun (bufferOf stream v.router) ops).2 := by
  simp only [handedOn, call, List.append_assoc, hserves.flow]

/-- A call that neither opens the stream nor brings a frame of it. -/
theorem Watching.call (h : Watching stream v) {op : RouterOp ShareFrame}
    (hopen : ∀ nowUs, op ≠ .openStream stream nowUs)
    (hframe : ∀ frame, ¬ VideoReceiveRouter.Brings stream frame op) :
    Watching stream (v.call stream op) := by
  obtain ⟨hall, hdelivered⟩ := h.all_call op fun frame hbrings => absurd hbrings (hframe frame)
  refine ⟨hall, hdelivered, fun b' hb' => ?_⟩
  rcases VideoReceiveRouter.step_serves h.all.playout hopen with
    hserves | ⟨_, _, hnone, _, _⟩
  · have hsteps : VideoReceiveRouter.StepsOf stream op _ :=
      VideoReceiveRouter.stepsOf_bufferOps op
    rw [handedOn_call hserves]
    have hbuffer : bufferOf stream (v.call stream op).router = _ := hserves.buffer
    rw [hbuffer] at hb'
    cases hb : bufferOf stream v.router with
    | none => simp [hb, VideoReceiveRouter.bufferRun] at hb'
    | some b =>
        have hsilent := b.run_silent hsteps.noReset fun hdr frame nowUs hin =>
          hframe frame (hsteps.brings hdr frame nowUs hin)
        obtain ⟨hhave, hfirst⟩ := h.baseline b hb
        simp only [hb, VideoReceiveRouter.bufferRun, Option.some.injEq] at hb'
        subst hb'
        refine ⟨hsilent.haveLast.trans hhave, ?_⟩
        simp only [VideoReceiveRouter.bufferRun, hsilent.delivered, List.append_nil]
        exact hfirst
  · have hclosed : bufferOf stream (v.call stream op).router = none := hnone
    rw [hclosed] at hb'
    cases hb'

/-- The stream is opened with nothing of another share left past its buffer. -/
theorem watching_openVideoRx (hplayout : v.router.cfg.playout = true)
    (hflow : ∀ x ∈ flow stream v.router, x.2.share = v.announced) (nowUs : Int) :
    Watching stream (v.openVideoRx stream nowUs) := by
  refine ⟨VideoReceiveRouter.openStream_allFrom hplayout hflow nowUs, by simp [openVideoRx], ?_⟩
  intro b hb
  have hb' : bufferOf stream (v.router.openStream stream nowUs) = some b := hb
  simp only [bufferOf, VideoReceiveRouter.openStream, Function.update_self, Option.map_some,
    Option.some.injEq] at hb'
  subst hb'
  exact ⟨rfl, by simp [firstKeyframe, openVideoRx]⟩

/-! ### Frames -/

/-- The buffer drops the frame as old, if the stream is open at all. -/
def DropsAsOld (stream : StreamId) (v : Viewer) (frame : ShareFrame) : Prop :=
  ∀ b ∈ bufferOf stream v.router, ∀ hdr ∈ VideoFrameHeader.parse frame.bytes,
    b.haveLast = true ∧ videoSeqNewer hdr.frameSeq b.lastDelivered = false

instance (frame : ShareFrame) : Decidable (DropsAsOld stream v frame) :=
  inferInstanceAs (Decidable (∀ b ∈ bufferOf stream v.router,
    ∀ hdr ∈ VideoFrameHeader.parse frame.bytes,
      b.haveLast = true ∧ videoSeqNewer hdr.frameSeq b.lastDelivered = false))

theorem firstKeyframe_append {v v' : Viewer} {frame : ShareFrame}
    (harrived : v'.arrived = v.arrived ++ [frame]) (hshare : v'.watchedShare = v.watchedShare) :
    v'.firstKeyframe = v.firstKeyframe.or
      (if frame.share = v.watchedShare && frame.isKeyframe then some frame else none) := by
  simp only [firstKeyframe, harrived, hshare, List.find?_append]
  congr 1
  simp only [List.find?_singleton]

/-- A frame that the router drops, and that is no keyframe the watch waits for. -/
theorem Watching.ignores (h : Watching stream v) {frame : ShareFrame} {nowUs : Int}
    (hcall : v.call stream (.onFrame stream frame nowUs) = v)
    (hignored : v.router.isOpen stream = true →
      ¬ (frame.share = v.watchedShare ∧ frame.isKeyframe = true)) :
    Watching stream (v.onVideoStreamFrame stream frame nowUs) := by
  have hframe : v.onVideoStreamFrame stream frame nowUs =
      { v with arrived := if v.router.isOpen stream then v.arrived ++ [frame] else v.arrived } := by
    simp only [Viewer.onVideoStreamFrame, hcall]
  rw [hframe]
  cases hopen : v.router.isOpen stream with
  | false => exact h
  | true =>
      have hfirst : ({ v with arrived := v.arrived ++ [frame] } : Viewer).firstKeyframe =
          v.firstKeyframe := by
        have happend : ({ v with arrived := v.arrived ++ [frame] } : Viewer).firstKeyframe = _ :=
          firstKeyframe_append (v := v) rfl rfl
        rw [happend]
        simp [hignored hopen]
      refine ⟨h.all, h.delivered, fun b hb => ?_⟩
      rw [if_pos rfl, hfirst]
      exact h.baseline b hb

/-- A frame of the watched share starts the buffer if it is the first keyframe. -/
theorem Watching.takes (h : Watching stream v) {frame : ShareFrame}
    (hshare : frame.share = v.watchedShare) {hdr : VideoFrameHeader}
    (hparse : VideoFrameHeader.parse frame.bytes = some hdr) {st : StreamState ShareFrame}
    (hst : v.router.streams stream = some st) (nowUs : Int) :
    Watching stream (v.onVideoStreamFrame stream frame nowUs) := by
  have hserves : VideoReceiveRouter.Serves stream [.frame hdr frame nowUs] v.router
      (v.router.step (.onFrame stream frame nowUs)) := by
    have hput := @VideoReceiveRouter.putStream_serves _ _ stream _ h.all.playout _ _ hst
      (.frame hdr frame nowUs) nowUs
    rw [if_pos rfl] at hput
    simp only [VideoReceiveRouter.step, VideoReceiveRouter.onFrame, FrameBytes.bytes, hparse, hst]
    exact hput
  obtain ⟨hall, hdelivered⟩ := h.all_call (.onFrame stream frame nowUs) fun f hbrings => by
    rw [← hbrings.2, hshare]
  have hbuffer : bufferOf stream v.router = some st.buffer := by simp [bufferOf, hst]
  have hopen : v.router.isOpen stream = true := by simp [VideoReceiveRouter.isOpen, hst]
  have hkeyframe : frame.isKeyframe = hdr.keyframe := by simp [ShareFrame.isKeyframe, hparse]
  have hfirst : (v.onVideoStreamFrame stream frame nowUs).firstKeyframe =
      v.firstKeyframe.or (if hdr.keyframe then some frame else none) := by
    have harrived : (v.onVideoStreamFrame stream frame nowUs).arrived = v.arrived ++ [frame] := by
      simp [Viewer.onVideoStreamFrame, hopen]
    rw [firstKeyframe_append harrived rfl]
    simp [hshare, hkeyframe]
  obtain ⟨hhave, hhanded⟩ := h.baseline st.buffer hbuffer
  refine ⟨hall, hdelivered, fun b hb => ?_⟩
  have hb' := hserves.buffer.symm.trans hb
  simp only [hbuffer, VideoReceiveRouter.bufferRun, VideoFrameReorderBuffer.run_cons,
    VideoFrameReorderBuffer.run_nil, VideoFrameReorderBuffer.step, List.append_nil,
    Option.some.injEq] at hb'
  have hhandedOn : (v.onVideoStreamFrame stream frame nowUs).handedOn stream =
      v.handedOn stream ++ deliveredFrames (st.buffer.onFrame hdr frame nowUs).2 := by
    have hcall := handedOn_call hserves
    show (v.call stream (.onFrame stream frame nowUs)).handedOn stream = _
    simpa [hbuffer, VideoReceiveRouter.bufferRun, VideoFrameReorderBuffer.run_cons,
      VideoFrameReorderBuffer.step] using hcall
  rw [← hb', hfirst, hhandedOn, VideoFrameReorderBuffer.onFrame_haveLast, hhave]
  cases hold : v.firstKeyframe with
  | some first =>
      refine ⟨by simp, fun frame' hframe' => ?_⟩
      obtain ⟨hdr', hin⟩ := hhanded first hold
      obtain rfl : first = frame' := by simpa using hframe'
      exact ⟨hdr', List.mem_append_left _ hin⟩
  | none =>
      cases hkey : hdr.keyframe with
      | false => simp
      | true =>
          refine ⟨by simp, fun frame' hframe' => ?_⟩
          obtain rfl : frame = frame' := by simpa using hframe'
          have hwaiting : st.buffer.haveLast = false := by rw [hhave, hold]; rfl
          exact ⟨hdr, List.mem_append_right _
            (VideoFrameReorderBuffer.onFrame_firstKeyframe hwaiting hkey frame nowUs)⟩

/-- A frame of the watched share is taken in, one of another share is dropped. -/
theorem Watching.onVideoStreamFrame (h : Watching stream v) {frame : ShareFrame}
    (hshare : frame.share ≠ v.watchedShare → DropsAsOld stream v frame) (nowUs : Int) :
    Watching stream (v.onVideoStreamFrame stream frame nowUs) := by
  cases hparse : VideoFrameHeader.parse frame.bytes with
  | none =>
      refine h.ignores ?_ fun _ => by simp [ShareFrame.isKeyframe, hparse]
      simp [Viewer.call, VideoReceiveRouter.step, VideoReceiveRouter.onFrame, FrameBytes.bytes,
        hparse]
  | some hdr =>
      cases hst : v.router.streams stream with
      | none =>
          refine h.ignores ?_ fun hopen => by simp [VideoReceiveRouter.isOpen, hst] at hopen
          simp [Viewer.call, VideoReceiveRouter.step, VideoReceiveRouter.onFrame, FrameBytes.bytes,
            hparse, hst]
      | some st =>
          by_cases hsame : frame.share = v.watchedShare
          · exact h.takes hsame hparse hst nowUs
          · obtain ⟨hhave, hold⟩ := hshare hsame st.buffer (by simp [bufferOf, hst]) hdr hparse
            refine h.ignores ?_ fun _ hnew => hsame hnew.1
            have hdrop : st.buffer.onFrame hdr frame nowUs = (st.buffer, []) := by
              simp [VideoFrameReorderBuffer.onFrame, hhave, hold]
            have hkept : Function.update v.router.streams stream (some st) = v.router.streams := by
              rw [← hst, Function.update_eq_self]
            simp [Viewer.call, VideoReceiveRouter.step, VideoReceiveRouter.onFrame, FrameBytes.bytes,
              hparse, hst, hdrop, VideoReceiveRouter.putStream, VideoReceiveRouter.onBufferEvents,
              hkept]

/-! ### The watch state -/

/-- A call that opens nothing and brings no frame of the stream. -/
theorem Watching.closes (h : Watching stream v) {op : RouterOp ShareFrame}
    (hop : op = .close stream ∨ op = .closeAll) : Watching stream (v.call stream op) := by
  rcases hop with rfl | rfl
  · exact h.call (by simp) (by simp [VideoReceiveRouter.Brings])
  · exact h.call (by simp) (by simp [VideoReceiveRouter.Brings])

/-- What is left past the buffers when everything is closed was there before. -/
theorem flow_closeAll_subset {x : VideoFrameHeader × ShareFrame}
    (hx : x ∈ flow stream v.router.closeAll) : x ∈ flow stream v.router := by
  simp only [flow, VideoReceiveRouter.closeAll, List.map_nil, List.append_nil] at hx
  exact List.mem_append_left _ hx

theorem Watching.watchSharer (h : Watching stream v)
    (hopen : v.sharer = true → v.watched = false →
      ∀ x ∈ flow stream v.router, x.2.share = v.announced) (nowUs : Int) :
    Watching stream (v.watchSharer stream nowUs).1 := by
  unfold Viewer.watchSharer
  split
  · exact h
  next hsharer =>
    split
    · exact h
    next hwatched =>
      dsimp only
      refine watching_openVideoRx ?_ (fun x hx => ?_) nowUs
      · exact h.all.playout
      · exact hopen (by simpa using hsharer) (by simpa using hwatched) x (flow_closeAll_subset hx)

theorem Watching.addWatch (h : Watching stream v)
    (hopen : v.sharer = true → v.watched = false →
      ∀ x ∈ flow stream v.router, x.2.share = v.announced) (nowUs : Int) :
    Watching stream (v.addWatch stream nowUs).1 := by
  unfold Viewer.addWatch
  split
  · exact h
  next hsharer =>
    split
    · exact h.watchSharer hopen nowUs
    · split
      · exact h
      next hwatched =>
        dsimp only
        refine watching_openVideoRx ?_ ?_ nowUs
        · exact h.all.playout
        · exact hopen (by simpa using hsharer) (by simpa using hwatched)

theorem Watching.removeWatch (h : Watching stream v) : Watching stream (v.removeWatch stream).1 := by
  unfold Viewer.removeWatch
  split
  · exact h
  · have h' : Watching stream { v with watched := false } := ⟨h.all, h.delivered, h.baseline⟩
    exact h'.closes (.inl rfl)

theorem Watching.stopWatching (h : Watching stream v) :
    Watching stream (v.stopWatching stream).1 := by
  have h' : Watching stream { v with watched := false } := ⟨h.all, h.delivered, h.baseline⟩
  exact h'.closes (.inr rfl)

theorem Watching.setSingleWatched (h : Watching stream v) {on : Bool}
    (hopen : on = true → ∀ x ∈ flow stream v.router.closeAll, x.2.share = v.announced)
    (nowUs : Int) : Watching stream (v.setSingleWatched stream on nowUs).1 := by
  unfold Viewer.setSingleWatched
  cases on with
  | false =>
      have h' : Watching stream { v with watched := false } := ⟨h.all, h.delivered, h.baseline⟩
      exact h'.closes (.inr rfl)
  | true =>
      dsimp only
      refine watching_openVideoRx ?_ ?_ nowUs
      · exact h.all.playout
      · exact hopen rfl

theorem Watching.clearAllSharers (h : Watching stream v) :
    Watching stream (v.clearAllSharers stream) := by
  have h' : Watching stream { v with watched := false, sharer := false } :=
    ⟨h.all, h.delivered, h.baseline⟩
  exact h'.closes (.inr rfl)

theorem Watching.joinChannel (h : Watching stream v) : Watching stream v.joinChannel.1 := by
  unfold Viewer.joinChannel
  split
  · exact h
  · exact ⟨h.all, h.delivered, h.baseline⟩

theorem Watching.leaveChannel (h : Watching stream v) :
    Watching stream (v.leaveChannel stream).1 := by
  unfold Viewer.leaveChannel
  split
  · exact h
  · cases v.watched with
    | true =>
        have h' := h.stopWatching.clearAllSharers
        exact ⟨h'.all, h'.delivered, h'.baseline⟩
    | false =>
        have h' := h.clearAllSharers
        exact ⟨h'.all, h'.delivered, h'.baseline⟩

theorem Watching.onChannelUserList (h : Watching stream v) :
    Watching stream (v.onChannelUserList stream) := by
  unfold Viewer.onChannelUserList
  split
  · exact h
  · have h' : Watching stream { v with awaitingChannelJoin := false } :=
      ⟨h.all, h.delivered, h.baseline⟩
    dsimp only
    split
    · have h'' := h'.clearAllSharers
      exact ⟨h''.all, h''.delivered, h''.baseline⟩
    · exact ⟨h.all, h.delivered, h.baseline⟩

theorem Watching.onScreenShareStarted (h : Watching stream v) {share : Nat}
    {replay ownerShown : Bool}
    (hopen : v.inChannel = true → ownerShown = true → replay = false →
      v.router.isOpen stream = true → ∀ x ∈ flow stream v.router, x.2.share = share)
    (nowUs : Int) :
    Watching stream (v.onScreenShareStarted stream share replay ownerShown nowUs) := by
  unfold Viewer.onScreenShareStarted
  split
  · exact h
  next hshown =>
    simp only [Bool.or_eq_true, Bool.not_eq_true', not_or, Bool.not_eq_false] at hshown
    dsimp only
    split
    next hlive =>
      simp only [Bool.and_eq_true, Bool.not_eq_true'] at hlive
      refine watching_openVideoRx ?_ ?_ nowUs
      · exact h.all.playout
      · exact hopen hshown.1 hshown.2 hlive.1 hlive.2
    · exact ⟨h.all, h.delivered, h.baseline⟩

theorem Watching.onScreenShareStopped (h : Watching stream v) :
    Watching stream (v.onScreenShareStopped stream).1 := by
  have h' : Watching stream { v with sharer := false } := ⟨h.all, h.delivered, h.baseline⟩
  unfold Viewer.onScreenShareStopped
  dsimp only
  split
  · exact h'.removeWatch
  · exact h'

theorem Watching.onVideoStreamHeader (h : Watching stream v) (frame : ShareFrame) (nowUs : Int) :
    Watching stream (v.onVideoStreamHeader stream frame nowUs) := by
  unfold Viewer.onVideoStreamHeader
  split
  · exact h
  · exact h.call (by simp) (by simp [VideoReceiveRouter.Brings])

end Viewer

namespace WatchHop

/-- No frame of another share gets into a watch: none is taken in when it arrives,
and none waits in the playout queue when the stream is opened. -/
def NoStraggler (stream : StreamId) (h : WatchHop) : HopOp → Prop
  | .frameArrives i _ => ∀ frame ∈ h.inFlight[i]?, frame.share ≠ h.viewer.watchedShare →
      h.viewer.DropsAsOld stream frame
  | .addWatch _ => h.viewer.sharer = true → h.viewer.watched = false →
      ∀ x ∈ flow stream h.viewer.router, x.2.share = h.viewer.announced
  | .setSingleWatched on _ => on = true →
      ∀ x ∈ flow stream h.viewer.router.closeAll, x.2.share = h.viewer.announced
  | .controlArrives ownerShown _ => ∀ share ∈ h.control.head?.bind ServerMessage.liveShare,
      h.viewer.inChannel = true → ownerShown = true → h.viewer.router.isOpen stream = true →
        ∀ x ∈ flow stream h.viewer.router, x.2.share = share
  | _ => True

instance NoStraggler.decidable (stream : StreamId) (h : WatchHop) :
    (op : HopOp) → Decidable (NoStraggler stream h op)
  | .frameArrives i _ => inferInstanceAs (Decidable (∀ frame ∈ h.inFlight[i]?,
      frame.share ≠ h.viewer.watchedShare → h.viewer.DropsAsOld stream frame))
  | .addWatch _ => inferInstanceAs (Decidable (h.viewer.sharer = true → h.viewer.watched = false →
      ∀ x ∈ flow stream h.viewer.router, x.2.share = h.viewer.announced))
  | .setSingleWatched on _ => inferInstanceAs (Decidable (on = true →
      ∀ x ∈ flow stream h.viewer.router.closeAll, x.2.share = h.viewer.announced))
  | .controlArrives ownerShown _ => inferInstanceAs (Decidable (
      ∀ share ∈ h.control.head?.bind ServerMessage.liveShare,
        h.viewer.inChannel = true → ownerShown = true → h.viewer.router.isOpen stream = true →
          ∀ x ∈ flow stream h.viewer.router, x.2.share = share))
  | .shareStart | .shareStop | .requestArrives | .sendFrame _ | .headerArrives _ _
  | .frameAborts _ _ _ | .joinChannel | .leaveChannel | .removeWatch | .stopWatching | .setRtt _
  | .sendPli _ | .tick _ _ _ | .collect _ _ | .deliverNext => inferInstanceAs (Decidable True)

variable {stream : StreamId}

@[simp] theorem announce_viewer (h : WatchHop) (messages : List ServerMessage) :
    (h.announce messages).viewer = h.viewer := by
  unfold announce
  split <;> rfl

@[simp] theorem shareStart_viewer (h : WatchHop) : h.shareStart.viewer = h.viewer := by
  simp [shareStart]

@[simp] theorem shareStop_viewer (h : WatchHop) : h.shareStop.viewer = h.viewer := by
  unfold shareStop
  split <;> simp

@[simp] theorem sendFrame_viewer (h : WatchHop) (bytes : Bytes) :
    (h.sendFrame bytes).viewer = h.viewer := by
  unfold sendFrame
  split <;> rfl

@[simp] theorem handleMessage_viewer (h : WatchHop) (request : ClientMessage) :
    (h.handleMessage request).viewer = h.viewer := by
  cases request with
  | channelJoin => simp [handleMessage]
  | channelLeave => rfl
  | screenShareView subscribe =>
      simp only [handleMessage]
      split
      · rfl
      · split
        · rfl
        · split <;> rfl

/-- One step without a straggler keeps the watch clean. -/
theorem step_watching {h : WatchHop} (hwatching : Viewer.Watching stream h.viewer) {op : HopOp}
    (hop : h.NoStraggler stream op) : Viewer.Watching stream (h.step stream op).viewer := by
  cases op with
  | shareStart => simpa [step] using hwatching
  | shareStop => simpa [step] using hwatching
  | sendFrame bytes => simpa [step] using hwatching
  | requestArrives =>
      simp only [step]
      split
      · exact hwatching
      · simpa using hwatching
  | controlArrives ownerShown nowUs =>
      simp only [step]
      cases hcontrol : h.control with
      | nil => exact hwatching
      | cons message control =>
          cases message with
          | channelUserList => exact hwatching.onChannelUserList
          | screenShareStarted share replay =>
              refine hwatching.onScreenShareStarted (fun hin hshown hlive hopen => ?_) nowUs
              exact hop share (by rw [hcontrol, hlive]; rfl) hin hshown hopen
          | screenShareStopped => exact hwatching.onScreenShareStopped
  | headerArrives i nowUs =>
      simp only [step]
      split
      · exact hwatching
      · exact hwatching.onVideoStreamHeader _ nowUs
  | frameArrives i nowUs =>
      simp only [step]
      cases hframe : h.inFlight[i]? with
      | none => exact hwatching
      | some frame => exact hwatching.onVideoStreamFrame (hop frame hframe) nowUs
  | frameAborts i haveSeq nowUs =>
      simp only [step]
      split
      · exact hwatching
      · exact hwatching.call (by simp) (by simp [VideoReceiveRouter.Brings])
  | joinChannel => exact hwatching.joinChannel
  | leaveChannel => exact hwatching.leaveChannel
  | addWatch nowUs => exact hwatching.addWatch hop nowUs
  | removeWatch => exact hwatching.removeWatch
  | stopWatching => exact hwatching.stopWatching
  | setSingleWatched on nowUs => exact hwatching.setSingleWatched hop nowUs
  | setRtt rttUs => exact hwatching.call (by simp) (by simp [VideoReceiveRouter.Brings])
  | sendPli nowUs => exact hwatching.call (by simp) (by simp [VideoReceiveRouter.Brings])
  | tick nowUs needs order => exact hwatching.call (by simp) (by simp [VideoReceiveRouter.Brings])
  | collect nowUs order => exact hwatching.call (by simp) (by simp [VideoReceiveRouter.Brings])
  | deliverNext => exact hwatching.call (by simp) (by simp [VideoReceiveRouter.Brings])

theorem new_watching (multiStream : Bool) : Viewer.Watching stream (new multiStream).viewer := by
  refine ⟨⟨rfl, ?_, fun b hb => ?_⟩, ?_, fun b hb => ?_⟩
  · simp [new, flow, VideoReceiveRouter.new]
  · simp [new, bufferOf, VideoReceiveRouter.new] at hb
  · simp [new]
  · simp [new, bufferOf, VideoReceiveRouter.new] at hb

/-- In every run without stragglers, every watch is of the announced share alone
and gets its first keyframe. -/
theorem run_freshWatch (stream : StreamId) (multiStream : Bool) (ops : List HopOp)
    (hops : Machine.AllSteps (step stream) (NoStraggler stream) (new multiStream) ops) :
    Viewer.FreshWatch stream (run stream multiStream ops).viewer :=
  (Machine.run_invariant
    (fun (h : WatchHop) _ (hwatching : Viewer.Watching stream h.viewer) hop =>
      step_watching hwatching hop) (new_watching multiStream) hops).freshWatch

/-- The viewer watches share 1 and has share 2 announced when keyframe 9 of share 1
is still in flight. -/
def restart : List HopOp :=
  [.joinChannel, .requestArrives, .controlArrives true 1, .shareStart, .controlArrives true 2,
    .addWatch 3, .requestArrives, .sendFrame (keyframeBytes 9), .shareStop, .controlArrives true 4,
    .shareStart, .controlArrives true 5]

/-- Keyframe 9 comes in before the new watch. -/
theorem run_freshWatch_lateWatch : Viewer.FreshWatch 5 (run 5 true (restart ++
    [.frameArrives 0 6, .addWatch 7, .requestArrives, .requestArrives,
      .sendFrame (keyframeBytes 0), .frameArrives 0 8, .collect 60000000 [(5, 1)],
      .deliverNext])).viewer :=
  run_freshWatch 5 true _ (by decide)

/-- Keyframe 9 comes in after the new watch and is taken for its baseline; the first
keyframe of share 2 is dropped as old. -/
theorem not_run_freshWatch : ¬ ∀ stream multiStream ops,
    Viewer.FreshWatch stream (run stream multiStream ops).viewer := by
  intro hclaim
  have hfresh := hclaim 5 true (restart ++ [.addWatch 6, .requestArrives, .requestArrives,
    .sendFrame (keyframeBytes 0), .frameArrives 0 7, .frameArrives 0 8])
  obtain ⟨hdr, hin⟩ := hfresh.firstKeyframe (by decide) ⟨2, keyframeBytes 0⟩ (by decide)
  have hstale : ∀ x ∈ (run 5 true (restart ++ [.addWatch 6, .requestArrives, .requestArrives,
      .sendFrame (keyframeBytes 0), .frameArrives 0 7, .frameArrives 0 8])).viewer.handedOn 5,
      x.2.share = 1 := by
    decide
  exact absurd (show 2 = 1 from hstale _ hin) (by decide)

end WatchHop

end Parties.Client

import Parties.Server.FrameOffers
import Parties.Server.ShareEnds
import Parties.Video.FrameReorderDelivery

/-!
# The first frames of a share

`SCREEN_SHARE_START` resets nothing: the reorder buffer of the stream and the generation
of its source are left as they are, and only `stop_video_stream` starts them afresh. So a
share starts cleanly if the last one was stopped first, the buffer is empty when it
starts, and nothing that is late from another share gets into it. The run theorem has the
exact reading: then the first keyframe of the share on its session is passed on whatever
its number, nothing older is, and the buffer stands where a frame of the share put it.
-/

namespace Parties

open Parties.Video

/-! ### The property -/

namespace ShareLog

/-- The frame is a keyframe of the share. -/
def starts (log : ShareLog) (frame : ShareFrame) : Bool :=
  frame.share = log.share && frame.isKeyframe

/-- The first keyframe of the share among some frames. -/
def firstKeyframe (log : ShareLog) (frames : List ShareFrame) : Option ShareFrame :=
  frames.find? log.starts

end ShareLog

namespace Server

/-- The share of a stream has started cleanly: what is passed on came in on its session
and is of no earlier share, its first keyframe to come in is passed on if it does not
wait in the queue, and the reorder buffer stands at a frame that was passed on. -/
structure StartsCleanly (s : Server) (stream : StreamId) : Prop where
  passedOn : ∀ frame ∈ (s.shareLog stream).passedOn,
    frame ∈ (s.shareLog stream).received ∧ (s.shareLog stream).share ≤ frame.share
  firstKeyframe : ∀ sid generation source,
    (s.shareLog stream).runsOn = some (sid, generation) → videoStreamSource stream = some source →
      ∀ frame ∈ (s.shareLog stream).firstKeyframe (s.shareLog stream).received,
        frame ∈ (s.shareLog stream).passedOn ∨
          (s.shareLog stream).firstKeyframe (s.waitingFrames sid source generation) = some frame
  baseline : ∀ ingress, s.videoIngress stream = some ingress → ingress.reorder.haveLast = true →
    ∃ frame ∈ (s.shareLog stream).passedOn, ∃ hdr, VideoFrameHeader.parse frame.bytes = some hdr ∧
      hdr.frameSeq = ingress.reorder.lastDelivered

/-! ### The condition -/

/-- The reorder buffer of a stream, if there is one, has delivered nothing and holds
nothing. -/
def EmptyIngress (s : Server) (stream : StreamId) : Prop :=
  ∀ ingress ∈ s.videoIngress stream,
    ingress.reorder.haveLast = false ∧ ingress.reorder.held.isEmpty = true

/-- A frame of another share finds the buffer of the stream started, and one of an earlier
share is dropped as old. -/
def DropsStraggler (s : Server) (stream : StreamId) (frame : ShareFrame) : Prop :=
  frame.share ≠ (s.shareLog stream).share → ∀ hdr ∈ VideoFrameHeader.parse frame.bytes,
    (s.videoIngress stream).any (fun ingress => ingress.reorder.haveLast &&
      ((s.shareLog stream).share < frame.share ||
        !videoSeqNewer hdr.frameSeq ingress.reorder.lastDelivered)) = true

/-- The ingress queue has room for the frame, if it is the first keyframe of its share. -/
def TakesFirst (s : Server) (sid : SessionId) (source : VideoSource) (frame : ShareFrame) : Prop :=
  let log := s.shareLog (videoStreamId (s.sessions sid).userId source)
  (log.runsOn.any fun on => on.1 = sid) = true → log.starts frame = true →
    log.firstKeyframe log.received = none →
      (s.sessions sid).videoPendingBytes + frameSize frame ≤ VIDEO_INGRESS_MAX_BUFFERED_BYTES

/-- The frame an entry of the queue brings, if it brings one. -/
def pendingFrame (p : PendingVideoFrame) : Option ShareFrame :=
  match p.event with
  | .frame frame => some frame
  | _ => none

def StartsFresh (s : Server) : ServerOp → Prop
  | .message sid (.screenShareStart _ _ _ sourceRaw) => sid ∈ s.sessionTable →
      ∀ source ∈ videoSourceOf sourceRaw, s.acceptsStart sid source = true →
        s.EmptyIngress (videoStreamId (s.sessions sid).userId source)
  | .videoFrame sid source frame => s.TakesFirst sid source frame
  | .processVideoFrame => ∀ p ∈ s.videoIncoming.head?, s.acceptsPending p = true →
      ∀ frame ∈ pendingFrame p,
        s.DropsStraggler (videoStreamId (s.sessions p.session).userId p.source) frame
  | .processDisconnect => ∀ d ∈ s.disconnects.head?, ∀ current ∈ s.sessionForUser d.userId,
      ∀ source, videoStreamId d.userId source ∈ s.channelVideoStreams d.channelId →
        (s.sessions current).videoIngressAllowed source = true →
          (s.sessions current).channelId = d.channelId
  | _ => True

instance (s : Server) (stream : StreamId) : Decidable (s.EmptyIngress stream) :=
  inferInstanceAs (Decidable (∀ ingress ∈ s.videoIngress stream, _ ∧ _))

instance (s : Server) (stream : StreamId) (frame : ShareFrame) :
    Decidable (s.DropsStraggler stream frame) :=
  inferInstanceAs (Decidable (_ → ∀ hdr ∈ VideoFrameHeader.parse frame.bytes, _))

instance (s : Server) (sid : SessionId) (source : VideoSource) (frame : ShareFrame) :
    Decidable (s.TakesFirst sid source frame) :=
  inferInstanceAs (Decidable (_ → _ → _ → _))

instance StartsFresh.decidable (s : Server) : (op : ServerOp) → Decidable (s.StartsFresh op)
  | .message sid (.screenShareStart _ _ _ sourceRaw) =>
    inferInstanceAs (Decidable (sid ∈ s.sessionTable → ∀ source ∈ videoSourceOf sourceRaw,
      s.acceptsStart sid source = true →
        s.EmptyIngress (videoStreamId (s.sessions sid).userId source)))
  | .videoFrame sid source frame => inferInstanceAs (Decidable (s.TakesFirst sid source frame))
  | .processVideoFrame => inferInstanceAs (Decidable (∀ p ∈ s.videoIncoming.head?,
      s.acceptsPending p = true → ∀ frame ∈ pendingFrame p,
        s.DropsStraggler (videoStreamId (s.sessions p.session).userId p.source) frame))
  | .processDisconnect => inferInstanceAs (Decidable (∀ d ∈ s.disconnects.head?,
      ∀ current ∈ s.sessionForUser d.userId, ∀ source,
        videoStreamId d.userId source ∈ s.channelVideoStreams d.channelId →
          (s.sessions current).videoIngressAllowed source = true →
            (s.sessions current).channelId = d.channelId))
  | .connect | .shutdownComplete _ | .videoFrameStarted _ _ _
  | .videoFrameAborted _ _ _ | .videoOutShutdown _ _ | .videoControl _ _ _
  | .beginPass | .pollIngress _ | .sendDeferred _ => isTrue trivial
  | .message _ (.authIdentity ..) | .message _ (.channelJoin ..) | .message _ .channelLeave
  | .message _ (.adminCreateChannel ..) | .message _ (.adminDeleteChannel ..)
  | .message _ (.adminSetRole ..) | .message _ (.adminKickUser _)
  | .message _ (.screenShareUpdate ..) | .message _ (.screenShareStop _)
  | .message _ (.screenShareView ..) => isTrue trivial

end Server

/-! ### A buffer and a queue of the share -/

namespace ShareLog

/-- The frame came in on the session of the share, and is of no earlier one. -/
structure Fits (log : ShareLog) (hdr : VideoFrameHeader) (frame : ShareFrame) : Prop where
  parse : VideoFrameHeader.parse frame.bytes = some hdr
  received : frame ∈ log.received
  share : log.share ≤ frame.share

/-- The buffer holds frames of the share only, and it stands where a frame of the share
put it, after the first keyframe. -/
structure Carries (log : ShareLog) (reorder : VideoFrameReorderBuffer ShareFrame) : Prop where
  held : VideoFrameReorderBuffer.HeldAll log.Fits reorder
  baseline : reorder.haveLast = true → ∃ frame ∈ log.passedOn, ∃ hdr,
    VideoFrameHeader.parse frame.bytes = some hdr ∧ hdr.frameSeq = reorder.lastDelivered
  first : reorder.haveLast = true →
    ∃ frame, log.firstKeyframe log.received = some frame ∧ frame ∈ log.passedOn

/-- The first keyframe of the share is passed on, or it waits. -/
structure Awaits (log : ShareLog) (waiting : List ShareFrame) : Prop where
  received : ∀ frame ∈ waiting, frame ∈ log.received
  first : ∀ frame ∈ log.firstKeyframe log.received,
    frame ∈ log.passedOn ∨ log.firstKeyframe waiting = some frame

/-- The frames of some callbacks are passed on. -/
def passOn (log : ShareLog) (events : List (ReorderEvent ShareFrame)) : ShareLog :=
  { log with passedOn := log.passedOn ++ (deliveredFrames events).map Prod.snd }

variable {log : ShareLog} {reorder : VideoFrameReorderBuffer ShareFrame}
  {outcome : VideoFrameReorderBuffer ShareFrame × List (ReorderEvent ShareFrame)}

theorem passOn_of_silent {events : List (ReorderEvent ShareFrame)}
    (h : deliveredFrames events = []) : log.passOn events = log := by
  simp [passOn, h]

theorem mem_passOn {events : List (ReorderEvent ShareFrame)} {frame : ShareFrame} :
    frame ∈ (log.passOn events).passedOn ↔
      frame ∈ log.passedOn ∨ ∃ hdr, (hdr, frame) ∈ deliveredFrames events := by
  simp [passOn]

theorem chainPath_last {last : Option (BitVec 32)} {hdrs : List VideoFrameHeader}
    {seq : BitVec 32} (h : ChainPath last hdrs (some seq)) :
    last = some seq ∨ ∃ hdr ∈ hdrs, hdr.frameSeq = seq := by
  induction hdrs generalizing last with
  | nil => exact .inl h
  | cons hdr hdrs ih =>
      right
      rcases ih h.2 with heq | ⟨hdr', hin, hseq⟩
      · exact ⟨hdr, List.mem_cons_self, Option.some.inj heq⟩
      · exact ⟨hdr', List.mem_cons_of_mem _ hin, hseq⟩

/-- A call on the buffer that takes and delivers frames of the share only, and does not
start the buffer before the first keyframe. -/
theorem Carries.passOn (h : log.Carries reorder)
    (hyields : VideoFrameReorderBuffer.Yields log.Fits outcome) (hextends : reorder.Extends outcome)
    (hstarts : outcome.1.haveLast = true → reorder.haveLast = false →
      ∃ frame, log.firstKeyframe log.received = some frame ∧
        frame ∈ (log.passOn outcome.2).passedOn) :
    (log.passOn outcome.2).Carries outcome.1 := by
  refine ⟨?_, fun hhave => ?_, fun hhave => ?_⟩
  · intro e he
    obtain ⟨hparse, hreceived, hshare⟩ := hyields.held e he
    exact ⟨hparse, hreceived, hshare⟩
  · have hpath : ChainPath reorder.anchor (deliveredHeaders outcome.2)
        (some outcome.1.lastDelivered) := by
      have hanchor : outcome.1.anchor = some outcome.1.lastDelivered := by
        simp [VideoFrameReorderBuffer.anchor, hhave]
      rw [← hanchor]
      exact hextends
    rcases chainPath_last hpath with hbefore | ⟨hdr, hin, hseq⟩
    · -- it stands where it stood
      have hhad : reorder.haveLast = true := by
        by_contra hnot
        simp [VideoFrameReorderBuffer.anchor, hnot] at hbefore
      obtain ⟨frame, hpassed, hdr, hparse, hseq⟩ := h.baseline hhad
      simp only [VideoFrameReorderBuffer.anchor, hhad, if_true, Option.some.injEq] at hbefore
      exact ⟨frame, mem_passOn.mpr (.inl hpassed), hdr, hparse, hseq.trans hbefore⟩
    · obtain ⟨⟨hdr', frame⟩, hdelivered, rfl⟩ := List.mem_map.mp hin
      have hfits := hyields.delivered _ hdelivered
      exact ⟨frame, mem_passOn.mpr (.inr ⟨hdr', hdelivered⟩), hdr', hfits.parse, hseq⟩
  · cases hhad : reorder.haveLast with
    | false => exact hstarts hhave hhad
    | true =>
        obtain ⟨frame, hfirst, hpassed⟩ := h.first hhad
        exact ⟨frame, hfirst, mem_passOn.mpr (.inl hpassed)⟩

/-- A call that delivers nothing. -/
theorem Carries.silent (h : log.Carries reorder)
    (hyields : VideoFrameReorderBuffer.Yields log.Fits outcome)
    (hsilent : VideoFrameReorderBuffer.Silent reorder outcome) :
    (log.passOn outcome.2).Carries outcome.1 := by
  apply h.passOn hyields hsilent.extends
  intro hhave hnot
  rw [hsilent.haveLast, hnot] at hhave
  cases hhave

/-- A buffer that has delivered and holds nothing carries any share. -/
theorem carries_of_empty (hhave : reorder.haveLast = false) (hheld : reorder.held.isEmpty = true) :
    log.Carries reorder := by
  refine ⟨fun e he => ?_, fun h => ?_, fun h => ?_⟩
  · rw [OrderedMap.isEmpty_iff.mp hheld] at he
    cases he
  · rw [hhave] at h
    cases h
  · rw [hhave] at h
    cases h

/-- More frames come in on the session. -/
theorem Carries.receive (h : log.Carries reorder) (frame : ShareFrame) :
    ({ log with received := log.received ++ [frame] } : ShareLog).Carries reorder := by
  refine ⟨fun e he => ?_, h.baseline, fun hhave => ?_⟩
  · obtain ⟨hparse, hreceived, hshare⟩ := h.held e he
    exact ⟨hparse, List.mem_append_left _ hreceived, hshare⟩
  · obtain ⟨first, hfirst, hpassed⟩ := h.first hhave
    refine ⟨first, ?_, hpassed⟩
    have hstarts : log.received.find? log.starts = some first := hfirst
    have hmore : (log.received ++ [frame]).find? log.starts = some first := by
      rw [List.find?_append, hstarts]
      rfl
    exact hmore

/-- A frame comes in; the queue takes it at least if it is the first keyframe. -/
theorem Awaits.receive {waiting waiting' : List ShareFrame} (h : log.Awaits waiting)
    (frame : ShareFrame) (hwaiting : waiting' = waiting ++ [frame] ∨ waiting' = waiting ∧
      (log.starts frame = true → log.firstKeyframe log.received ≠ none)) :
    ({ log with received := log.received ++ [frame] } : ShareLog).Awaits waiting' := by
  have hfirst : ({ log with received := log.received ++ [frame] } : ShareLog).firstKeyframe
      (log.received ++ [frame]) =
        (log.firstKeyframe log.received).or (if log.starts frame then some frame else none) := by
    have happend : (log.received ++ [frame]).find? log.starts = _ := List.find?_append
    rw [List.find?_singleton] at happend
    exact happend
  constructor
  · intro other hother
    rcases hwaiting with rfl | ⟨rfl, _⟩
    · rcases List.mem_append.mp hother with hold | hnew
      · exact List.mem_append_left _ (h.received other hold)
      · exact List.mem_append_right _ hnew
    · exact List.mem_append_left _ (h.received other hother)
  · intro first hin
    dsimp only at hin
    rw [hfirst] at hin
    cases hbefore : log.firstKeyframe log.received with
    | some old =>
        rw [hbefore] at hin
        obtain rfl : old = first := by simpa using hin
        refine (h.first old hbefore).imp_right fun hwaits => ?_
        have hstill : waiting.find? log.starts = some old := hwaits
        rcases hwaiting with rfl | ⟨rfl, _⟩
        · have hmore : (waiting ++ [frame]).find? log.starts = some old := by
            rw [List.find?_append, hstill]
            rfl
          exact hmore
        · exact hwaits
    | none =>
        rw [hbefore] at hin
        cases hstarts : log.starts frame with
        | false => simp [hstarts] at hin
        | true =>
            obtain rfl : frame = first := by simpa [hstarts] using hin
            rcases hwaiting with rfl | ⟨_, hsome⟩
            · right
              -- nothing that waits is a keyframe of the share
              have hnone : waiting.find? log.starts = none := by
                rw [List.find?_eq_none]
                intro other hother
                have hall : log.received.find? log.starts = none := hbefore
                exact List.find?_eq_none.mp hall other (h.received other hother)
              have hfound : (waiting ++ [frame]).find? log.starts = some frame := by
                rw [List.find?_append, hnone, List.find?_singleton, if_pos hstarts]
                rfl
              exact hfound
            · exact absurd hbefore (hsome hstarts)

/-- The frame at the head of the queue does not count. -/
theorem Awaits.skip {frame : ShareFrame} {rest : List ShareFrame} (h : log.Awaits (frame :: rest))
    (hnot : log.starts frame = false) : log.Awaits rest := by
  refine ⟨fun other hin => h.received other (List.mem_cons_of_mem _ hin), fun first hin => ?_⟩
  refine (h.first first hin).imp_right fun hwaits => ?_
  have hfound : (frame :: rest).find? log.starts = some first := hwaits
  rw [List.find?_cons_of_neg (by simp [hnot])] at hfound
  exact hfound

/-- The buffer takes the frame at the head of the queue. -/
theorem Carries.takes (h : log.Carries reorder) {frame : ShareFrame} {rest : List ShareFrame}
    (hawaits : log.Awaits (frame :: rest)) {hdr : VideoFrameHeader}
    (hparse : VideoFrameHeader.parse frame.bytes = some hdr)
    (hstraggler : frame.share ≠ log.share → reorder.haveLast = true ∧
      (log.share < frame.share ∨ videoSeqNewer hdr.frameSeq reorder.lastDelivered = false))
    (nowUs : Int) :
    (log.passOn (reorder.onFrame hdr frame nowUs).2).Carries (reorder.onFrame hdr frame nowUs).1 ∧
      (log.passOn (reorder.onFrame hdr frame nowUs).2).Awaits rest ∧
      ∀ x ∈ deliveredFrames (reorder.onFrame hdr frame nowUs).2, log.Fits x.1 x.2 := by
  have hkeyframe : frame.isKeyframe = hdr.keyframe := by simp [ShareFrame.isKeyframe, hparse]
  by_cases hearlier : frame.share < log.share
  · -- a straggler is dropped
    have hother : frame.share ≠ log.share := hearlier.ne
    obtain ⟨hhave, hwhy⟩ := hstraggler hother
    have hold := hwhy.resolve_left (not_lt.mpr hearlier.le)
    have hdrop : reorder.onFrame hdr frame nowUs = (reorder, []) := by
      simp [VideoFrameReorderBuffer.onFrame, hhave, hold]
    rw [hdrop]
    dsimp only
    rw [passOn_of_silent rfl]
    exact ⟨h, hawaits.skip (by simp [starts, hother]), fun x hx => by cases hx⟩
  · have hfits : log.Fits hdr frame :=
      ⟨hparse, hawaits.received frame List.mem_cons_self, not_lt.mp hearlier⟩
    have hyields := VideoFrameReorderBuffer.onFrame_yields h.held hfits nowUs
    -- a keyframe of the share that starts the buffer is the first, and is delivered
    have hfound : log.starts frame = true → (frame :: rest).find? log.starts = some frame :=
      fun hstarts => List.find?_cons_of_pos hstarts
    have hdelivered : reorder.haveLast = false → log.starts frame = true →
        frame ∈ (log.passOn (reorder.onFrame hdr frame nowUs).2).passedOn := by
      intro hnot hstarts
      simp only [starts, Bool.and_eq_true, decide_eq_true_eq] at hstarts
      apply mem_passOn.mpr
      right
      exact ⟨hdr, VideoFrameReorderBuffer.onFrame_firstKeyframe hnot (hkeyframe ▸ hstarts.2) frame
        nowUs⟩
    have hnone : log.starts frame = true → log.firstKeyframe log.received ≠ none := by
      intro hstarts hnone
      have hall : log.received.find? log.starts = none := hnone
      exact List.find?_eq_none.mp hall frame (hawaits.received frame List.mem_cons_self) hstarts
    refine ⟨?_, ⟨fun other hin => hawaits.received other (List.mem_cons_of_mem _ hin), ?_⟩,
      hyields.delivered⟩
    · apply h.passOn hyields (VideoFrameReorderBuffer.onFrame_extends reorder hdr frame nowUs)
      intro hhave hnot
      rw [VideoFrameReorderBuffer.onFrame_haveLast, hnot, Bool.false_or] at hhave
      have hsame : frame.share = log.share := by
        by_contra hother
        have hhad := (hstraggler hother).1
        rw [hnot] at hhad
        cases hhad
      have hstarts : log.starts frame = true := by simp [starts, hsame, hkeyframe, hhave]
      obtain ⟨first, hfirst⟩ := Option.ne_none_iff_exists'.mp (hnone hstarts)
      refine ⟨first, hfirst, ?_⟩
      rcases hawaits.first first hfirst with hpassed | hwaits
      · exact mem_passOn.mpr (.inl hpassed)
      · obtain rfl := Option.some.inj ((hfound hstarts).symm.trans hwaits)
        exact hdelivered hnot hstarts
    · intro first hin
      rcases hawaits.first first hin with hpassed | hwaits
      · exact .inl (mem_passOn.mpr (.inl hpassed))
      · cases hstarts : log.starts frame with
        | false =>
            have hwaits' : (frame :: rest).find? log.starts = some first := hwaits
            rw [List.find?_cons_of_neg (by simp [hstarts])] at hwaits'
            exact .inr hwaits'
        | true =>
            obtain rfl := Option.some.inj ((hfound hstarts).symm.trans hwaits)
            left
            cases hhad : reorder.haveLast with
            | false => exact hdelivered hhad hstarts
            | true =>
                obtain ⟨frame', hfirst, hpassed⟩ := h.first hhad
                obtain rfl := Option.some.inj (hfirst.symm.trans hin)
                exact mem_passOn.mpr (.inl hpassed)

end ShareLog

namespace Server

variable {s s' : Server} {sid : SessionId} {source : VideoSource} {stream : StreamId}

/-! ### What the video path does to the record -/

/-- The buffer of a stream has taken something in, and what it delivered is passed on. -/
structure Took (stream : StreamId)
    (outcome : VideoFrameReorderBuffer ShareFrame × List (ReorderEvent ShareFrame))
    (s s' : Server) : Prop where
  registry : s'.registry = s.registry
  log : s'.shareLog = Function.update s.shareLog stream ((s.shareLog stream).passOn outcome.2)
  queue : s'.videoIncoming = s.videoIncoming
  buffer : ∃ ingress, s'.videoIngress = Function.update s.videoIngress stream (some ingress) ∧
    ingress.reorder = outcome.1

theorem Took.elsewhere {s'' : Server}
    {outcome : VideoFrameReorderBuffer ShareFrame × List (ReorderEvent ShareFrame)}
    (h : Took stream outcome s s') (hregistry : s''.registry = s'.registry)
    (hrecord : s''.shareRecord = s'.shareRecord) (hingress : s''.videoIngress = s'.videoIngress) :
    Took stream outcome s s'' := by
  obtain ⟨hlog, hqueue⟩ := Prod.mk.inj hrecord
  obtain ⟨ingress, hput, hreorder⟩ := h.buffer
  exact ⟨hregistry.trans h.registry, hlog.trans h.log, hqueue.trans h.queue,
    ⟨ingress, hingress.trans hput, hreorder⟩⟩

theorem shareRecord_forwardVideoFrame (s : Server) (sid : SessionId) (source : VideoSource)
    (frame : ShareFrame) : (s.forwardVideoFrame sid source frame).shareRecord = s.shareRecord := by
  unfold forwardVideoFrame
  split
  · rfl
  · split
    · rfl
    · dsimp only
      split
      · rfl
      · split
        · rfl
        · split <;> rfl

theorem record_onIngressEvents (stream : StreamId) (sid : SessionId) (source : VideoSource)
    (events : List (ReorderEvent ShareFrame)) (s : Server) :
    (onIngressEvents stream sid source s events).shareLog =
        Function.update s.shareLog stream ((s.shareLog stream).passOn events) ∧
      (onIngressEvents stream sid source s events).videoIncoming = s.videoIncoming ∧
      (onIngressEvents stream sid source s events).videoIngress = s.videoIngress := by
  induction events generalizing s with
  | nil =>
      refine ⟨?_, rfl, rfl⟩
      rw [ShareLog.passOn_of_silent rfl, Function.update_eq_self]
      rfl
  | cons e events ih =>
      cases e with
      | deliver hdr frame =>
          generalize hs' : (s.modifyShareLog stream fun log =>
            { log with passedOn := log.passedOn ++ [frame] }).forwardVideoFrame sid source frame = s'
          have hrecord : s'.shareRecord = (s.modifyShareLog stream fun log =>
              { log with passedOn := log.passedOn ++ [frame] }).shareRecord := by
            rw [← hs', shareRecord_forwardVideoFrame]
          have hingress : s'.videoIngress = s.videoIngress := by
            rw [← hs', videoIngress_forwardVideoFrame]
            rfl
          obtain ⟨hlog, hqueue⟩ := Prod.mk.inj hrecord
          obtain ⟨hlog', hqueue', hingress'⟩ := ih s'
          have hstep : onIngressEvents stream sid source s (.deliver hdr frame :: events) =
              onIngressEvents stream sid source s' events := by
            rw [← hs']
            rfl
          rw [hstep]
          refine ⟨?_, hqueue'.trans hqueue, hingress'.trans hingress⟩
          rw [hlog', hlog]
          simp [modifyShareLog, ShareLog.passOn, List.append_assoc]
      | lost seq => exact ih (s.requestKeyframeFromSharer stream 0)

theorem took_putIngress (s : Server) (stream : StreamId) (ingress : VideoIngress)
    (outcome : VideoFrameReorderBuffer ShareFrame × List (ReorderEvent ShareFrame)) :
    Took stream outcome s (s.putIngress stream ingress outcome) := by
  obtain ⟨hlog, hqueue, hingress⟩ := record_onIngressEvents stream ingress.session ingress.source
    outcome.2 { s with
      videoIngress := Function.update s.videoIngress stream
        (some { ingress with reorder := outcome.1 }) }
  exact ⟨registry_putIngress .., hlog, hqueue, ⟨_, hingress, rfl⟩⟩

/-- What is no frame, or a frame without a header, is no frame to the buffer. -/
theorem took_quiet (s : Server) (stream : StreamId) (ingress : VideoIngress) (event : IngressEvent)
    (hquiet : ∀ frame, event = .frame frame → VideoFrameHeader.parse frame.bytes = none) :
    ∃ outcome, Took stream outcome s (s.processIngressEvent stream ingress event) ∧
      VideoFrameReorderBuffer.Silent ingress.reorder outcome ∧
      ∀ P, VideoFrameReorderBuffer.HeldAll P ingress.reorder →
        VideoFrameReorderBuffer.Yields P outcome := by
  have hkept : VideoFrameReorderBuffer.Silent ingress.reorder (ingress.reorder, []) :=
    ⟨rfl, rfl, rfl⟩
  have hread : ∀ outcome, Took stream outcome s (s.readClock.putIngress stream ingress outcome) :=
    fun outcome => by
      obtain ⟨hregistry, hlog, hqueue, hbuffer⟩ :=
        took_putIngress s.readClock stream ingress outcome
      exact ⟨hregistry, hlog, hqueue, hbuffer⟩
  cases event with
  | started hdr =>
      exact ⟨_, hread _, VideoFrameReorderBuffer.onFrameStarted_silent ingress.reorder hdr s.nowUs,
        fun P hP =>
          (VideoFrameReorderBuffer.onFrameStarted_heldAll hP hdr s.nowUs).yields rfl⟩
  | aborted frameSeq =>
      cases frameSeq with
      | some frameSeq =>
          exact ⟨_, hread _,
            VideoFrameReorderBuffer.onFrameAborted_silent ingress.reorder frameSeq s.nowUs,
            fun P hP => VideoFrameReorderBuffer.onFrameAborted_yields hP frameSeq s.nowUs⟩
      | none =>
          refine ⟨_, ?_, hkept, fun P hP => hP.yields rfl⟩
          unfold processIngressEvent
          dsimp only
          split
          · exact hread _
          · exact (hread _).elsewhere rfl rfl rfl
  | frame frame =>
      refine ⟨_, ?_, hkept, fun P hP => hP.yields rfl⟩
      simp only [processIngressEvent, hquiet frame rfl]
      exact took_putIngress _ _ _ _

theorem took_frame (s : Server) (stream : StreamId) (ingress : VideoIngress) {frame : ShareFrame}
    {hdr : VideoFrameHeader} (hparse : VideoFrameHeader.parse frame.bytes = some hdr) :
    Took stream (ingress.reorder.onFrame hdr frame s.nowUs) s
      (s.processIngressEvent stream ingress (.frame frame)) := by
  obtain ⟨hregistry, hlog, hqueue, hbuffer⟩ :=
    took_putIngress s.readClock stream ingress (ingress.reorder.onFrame hdr frame s.nowUs)
  simp only [processIngressEvent, hparse]
  exact ⟨hregistry, hlog, hqueue, hbuffer⟩

/-! ### Between two steps -/

/-- The buffer of a stream and the frames that wait for it are those of its share. -/
structure Carried (s : Server) (stream : StreamId) : Prop where
  passedOn : ∀ frame ∈ (s.shareLog stream).passedOn,
    frame ∈ (s.shareLog stream).received ∧ (s.shareLog stream).share ≤ frame.share
  buffer : ∀ ingress, s.videoIngress stream = some ingress →
    (s.shareLog stream).Carries ingress.reorder
  queue : ∀ sid generation source, (s.shareLog stream).runsOn = some (sid, generation) →
    videoStreamSource stream = some source →
      (s.shareLog stream).Awaits (s.waitingFrames sid source generation)

theorem Carried.startsCleanly (h : s.Carried stream) : s.StartsCleanly stream where
  passedOn := h.passedOn
  firstKeyframe sid generation source hon hsource := (h.queue sid generation source hon hsource).first
  baseline ingress hin := (h.buffer ingress hin).baseline

/-- A step that feeds no buffer and takes no frame off the queue; shares may end. -/
theorem Carried.elsewhere (h : s.Carried stream)
    (hlog : s'.shareLog stream = s.shareLog stream ∨
      s'.shareLog stream = { s.shareLog stream with runsOn := none })
    (hqueue : ∀ sid source generation, (s'.shareLog stream).runsOn = some (sid, generation) →
      videoStreamSource stream = some source →
        s'.waitingFrames sid source generation = s.waitingFrames sid source generation)
    (hingress : s'.videoIngress stream = s.videoIngress stream ∨ s'.videoIngress stream = none) :
    s'.Carried stream := by
  have hbuffer : ∀ ingress, s'.videoIngress stream = some ingress →
      s.videoIngress stream = some ingress := by
    intro ingress hin
    rcases hingress with hsame | hnone
    · exact hsame.symm.trans hin
    · rw [hnone] at hin
      cases hin
  rcases hlog with hlog | hlog
  · refine ⟨by rw [hlog]; exact h.passedOn, fun ingress hin => ?_, fun sid generation source hon hsource => ?_⟩
    · rw [hlog]
      exact h.buffer ingress (hbuffer ingress hin)
    · rw [hqueue sid source generation hon hsource, hlog]
      exact h.queue sid generation source (hlog ▸ hon) hsource
  · refine ⟨by rw [hlog]; exact h.passedOn, fun ingress hin => ?_, fun sid generation source hon _ => ?_⟩
    · obtain ⟨hheld, hbaseline, hfirst⟩ := h.buffer ingress (hbuffer ingress hin)
      rw [hlog]
      refine ⟨fun e he => ?_, hbaseline, hfirst⟩
      obtain ⟨hparse, hreceived, hshare⟩ := hheld e he
      exact ⟨hparse, hreceived, hshare⟩
    · rw [hlog] at hon
      cases hon

/-- The shares of all streams are carried. -/
structure AllCarried (s : Server) : Prop where
  tracked : s.SharesTracked
  carried : ∀ stream, s.Carried stream

namespace AllCarried

theorem endsShares (h : s.AllCarried) (hends : s.EndsShares s')
    (hingress : ∀ stream, s'.videoIngress stream = s.videoIngress stream ∨
      s'.videoIngress stream = none) : s'.AllCarried := by
  refine ⟨hends.tracked, fun stream => ?_⟩
  apply (h.carried stream).elsewhere (hends.log stream) ?_ (hingress stream)
  intro sid source generation _ _
  unfold waitingFrames
  rw [hends.queue]

/-- The record has the same shares that run. -/
theorem tracked_of_runsOn (h : s.SharesTracked) (hregistry : s'.registry = s.registry)
    (hruns : ∀ stream, (s'.shareLog stream).runsOn = (s.shareLog stream).runsOn) : s'.SharesTracked := by
  refine ⟨hregistry ▸ h.inOrder, fun stream sid generation => ?_⟩
  rw [hruns, hregistry]
  exact h.runsOn stream sid generation

/-! ### The queue -/

theorem waitingFrames_push (s : Server) (sid other : SessionId) (source source' : VideoSource)
    (generation : Nat) (event : IngressEvent) :
    (s.pushVideoIncoming sid source event).waitingFrames other source' generation =
      s.waitingFrames other source' generation ++
        (match event with
        | .frame frame => if sid = other ∧ source = source' ∧
            ((s.sessions sid).videoSources source).generation = generation then [frame] else []
        | _ => []) := by
  unfold waitingFrames pushVideoIncoming
  rw [List.filterMap_append]
  congr 1
  cases event with
  | frame frame =>
      dsimp only
      split
      next hboth =>
        obtain ⟨rfl, rfl, rfl⟩ := hboth
        rw [List.filterMap_cons]
        simp
      next hnot =>
        rw [List.filterMap_cons]
        simp [hnot]
  | started hdr => rfl
  | aborted frameSeq => rfl

/-- A stream that runs on a session is its stream of some source, at the generation the
source is at. -/
theorem source_of_runs (h : s.SharesTracked) {generation : Nat}
    (hon : (s.shareLog stream).runsOn = some (sid, generation))
    (hsource : videoStreamSource stream = some source) :
    stream = videoStreamId (s.sessions sid).userId source ∧
      (s.sessions sid).alive = true ∧ (s.sessions sid).videoIngressAllowed source = true ∧
        generation = ((s.sessions sid).videoSources source).generation := by
  obtain ⟨_, halive, source', hstream, hallowed, hgeneration⟩ := (h.runsOn _ _ _).mp hon
  have hsame := videoStreamSource_id (s.registry.members sid).userId source'
  rw [← hstream, hsource] at hsame
  obtain rfl := Option.some.inj hsame
  exact ⟨hstream, halive, hallowed, hgeneration⟩

theorem enqueueVideoEvent (h : s.AllCarried) (sid : SessionId) (source : VideoSource)
    {event : IngressEvent} (hevent : ∀ frame, event ≠ .frame frame) :
    (s.enqueueVideoEvent sid source event).AllCarried := by
  have hregistry := registry_enqueueVideoEvent (s := s) sid source event
  unfold Server.enqueueVideoEvent at hregistry ⊢
  split
  · exact h
  · split
    · exact h
    · refine ⟨tracked_of_runsOn h.tracked rfl fun _ => rfl, fun stream => ?_⟩
      refine (h.carried stream).elsewhere (.inl rfl) ?_ (.inl rfl)
      intro other source' generation _ _
      rw [waitingFrames_push]
      cases event with
      | frame frame => exact absurd rfl (hevent frame)
      | started hdr => exact List.append_nil _
      | aborted frameSeq => exact List.append_nil _

theorem shareLog_logReceived (s : Server) (sid : SessionId) (source : VideoSource)
    (frame : ShareFrame) (stream : StreamId) :
    (s.logReceived sid source frame).shareLog stream =
      if stream = videoStreamId (s.sessions sid).userId source ∧
          ((s.shareLog stream).runsOn.any fun on => on.1 = sid) = true then
        { s.shareLog stream with received := (s.shareLog stream).received ++ [frame] }
      else s.shareLog stream := by
  unfold logReceived modifyShareLog
  dsimp only
  by_cases hstream : stream = videoStreamId (s.sessions sid).userId source
  · subst hstream
    rw [Function.update_self]
    simp only [true_and]
  · rw [Function.update_of_ne hstream, if_neg fun hboth => hstream hboth.1]

/-- A frame completes on a session; the queue takes it, or it does not count. -/
theorem receive (h : s.AllCarried) {frame : ShareFrame} (hregistry : s'.registry = s.registry)
    (hlog : s'.shareLog = (s.logReceived sid source frame).shareLog)
    (hingress : s'.videoIngress = s.videoIngress)
    (hqueue : (∀ other source' generation, s'.waitingFrames other source' generation =
        s.waitingFrames other source' generation ++ (if sid = other ∧ source = source' ∧
          ((s.sessions sid).videoSources source).generation = generation then [frame] else [])) ∨
      s'.videoIncoming = s.videoIncoming ∧
        let log := s.shareLog (videoStreamId (s.sessions sid).userId source)
        ((log.runsOn.any fun on => on.1 = sid) = true → log.starts frame = true →
          log.firstKeyframe log.received ≠ none)) : s'.AllCarried := by
  constructor
  · apply tracked_of_runsOn h.tracked hregistry
    intro stream
    rw [hlog, shareLog_logReceived]
    split <;> rfl
  · intro stream
    have hstream := shareLog_logReceived s sid source frame stream
    rw [← hlog] at hstream
    obtain ⟨hpassed, hbuffer, hwaiting⟩ := h.carried stream
    by_cases hruns : stream = videoStreamId (s.sessions sid).userId source ∧
        ((s.shareLog stream).runsOn.any fun on => on.1 = sid) = true
    · rw [if_pos hruns] at hstream
      refine ⟨fun frame' hin => ?_, fun ingress hin => ?_, fun other generation source' hon hsource => ?_⟩
      · rw [hstream] at hin ⊢
        obtain ⟨hreceived, hshare⟩ := hpassed frame' hin
        exact ⟨List.mem_append_left _ hreceived, hshare⟩
      · rw [hingress] at hin
        rw [hstream]
        exact (hbuffer ingress hin).receive frame
      · rw [hstream] at hon ⊢
        have hwaits := hwaiting other generation source' hon hsource
        obtain ⟨hname, _, _, hgeneration⟩ := source_of_runs h.tracked hon hsource
        have hsid : other = sid := by
          obtain ⟨generation', hon'⟩ := any_runsOn.mp hruns.2
          exact (Prod.mk.inj (Option.some.inj (hon.symm.trans hon'))).1
        subst hsid
        have hsame : source = source' := by
          have hid := videoStreamSource_id (s.sessions other).userId source
          rw [← hruns.1, hsource] at hid
          exact (Option.some.inj hid).symm
        subst hsame
        apply hwaits.receive frame
        rcases hqueue with hpushed | ⟨hkept, hnot⟩
        · left
          rw [hpushed, if_pos ⟨rfl, rfl, hgeneration.symm⟩]
        · right
          refine ⟨by simp only [waitingFrames, hkept], ?_⟩
          rw [hruns.1]
          exact hnot (hruns.1 ▸ hruns.2)
    · rw [if_neg hruns] at hstream
      apply (h.carried stream).elsewhere (.inl hstream) ?_ (.inl (congrFun hingress stream))
      intro other source' generation hon hsource
      rcases hqueue with hpushed | ⟨hkept, _⟩
      · rw [hpushed, if_neg, List.append_nil]
        rintro ⟨rfl, rfl, rfl⟩
        -- the frame would be one of the share
        rw [hstream] at hon
        exact hruns ⟨(source_of_runs h.tracked hon hsource).1, any_runsOn.mpr ⟨_, hon⟩⟩
      · simp only [waitingFrames, hkept]

theorem enqueueVideoFrame (h : s.AllCarried) {frame : ShareFrame}
    (hfirst : s.TakesFirst sid source frame) : (s.enqueueVideoFrame sid source frame).AllCarried := by
  unfold Server.enqueueVideoFrame
  split
  · exact h
  · unfold getSession
    by_cases hin : sid ∈ s.sessionTable
    · rw [if_pos hin]
      dsimp only
      have hruns : ((s.shareLog (videoStreamId (s.sessions sid).userId source)).runsOn.any
          fun on => on.1 = sid) = true → (s.sessions sid).videoIngressAllowed source = true := by
        intro hany
        obtain ⟨generation, hon⟩ := any_runsOn.mp hany
        exact (source_of_runs h.tracked hon (videoStreamSource_id _ _)).2.2.1
      split
      next hclosed =>
        refine h.receive rfl rfl rfl (.inr ⟨rfl, fun hany => ?_⟩)
        rw [hruns hany] at hclosed
        cases hclosed
      · split
        next hfull =>
          refine h.receive rfl rfl rfl (.inr ⟨rfl, fun hany hstarts hnone => ?_⟩)
          exact absurd hfull (not_lt.mpr (hfirst hany hstarts hnone))
        · refine h.receive (registry_modifySession ⟨rfl, rfl, fun _ => rfl, rfl⟩) rfl rfl (.inl ?_)
          intro other source' generation
          exact waitingFrames_push (s.logReceived sid source frame) sid other source source'
            generation (.frame frame)
    · rw [if_neg hin]
      exact h

/-! ### The buffers -/

/-- The buffer of a stream takes something in that is of its share, maybe off the queue. -/
theorem feed (h : s.AllCarried) {s₁ : Server} (hregistry : s₁.registry = s.registry)
    (hsame : s₁.shareLog = s.shareLog) (hingress : s₁.videoIngress = s.videoIngress)
    {outcome : VideoFrameReorderBuffer ShareFrame × List (ReorderEvent ShareFrame)}
    (htook : Took stream outcome s₁ s')
    (hcarries : ((s.shareLog stream).passOn outcome.2).Carries outcome.1)
    (hdelivered : ∀ x ∈ deliveredFrames outcome.2, (s.shareLog stream).Fits x.1 x.2)
    (hawaits : ∀ sid generation source, (s.shareLog stream).runsOn = some (sid, generation) →
      videoStreamSource stream = some source →
        ((s.shareLog stream).passOn outcome.2).Awaits (s₁.waitingFrames sid source generation))
    (hothers : ∀ other ≠ stream, ∀ sid source generation,
      (s.shareLog other).runsOn = some (sid, generation) → videoStreamSource other = some source →
        s₁.waitingFrames sid source generation = s.waitingFrames sid source generation) :
    s'.AllCarried := by
  have hwaiting : ∀ sid source generation,
      s'.waitingFrames sid source generation = s₁.waitingFrames sid source generation := by
    intro sid source generation
    simp only [waitingFrames, htook.queue]
  have hlog := htook.log
  rw [hsame] at hlog
  obtain ⟨ingress, hput, hreorder⟩ := htook.buffer
  rw [hingress] at hput
  constructor
  · apply tracked_of_runsOn h.tracked (htook.registry.trans hregistry)
    intro other
    rw [hlog]
    by_cases hother : other = stream
    · subst hother
      rw [Function.update_self]
      rfl
    · rw [Function.update_of_ne hother]
  · intro other
    by_cases hother : other = stream
    · subst hother
      have hpassedOn : s'.shareLog other = (s.shareLog other).passOn outcome.2 := by
        rw [hlog, Function.update_self]
      refine ⟨fun frame hin => ?_, fun ingress' hin => ?_, fun sid generation source hon hsource => ?_⟩
      · rw [hpassedOn] at hin ⊢
        rcases ShareLog.mem_passOn.mp hin with hold | ⟨hdr, hnew⟩
        · exact (h.carried other).passedOn frame hold
        · have hfits := hdelivered _ hnew
          exact ⟨hfits.received, hfits.share⟩
      · rw [hput, Function.update_self] at hin
        obtain rfl := Option.some.inj hin
        rw [hpassedOn, hreorder]
        exact hcarries
      · rw [hpassedOn] at hon ⊢
        rw [hwaiting]
        exact hawaits sid generation source hon hsource
    · have hkept : s'.shareLog other = s.shareLog other := by
        rw [hlog, Function.update_of_ne hother]
      refine (h.carried other).elsewhere (.inl hkept) (fun sid source generation hon hsource => ?_)
        (.inl ?_)
      · rw [hwaiting]
        exact hothers other hother sid source generation (hkept ▸ hon) hsource
      · rw [hput, Function.update_of_ne hother]

/-- A call that delivers nothing. -/
theorem took_silent (h : s.AllCarried) {reorder : VideoFrameReorderBuffer ShareFrame}
    {outcome : VideoFrameReorderBuffer ShareFrame × List (ReorderEvent ShareFrame)}
    (htook : Took stream outcome s s') (hcarries : (s.shareLog stream).Carries reorder)
    (hsilent : VideoFrameReorderBuffer.Silent reorder outcome)
    (hyields : ∀ P, VideoFrameReorderBuffer.HeldAll P reorder →
      VideoFrameReorderBuffer.Yields P outcome) : s'.AllCarried := by
  have hkept := hyields _ hcarries.held
  apply h.feed rfl rfl rfl htook (hcarries.silent hkept hsilent) hkept.delivered
  · intro sid generation source hon hsource
    rw [ShareLog.passOn_of_silent hsilent.delivered]
    exact (h.carried stream).queue sid generation source hon hsource
  · intro _ _ _ _ _ _ _
    rfl

theorem pollIngress (h : s.AllCarried) (stream : StreamId) : (s.pollIngress stream).AllCarried := by
  unfold Server.pollIngress
  split
  next nowUs ingress _ hingress =>
    split
    · have hdropped : s.EndsShares { s with
          videoIngress := Function.update s.videoIngress stream none } :=
        h.tracked.elsewhere rfl rfl
      apply h.endsShares hdropped
      intro other
      by_cases hother : other = stream
      · subst hother
        exact .inr (Function.update_self ..)
      · exact .inl (Function.update_of_ne hother ..)
    · have hpolled := h.took_silent
        (took_putIngress s stream ingress (ingress.reorder.poll nowUs))
        ((h.carried stream).buffer ingress hingress)
        (VideoFrameReorderBuffer.poll_silent ingress.reorder nowUs)
        fun P hP => VideoFrameReorderBuffer.poll_yields hP nowUs
      dsimp only
      split
      · have hasked : (s.putIngress stream ingress (ingress.reorder.poll nowUs)).EndsShares
            ((s.putIngress stream ingress
              (ingress.reorder.poll nowUs)).requestKeyframeFromSharer stream 0) :=
          hpolled.tracked.elsewhere rfl rfl
        exact hpolled.endsShares hasked fun _ => .inl rfl
      · exact hpolled
  · exact h

theorem carries_ingressFor (h : ∀ ingress, s.videoIngress stream = some ingress →
    (s.shareLog stream).Carries ingress.reorder) (sid : SessionId) (source : VideoSource) :
    (s.shareLog stream).Carries (s.ingressFor stream sid source).reorder := by
  unfold ingressFor
  cases hingress : s.videoIngress stream with
  | none => exact ShareLog.carries_of_empty rfl rfl
  | some ingress =>
      obtain ⟨hheld, hbaseline, hfirst⟩ := h ingress hingress
      exact ⟨hheld, hbaseline, hfirst⟩

/-! ### The head of the queue -/

theorem waitingFrames_dequeue {p : PendingVideoFrame} {rest : List PendingVideoFrame}
    (hp : s.videoIncoming = p :: rest) (sid : SessionId) (source : VideoSource)
    (generation : Nat) : s.waitingFrames sid source generation =
      (if p.session = sid ∧ p.source = source ∧ p.generation = generation then
        (pendingFrame p).toList else []) ++
          (s.dequeue p rest).waitingFrames sid source generation := by
  obtain ⟨session, source', generation', event⟩ := p
  unfold waitingFrames dequeue
  rw [hp, List.filterMap_cons]
  cases event with
  | frame frame =>
      dsimp only
      split
      next hnone =>
        split at hnone
        · cases hnone
        next hnot =>
          rw [if_neg hnot]
          rfl
      next hsome =>
        split at hsome
        next hboth =>
          obtain rfl := Option.some.inj hsome
          rw [if_pos hboth]
          rfl
        · cases hsome
  | started hdr =>
      dsimp only [pendingFrame]
      split <;> rfl
  | aborted frameSeq =>
      dsimp only [pendingFrame]
      split <;> rfl

/-- The head of the queue belongs to a share that runs, if the frame is accepted. -/
theorem runsOn_of_accepts (h : s.SharesTracked) {p : PendingVideoFrame}
    (haccepts : s.acceptsPending p = true) :
    (s.shareLog (videoStreamId (s.sessions p.session).userId p.source)).runsOn =
      some (p.session, p.generation) := by
  simp only [acceptsPending, Bool.and_eq_true, decide_eq_true_eq] at haccepts
  obtain ⟨⟨halive, hallowed⟩, hgeneration⟩ := haccepts
  have hin : p.session ∈ s.sessionTable := by
    by_contra hout
    have hidle := h.inOrder.consistent.gone p.session hout halive p.source
    rw [show s.registry.allowed p.session p.source = true from hallowed] at hidle
    cases hidle
  exact (h.runsOn _ _ _).mpr ⟨hin, halive, p.source, rfl, hallowed, hgeneration⟩

theorem accepts_of_runs (h : s.SharesTracked) {p : PendingVideoFrame}
    (hon : (s.shareLog stream).runsOn = some (p.session, p.generation))
    (hsource : videoStreamSource stream = some p.source) : s.acceptsPending p = true := by
  obtain ⟨_, halive, hallowed, hgeneration⟩ := source_of_runs h hon hsource
  simp [acceptsPending, halive, hallowed, hgeneration]

/-- An entry of the queue that is not accepted belongs to no share that runs. -/
theorem dequeue (h : s.AllCarried) {p : PendingVideoFrame} {rest : List PendingVideoFrame}
    (hp : s.videoIncoming = p :: rest) (hnot : s.acceptsPending p = false) :
    (s.dequeue p rest).AllCarried := by
  refine ⟨tracked_of_runsOn h.tracked (registry_dequeue p rest) fun _ => rfl, fun stream => ?_⟩
  refine (h.carried stream).elsewhere (.inl rfl) ?_ (.inl rfl)
  intro sid source generation hon hsource
  rw [waitingFrames_dequeue hp, if_neg, List.nil_append]
  rintro ⟨rfl, rfl, rfl⟩
  have haccepts := accepts_of_runs h.tracked hon hsource
  rw [hnot] at haccepts
  cases haccepts

/-- The buffer takes the head of the queue. -/
theorem take (h : s.AllCarried) {p : PendingVideoFrame} {rest : List PendingVideoFrame}
    (hp : s.videoIncoming = p :: rest) (haccepts : s.acceptsPending p = true)
    (hstream : stream = videoStreamId (s.sessions p.session).userId p.source)
    {outcome : VideoFrameReorderBuffer ShareFrame × List (ReorderEvent ShareFrame)}
    (htook : Took stream outcome (s.dequeue p rest) s')
    (hcarries : ((s.shareLog stream).passOn outcome.2).Carries outcome.1)
    (hawaits : ((s.shareLog stream).passOn outcome.2).Awaits
      ((s.dequeue p rest).waitingFrames p.session p.source p.generation))
    (hdelivered : ∀ x ∈ deliveredFrames outcome.2, (s.shareLog stream).Fits x.1 x.2) :
    s'.AllCarried := by
  have hruns := runsOn_of_accepts h.tracked haccepts
  rw [← hstream] at hruns
  apply h.feed (registry_dequeue p rest) rfl rfl htook hcarries hdelivered
  · intro sid generation source hon hsource
    obtain ⟨rfl, rfl⟩ := Prod.mk.inj (Option.some.inj (hruns.symm.trans hon))
    have hsame := videoStreamSource_id (s.sessions p.session).userId p.source
    rw [← hstream, hsource] at hsame
    obtain rfl := Option.some.inj hsame
    exact hawaits
  · intro other hother sid source generation hon hsource
    rw [waitingFrames_dequeue hp, if_neg, List.nil_append]
    rintro ⟨rfl, rfl, rfl⟩
    -- the frame would be one of this stream
    exact hother ((source_of_runs h.tracked hon hsource).1.trans hstream.symm)

theorem processVideoFrame (h : s.AllCarried) (hfresh : s.StartsFresh .processVideoFrame) :
    s.processVideoFrame.AllCarried := by
  unfold Server.processVideoFrame
  split
  · exact h
  next p rest hp =>
    have hsame : (s.dequeue p rest).acceptsPending p = s.acceptsPending p := by
      simp [acceptsPending, Server.dequeue, modifySession, Session.videoIngressAllowed]
    dsimp only
    split
    next hnot =>
      rw [hsame] at hnot
      exact h.dequeue hp (by simpa using hnot)
    next haccepts =>
      rw [hsame] at haccepts
      have haccepts' : s.acceptsPending p = true := by simpa using haccepts
      have huser : ((s.dequeue p rest).sessions p.session).userId =
          (s.sessions p.session).userId := by
        simp [Server.dequeue, modifySession]
      rw [huser]
      generalize hstream : videoStreamId (s.sessions p.session).userId p.source = stream
      have hcarried := h.carried stream
      have hruns := runsOn_of_accepts h.tracked haccepts'
      rw [hstream] at hruns
      have hsource : videoStreamSource stream = some p.source := by
        rw [← hstream]
        exact videoStreamSource_id _ _
      have hbuffer : (s.shareLog stream).Carries
          ((s.dequeue p rest).ingressFor stream p.session p.source).reorder :=
        carries_ingressFor (s := s.dequeue p rest) hcarried.buffer _ _
      have hwaits := hcarried.queue _ _ _ hruns hsource
      rw [waitingFrames_dequeue hp, if_pos ⟨rfl, rfl, rfl⟩] at hwaits
      generalize hingress : (s.dequeue p rest).ingressFor stream p.session p.source = ingress
        at hbuffer ⊢
      -- what is no frame to the buffer
      have hquiet : (∀ frame, p.event = .frame frame → VideoFrameHeader.parse frame.bytes = none) →
          (s.shareLog stream).Awaits
            ((s.dequeue p rest).waitingFrames p.session p.source p.generation) →
          ((s.dequeue p rest).processIngressEvent stream ingress p.event).AllCarried := by
        intro hnone hawaits
        obtain ⟨outcome, htook, hsilent, hyields⟩ :=
          took_quiet (s.dequeue p rest) stream ingress p.event hnone
        have hkept := hyields _ hbuffer.held
        apply h.take hp haccepts' hstream.symm htook (hbuffer.silent hkept hsilent) ?_
          hkept.delivered
        rw [ShareLog.passOn_of_silent hsilent.delivered]
        exact hawaits
      cases hevent : pendingFrame p with
      | none =>
          rw [hevent] at hwaits
          apply hquiet ?_ hwaits
          intro frame heq
          rw [pendingFrame, heq] at hevent
          cases hevent
      | some frame =>
          have heq : p.event = .frame frame := by
            unfold pendingFrame at hevent
            split at hevent
            next frame' heq =>
              rw [heq, Option.some.inj hevent]
            · cases hevent
          rw [hevent] at hwaits
          cases hparse : VideoFrameHeader.parse frame.bytes with
          | none =>
              apply hquiet
              · intro frame' heq'
                obtain rfl := IngressEvent.frame.inj (heq.symm.trans heq')
                exact hparse
              · exact hwaits.skip (by simp [ShareLog.starts, ShareFrame.isKeyframe, hparse])
          | some hdr =>
              have hdrops := hfresh p (by simp [hp]) haccepts' frame hevent
              rw [hstream] at hdrops
              have hstraggler : frame.share ≠ (s.shareLog stream).share →
                  ingress.reorder.haveLast = true ∧ ((s.shareLog stream).share < frame.share ∨
                    videoSeqNewer hdr.frameSeq ingress.reorder.lastDelivered = false) := by
                intro hother
                have hfound := hdrops hother hdr hparse
                rw [← hingress]
                unfold ingressFor
                rw [show (s.dequeue p rest).videoIngress stream = s.videoIngress stream from rfl]
                cases hold : s.videoIngress stream with
                | none => simp [hold] at hfound
                | some old => simpa [hold, VideoFrameReorderBuffer.setRtt] using hfound
              obtain ⟨hcarries, hawaits, hdelivered⟩ := hbuffer.takes hwaits hparse hstraggler
                (s.dequeue p rest).nowUs
              rw [heq]
              exact h.take hp haccepts' hstream.symm (took_frame _ stream ingress hparse) hcarries
                hawaits hdelivered

/-! ### The start -/

/-- The record of a start: the share has what waits for it. -/
theorem record_screenShareStart (codec : BitVec 8) (width height : BitVec 16)
    {sourceRaw : BitVec 8} (hsource : videoSourceOf sourceRaw = some source)
    (haccepts : s.acceptsStart sid source = true) :
    (s.screenShareStart sid codec width height sourceRaw).registry =
        s.registry.publish sid source ∧
      (s.screenShareStart sid codec width height sourceRaw).videoIncoming = s.videoIncoming ∧
      (s.screenShareStart sid codec width height sourceRaw).shareLog =
        Function.update s.shareLog (videoStreamId (s.sessions sid).userId source)
          { share := (s.shareLog (videoStreamId (s.sessions sid).userId source)).share + 1
            runsOn := if (s.sessions sid).alive then
                some (sid, ((s.sessions sid).videoSources source).generation)
              else none
            received := s.waitingFrames sid source
              ((s.sessions sid).videoSources source).generation } := by
  have hregistry : (s.screenShareStart sid codec width height sourceRaw).registry =
      s.registry.publish sid source := by
    unfold Server.screenShareStart
    rw [hsource]
    simp only [haccepts, Bool.not_true, Bool.false_eq_true, if_false]
    exact registry_screenShareStart ..
  generalize hs' : (s.publish sid source).setSourceInfo sid source codec width height = s₁
  have hset : s₁.registry = s.registry.publish sid source := by
    rw [← hs', registry_setSourceInfo, registry_publish]
  have hmember := congrFun (congrArg Registry.members hset) sid
  have huser : (s₁.sessions sid).userId = (s.sessions sid).userId := congrArg Member.userId hmember
  have halive : (s₁.sessions sid).alive = (s.sessions sid).alive := congrArg Member.alive hmember
  have hgeneration : ((s₁.sessions sid).videoSources source).generation =
      ((s.sessions sid).videoSources source).generation :=
    congrFun (congrFun (congrArg Registry.generation hset) sid) source
  have hlog : s₁.shareLog = s.shareLog := by
    rw [← hs']
    rfl
  have hqueue : s₁.videoIncoming = s.videoIncoming := by
    rw [← hs']
    rfl
  have hrecord : (s.screenShareStart sid codec width height sourceRaw).shareRecord =
      (s₁.logStart sid source).shareRecord := by
    unfold Server.screenShareStart
    rw [hsource]
    simp only [haccepts, Bool.not_true, Bool.false_eq_true, if_false]
    rw [shareRecord_foldl fun s viewer => ?_, hs']
    split
    · simp
    · rfl
  obtain ⟨hlog', hqueue'⟩ := Prod.mk.inj hrecord
  refine ⟨hregistry, hqueue'.trans hqueue, ?_⟩
  rw [hlog']
  unfold logStart modifyShareLog
  dsimp only
  rw [huser, halive, hgeneration, hlog]
  simp only [waitingFrames, hqueue]

/-- A share starts with an empty buffer, and the frames that wait are its own. -/
theorem started (h : s.AllCarried) (hin : sid ∈ s.sessionTable)
    (haccepts : s.acceptsStart sid source = true)
    (hregistry : s'.registry = s.registry.publish sid source)
    (hqueue : s'.videoIncoming = s.videoIncoming)
    (hlog : s'.shareLog = Function.update s.shareLog (videoStreamId (s.sessions sid).userId source)
      { share := (s.shareLog (videoStreamId (s.sessions sid).userId source)).share + 1
        runsOn := if (s.sessions sid).alive then
            some (sid, ((s.sessions sid).videoSources source).generation)
          else none
        received := s.waitingFrames sid source ((s.sessions sid).videoSources source).generation })
    (hingress : ∀ stream, s'.videoIngress stream = s.videoIngress stream ∨
      s'.videoIngress stream = none)
    (hempty : s.EmptyIngress (videoStreamId (s.sessions sid).userId source)) : s'.AllCarried := by
  simp only [acceptsStart, Bool.and_eq_true, decide_eq_true_eq] at haccepts
  obtain ⟨⟨hauth, hchannel⟩, _⟩ := haccepts
  have hc := h.tracked.inOrder.consistent
  have hmark := h.tracked.inOrder.marked sid hin hauth
  have hpack : (s.sessions sid).userId.Packable := hc.packable hin hmark
  generalize hstream : videoStreamId (s.sessions sid).userId source = stream at *
  have hwaiting : ∀ sid source generation,
      s'.waitingFrames sid source generation = s.waitingFrames sid source generation := by
    intro sid source generation
    simp only [waitingFrames, hqueue]
  constructor
  · constructor
    · rw [hregistry]
      exact (h.tracked.inOrder.publish hin hauth hchannel source).inOrder
    · intro other sid' generation
      rw [hregistry, Registry.runs_publish hin, hlog]
      by_cases hother : other = stream
      · subst hother
        rw [Function.update_self]
        dsimp only
        constructor
        · intro hon
          split at hon
          next halive =>
            obtain ⟨rfl, rfl⟩ := Prod.mk.inj (Option.some.inj hon)
            exact .inr ⟨halive, rfl, hstream.symm, rfl⟩
          · cases hon
        · rintro (hruns | ⟨halive, rfl, _, rfl⟩)
          · -- it ran before, on the same session
            have hruns' := hruns
            rw [← hstream] at hruns'
            obtain ⟨huser, _, hgeneration⟩ := hruns'.user_source hc hpack
            have hsession := (hruns.published hc).2.1
            rw [huser] at hsession
            obtain rfl := Option.some.inj ((hc.sessionForUser hin hmark).symm.trans hsession)
            have halive : (s.sessions sid).alive = true := hruns.2.1
            rw [if_pos halive, hgeneration]
            rfl
          · exact if_pos halive
      · rw [Function.update_of_ne hother, h.tracked.runsOn, iff_self_or]
        rintro ⟨_, _, heq, _⟩
        exact absurd (heq.trans hstream) hother
  · intro other
    by_cases hother : other = stream
    · subst hother
      have hnew := congrFun hlog other
      rw [Function.update_self] at hnew
      refine ⟨fun frame hin => ?_, fun ingress hin => ?_, fun sid' generation source' hon hsource => ?_⟩
      · rw [hnew] at hin
        cases hin
      · rcases hingress other with hsame | hnone
        · obtain ⟨hhave, hheld⟩ := hempty ingress (hsame.symm.trans hin)
          exact ShareLog.carries_of_empty hhave hheld
        · rw [hnone] at hin
          cases hin
      · rw [hnew] at hon ⊢
        dsimp only at hon
        split at hon
        · obtain ⟨rfl, rfl⟩ := Prod.mk.inj (Option.some.inj hon)
          have hsame := videoStreamSource_id (s.sessions sid).userId source
          rw [hstream, hsource] at hsame
          obtain rfl := Option.some.inj hsame
          rw [hwaiting]
          exact ⟨fun _ => id, fun _ => .inr⟩
        · cases hon
    · refine (h.carried other).elsewhere (.inl ?_) (fun sid source generation _ _ => hwaiting ..)
        (hingress other)
      rw [hlog, Function.update_of_ne hother]

theorem screenShareStart (h : s.AllCarried) (hin : sid ∈ s.sessionTable) {codec : BitVec 8}
    {width height : BitVec 16} {sourceRaw : BitVec 8}
    (hfresh : ∀ source ∈ videoSourceOf sourceRaw, s.acceptsStart sid source = true →
      s.EmptyIngress (videoStreamId (s.sessions sid).userId source)) :
    (s.screenShareStart sid codec width height sourceRaw).AllCarried := by
  have hunchanged : s.screenShareStart sid codec width height sourceRaw = s →
      (s.screenShareStart sid codec width height sourceRaw).AllCarried := by
    intro hsame
    rw [hsame]
    exact h
  cases hsource : videoSourceOf sourceRaw with
  | none => exact hunchanged (by simp [Server.screenShareStart, hsource])
  | some source =>
      by_cases haccepts : s.acceptsStart sid source = true
      · obtain ⟨hregistry, hqueue, hlog⟩ :=
          record_screenShareStart codec width height hsource haccepts
        have hempty := hfresh source hsource haccepts
        have hingress : ∀ stream,
            (s.screenShareStart sid codec width height sourceRaw).videoIngress stream =
              s.videoIngress stream ∨
            (s.screenShareStart sid codec width height sourceRaw).videoIngress stream = none :=
          ((SameRecords.refl s).screenShareStart sid codec width height sourceRaw).ingress
        generalize s.screenShareStart sid codec width height sourceRaw = s' at *
        exact h.started hin haccepts hregistry hqueue hlog hingress hempty
      · exact hunchanged (by simp [Server.screenShareStart, hsource, haccepts])

/-! ### Runs -/

theorem handleMessage (h : s.AllCarried) (sid : SessionId) (message : ControlMessage)
    (hfresh : s.StartsFresh (.message sid message)) : (s.handleMessage sid message).AllCarried := by
  have hingress := ((SameRecords.refl s).handleMessage sid message).ingress
  have hinOrder : (s.handleMessage sid message).registry.InOrder :=
    inOrder_step h.tracked.inOrder (.message sid message)
  unfold Server.handleMessage getSession at hingress hinOrder ⊢
  by_cases hin : sid ∈ s.sessionTable
  · rw [if_pos hin] at hingress hinOrder ⊢
    dsimp only at hingress hinOrder ⊢
    have ht := h.tracked
    cases message with
    | authIdentity auth nowS dbOk =>
        exact h.endsShares (ht.authIdentity hin auth nowS dbOk hinOrder) hingress
    | channelJoin channel voiceState =>
        exact h.endsShares (ht.channelJoin hin channel voiceState hinOrder) hingress
    | channelLeave => exact h.endsShares (ht.channelLeave hin) hingress
    | adminCreateChannel name maxUsers dbOk =>
        exact h.endsShares (ht.adminCreateChannel sid name maxUsers dbOk hinOrder) hingress
    | adminDeleteChannel channel dbOk =>
        exact h.endsShares (ht.adminDeleteChannel sid channel dbOk hinOrder) hingress
    | adminSetRole target newRole dbOk =>
        exact h.endsShares (ht.adminSetRole hin target newRole dbOk hinOrder) hingress
    | adminKickUser target => exact h.endsShares (ht.adminKickUser sid target) hingress
    | screenShareStart codec width height source => exact h.screenShareStart hin (hfresh hin)
    | screenShareUpdate codec width height source =>
        exact h.endsShares (ht.screenShareUpdate sid codec width height source) hingress
    | screenShareStop source => exact h.endsShares (ht.screenShareStop hin source) hingress
    | screenShareView target action =>
        exact h.endsShares (ht.screenShareView sid target action hinOrder) hingress
  · rw [if_neg hin]
    exact h

theorem step (h : s.AllCarried) (op : ServerOp) (hfresh : s.StartsFresh op) :
    (s.step op).AllCarried := by
  have hends : op.isVideo = false → s.EndsShares (s.step op) → (s.step op).AllCarried :=
    fun hop hends => h.endsShares hends (sameRecords_step s hop).ingress
  have ht := h.tracked
  cases op with
  | connect => exact hends rfl ht.connect
  | shutdownComplete sid => exact hends rfl (ht.onShutdownComplete sid)
  | videoFrame sid source frame => exact h.enqueueVideoFrame hfresh
  | videoFrameStarted sid source hdr =>
      exact h.enqueueVideoEvent sid source fun frame heq => by cases heq
  | videoFrameAborted sid source frameSeq =>
      exact h.enqueueVideoEvent sid source fun frame heq => by cases heq
  | videoOutShutdown sid handle =>
      exact hends rfl (ht.elsewhere (registry_videoOutShutdown sid handle) rfl)
  | message sid message => exact h.handleMessage sid message hfresh
  | videoControl sid target bucketAllows =>
      exact hends rfl (ht.handleVideoControl sid target bucketAllows)
  | processVideoFrame => exact h.processVideoFrame hfresh
  | beginPass => exact hends rfl (ht.elsewhere rfl rfl)
  | pollIngress stream => exact h.pollIngress stream
  | sendDeferred stream => exact hends rfl (ht.sendDeferredKeyframeRequest stream)
  | processDisconnect => exact hends rfl (ht.processDisconnects hfresh)

end AllCarried

theorem allCarried_new (config : Config) (env : Environment) : (new config env).AllCarried where
  tracked :=
    { inOrder := inOrder_new config env
      runsOn := fun stream sid generation => by
        constructor
        · intro hon
          cases hon
        · rintro ⟨hin, _⟩
          cases hin }
  carried := fun stream =>
    { passedOn := fun frame hin => by cases hin
      buffer := fun ingress hin => by cases hin
      queue := fun sid generation source hon _ => by cases hon }

/-- In every run in which shares start on empty buffers, and nothing late gets into them,
every share starts cleanly. -/
theorem startsCleanly_run (config : Config) (env : Environment) (ops : List ServerOp)
    (hops : Machine.AllSteps step StartsFresh (new config env) ops) (stream : StreamId) :
    (run config env ops).StartsCleanly stream := by
  have hstep : ∀ (s : Server) op, s.AllCarried → s.StartsFresh op → (s.step op).AllCarried :=
    fun s op h hfresh => h.step op hfresh
  have hall := Machine.run_invariant hstep (allCarried_new config env) hops
  exact (hall.carried stream).startsCleanly

/-- The root stops and starts again; the frames count from zero. -/
theorem startsCleanly_run_stopped : (run .small (.ticking 1) (rootShares ++ [
    .videoFrame 1 .screen ⟨1, keyframeBytes 9⟩, .processVideoFrame,
    .message 1 (.screenShareStop 0), .message 1 (.screenShareStart 0 0 0 0),
    .videoFrame 1 .screen ⟨2, keyframeBytes 0⟩, .processVideoFrame])).StartsCleanly 1 :=
  startsCleanly_run .small (.ticking 1) _ (by decide +kernel) 1

/-- The stop is lost: the first keyframe of the second share is dropped as old. -/
theorem not_startsCleanly_run :
    ¬ ∀ config env ops stream, (run config env ops).StartsCleanly stream := by
  intro hclaim
  have hclean := hclaim .small (.ticking 1) (rootShares ++ [
    .videoFrame 1 .screen ⟨1, keyframeBytes 9⟩, .processVideoFrame,
    .message 1 (.screenShareStart 0 0 0 0),
    .videoFrame 1 .screen ⟨2, keyframeBytes 0⟩, .processVideoFrame]) 1
  have hlost := hclean.firstKeyframe 1 0 .screen (by decide +kernel) (by decide +kernel)
    ⟨2, keyframeBytes 0⟩ (by decide +kernel)
  rcases hlost with hpassed | hwaits
  · exact absurd hpassed (by decide +kernel)
  · exact absurd hwaits (by decide +kernel)

end Server

end Parties

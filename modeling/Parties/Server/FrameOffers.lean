import Parties.Server.RegistryRuns
import Parties.Server.ViewerRecords

/-!
# Frames and their viewers

A frame of a stream is offered to the sessions that watch it in the channel of its
publisher. Toward each of them it is handed to the transport or missed; frames that
are still queued may be aborted along the way.
-/

namespace Parties

open Parties.Video

/-! ### One viewer -/

namespace Session

/-- The event aborts frames that are queued toward the viewer; those before a frame are
older than it. -/
def Aborts (viewer : Session) (event : ViewerEvent) : Prop :=
  ∃ before streams, event = .aborted before streams ∧ streams ⊆ viewer.videoOutStreams ∧
    ∀ seq, before = some seq → ∀ out ∈ streams, videoSeqNewer seq out.frameSeq = true

/-- What becomes of a frame at a viewer it is offered to. -/
inductive Outcome (stream : StreamId) (hdr : VideoFrameHeader) (viewer viewer' : Session) : Prop
  | handed (events : List ViewerEvent) (haborts : ∀ e ∈ events, viewer.Aborts e)
      (hlog : viewer'.viewerLog stream =
        viewer.viewerLog stream ++ (events ++ [.handed hdr viewer.framesHanded]))
      (hnext : (viewer.gate stream).awaitingKeyframe = true → hdr.keyframe = true)
      (hgate : (viewer'.gate stream).awaitingKeyframe = false)
      (hhanded : viewer'.framesHanded = viewer.framesHanded + 1)
      (hsending : ∀ out ∈ viewer'.videoOutStreams,
        out ∈ viewer.videoOutStreams ∨ out.handle = viewer.framesHanded)
  | missed (events : List ViewerEvent) (hmissed : .missed ∈ events)
      (haborts : ∀ e ∈ events, e = .missed ∨ viewer.Aborts e)
      (hlog : viewer'.viewerLog stream = viewer.viewerLog stream ++ events)
      (hgate : (viewer'.gate stream).awaitingKeyframe = true)
      (hhanded : viewer'.framesHanded = viewer.framesHanded)
      (hsending : viewer'.videoOutStreams = viewer.videoOutStreams)

/-- The other streams and the subscriptions stay. -/
structure SameElsewhere (stream : StreamId) (viewer viewer' : Session) : Prop where
  log : ∀ other, other ≠ stream → viewer'.viewerLog other = viewer.viewerLog other
  gate : ∀ other, other ≠ stream → viewer'.gate other = viewer.gate other
  subscribed : viewer'.subscribedSharers = viewer.subscribedSharers

variable {viewer viewer' viewer'' : Session} {stream : StreamId} {hdr : VideoFrameHeader}

theorem SameElsewhere.trans (h : SameElsewhere stream viewer viewer')
    (h' : SameElsewhere stream viewer' viewer'') : SameElsewhere stream viewer viewer'' where
  log other hne := (h'.log other hne).trans (h.log other hne)
  gate other hne := (h'.gate other hne).trans (h.gate other hne)
  subscribed := h'.subscribed.trans h.subscribed

theorem sameElsewhere_logViewer (viewer : Session) (stream : StreamId)
    (events : List ViewerEvent) : SameElsewhere stream viewer (viewer.logViewer stream events) where
  log _ hne := Function.update_of_ne hne ..
  gate _ _ := rfl
  subscribed := rfl

theorem sameElsewhere_setGate (viewer : Session) (stream : StreamId) (gate : ViewerVideoGate) :
    SameElsewhere stream viewer (viewer.setGate stream gate) where
  log _ _ := rfl
  gate _ hne := gate_setGate_of_ne viewer hne gate
  subscribed := rfl

theorem sameElsewhere_handVideoFrame (viewer : Session) (stream : StreamId)
    (hdr : VideoFrameHeader) : SameElsewhere stream viewer (viewer.handVideoFrame stream hdr) where
  log _ hne := Function.update_of_ne hne ..
  gate _ _ := rfl
  subscribed := rfl

theorem aborts_abortVideoFrames (viewer : Session) (stream : StreamId)
    (beforeSeq : Option (BitVec 32)) :
    viewer.Aborts (.aborted beforeSeq (viewer.videoOutStreams.filter fun out =>
      out.stream = stream && beforeSeq.all fun seq => videoSeqNewer seq out.frameSeq)) := by
  refine ⟨beforeSeq, _, rfl, List.filter_subset_self _, ?_⟩
  intro seq hseq out hout
  subst hseq
  have hkept := (List.mem_filter.mp hout).2
  simp only [Bool.and_eq_true, Option.all_some] at hkept
  exact hkept.2

@[simp] theorem viewerLog_logViewer_self (viewer : Session) (stream : StreamId)
    (events : List ViewerEvent) :
    (viewer.logViewer stream events).viewerLog stream = viewer.viewerLog stream ++ events :=
  Function.update_self ..

/-- A frame the gate drops is missed. -/
theorem outcome_dropFrame (hgate : (viewer.gate stream).awaitingKeyframe = true)
    (wasAwaiting : Bool) :
    Outcome stream hdr viewer (viewer.dropFrame stream wasAwaiting) ∧
      SameElsewhere stream viewer (viewer.dropFrame stream wasAwaiting) := by
  have hlogged := sameElsewhere_logViewer viewer stream [.missed]
  unfold dropFrame
  split
  · refine ⟨.missed [.missed, .aborted none (viewer.videoOutStreams.filter fun out =>
      out.stream = stream && (none : Option (BitVec 32)).all fun seq =>
        videoSeqNewer seq out.frameSeq)] ?_ ?_ ?_ hgate rfl rfl,
      hlogged.trans (sameElsewhere_logViewer _ _ _)⟩
    · exact List.mem_cons_self
    · intro e he
      rcases List.mem_cons.mp he with rfl | he
      · exact .inl rfl
      · obtain rfl := List.mem_singleton.mp he
        exact .inr (viewer.aborts_abortVideoFrames stream none)
    · simp only [abortVideoFrames, viewerLog_logViewer_self, List.append_assoc]
      rfl
  · refine ⟨.missed [.missed] List.mem_cons_self (fun e he => ?_) ?_ hgate rfl rfl, hlogged⟩
    · exact .inl (List.mem_singleton.mp he)
    · exact viewerLog_logViewer_self _ _ _

/-- The abort of the frames before a keyframe. -/
def abortedBefore (viewer : Session) (stream : StreamId) (hdr : VideoFrameHeader) :
    List ViewerEvent :=
  if hdr.keyframe then
    [.aborted (some hdr.frameSeq) (viewer.videoOutStreams.filter fun out =>
      out.stream = stream && (some hdr.frameSeq).all fun seq => videoSeqNewer seq out.frameSeq)]
  else []

theorem aborts_abortedBefore {e : ViewerEvent} (he : e ∈ viewer.abortedBefore stream hdr) :
    viewer.Aborts e := by
  unfold abortedBefore at he
  split at he
  · obtain rfl := List.mem_singleton.mp he
    exact viewer.aborts_abortVideoFrames stream _
  · cases he

theorem abort_eq (viewer : Session) (stream : StreamId) (hdr : VideoFrameHeader) :
    (if hdr.keyframe then viewer.abortVideoFrames stream (some hdr.frameSeq) else viewer) =
      viewer.logViewer stream (viewer.abortedBefore stream hdr) := by
  unfold abortedBefore
  split
  · rfl
  · simp [logViewer]

/-- A frame the gate lets through is handed on, or its send fails. -/
theorem outcome_sendFrame (hgate : (viewer.gate stream).awaitingKeyframe = false) (sent : Bool) :
    Outcome stream hdr viewer (viewer.sendFrame stream hdr sent) ∧
      SameElsewhere stream viewer (viewer.sendFrame stream hdr sent) := by
  have hlogged := sameElsewhere_logViewer viewer stream (viewer.abortedBefore stream hdr)
  unfold sendFrame
  dsimp only
  rw [abort_eq]
  cases sent with
  | true =>
      refine ⟨.handed (viewer.abortedBefore stream hdr) ?_ ?_ ?_ hgate rfl ?_,
        hlogged.trans (sameElsewhere_handVideoFrame _ _ _)⟩
      · intro e he
        exact aborts_abortedBefore he
      · rw [← List.append_assoc, ← viewerLog_logViewer_self]
        exact viewerLog_logViewer_self _ _ _
      · intro hwaits
        rw [hgate] at hwaits
        cases hwaits
      · intro out hout
        simp only [if_true, handVideoFrame] at hout
        split at hout
        · rcases List.mem_append.mp hout with hold | hnew
          · exact .inl hold
          · obtain rfl := List.mem_singleton.mp hnew
            exact .inr rfl
        · exact .inl hout
  | false =>
      refine ⟨.missed (viewer.abortedBefore stream hdr ++ [.missed]) ?_ ?_ ?_ ?_ rfl rfl,
        (hlogged.trans (sameElsewhere_setGate _ _ _)).trans (sameElsewhere_logViewer _ _ _)⟩
      · exact List.mem_append_right _ List.mem_cons_self
      · intro e he
        rcases List.mem_append.mp he with he | he
        · exact .inr (aborts_abortedBefore he)
        · exact .inl (List.mem_singleton.mp he)
      · rw [← List.append_assoc, ← viewerLog_logViewer_self]
        exact viewerLog_logViewer_self _ _ _
      · exact congrArg ViewerVideoGate.awaitingKeyframe (gate_setGate_self _ _ _)

/-- What the gate decides, it remembers. -/
theorem askGate_gate (viewer : Session) (stream : StreamId) (hdr : VideoFrameHeader) (nowUs : Int)
    (outstanding threshold : Int) :
    (viewer.askGate stream hdr nowUs outstanding threshold).1.gate.awaitingKeyframe =
        !(viewer.askGate stream hdr nowUs outstanding threshold).1.forward ∧
      ((viewer.askGate stream hdr nowUs outstanding threshold).1.forward = true →
        (viewer.gate stream).awaitingKeyframe = true → hdr.keyframe = true) := by
  have hdecided := (viewer.gate stream).admit_awaiting outstanding threshold hdr.keyframe
  unfold askGate
  dsimp only
  split
  · rw [ViewerVideoGate.allowKeyframeRequest_awaiting]
    exact ⟨hdecided, ViewerVideoGate.admit_keyframe⟩
  · exact ⟨hdecided, ViewerVideoGate.admit_keyframe⟩

/-- The outcome does not depend on how the gate got to its decision. -/
theorem Outcome.of_setGate {gate : ViewerVideoGate}
    (h : Outcome stream hdr (viewer.setGate stream gate) viewer')
    (hnext : gate.awaitingKeyframe = false → (viewer.gate stream).awaitingKeyframe = true →
      hdr.keyframe = true) : Outcome stream hdr viewer viewer' := by
  cases h with
  | handed events haborts hlog hnext' hgate hhanded hsending =>
      refine .handed events haborts hlog ?_ hgate hhanded hsending
      intro hwaits
      cases hopen : gate.awaitingKeyframe with
      | false => exact hnext hopen hwaits
      | true =>
          apply hnext'
          rw [gate_setGate_self]
          exact hopen
  | missed events hmissed haborts hlog hgate hhanded hsending =>
      exact .missed events hmissed haborts hlog hgate hhanded hsending

/-- A frame is handed to a viewer or missed there, and nothing else changes. -/
theorem outcome_offer (viewer : Session) (stream : StreamId) (hdr : VideoFrameHeader)
    (nowUs outstanding threshold : Int) (sent : Bool) :
    Outcome stream hdr viewer (viewer.offer stream hdr nowUs outstanding threshold sent).1 ∧
      SameElsewhere stream viewer
        (viewer.offer stream hdr nowUs outstanding threshold sent).1 := by
  obtain ⟨hgate, hnext⟩ := viewer.askGate_gate stream hdr nowUs outstanding threshold
  generalize hdecision : viewer.askGate stream hdr nowUs outstanding threshold = decision at *
  have hset := sameElsewhere_setGate viewer stream decision.1.gate
  unfold offer
  dsimp only
  rw [hdecision]
  cases hforward : decision.1.forward with
  | true =>
      rw [hforward] at hgate hnext
      have hopen : ((viewer.setGate stream decision.1.gate).gate stream).awaitingKeyframe =
          false := by
        rw [gate_setGate_self]
        exact hgate
      obtain ⟨houtcome, helsewhere⟩ := outcome_sendFrame hopen sent
      exact ⟨houtcome.of_setGate fun _ => hnext rfl, hset.trans helsewhere⟩
  | false =>
      rw [hforward] at hgate
      have hwaits : ((viewer.setGate stream decision.1.gate).gate stream).awaitingKeyframe =
          true := by
        rw [gate_setGate_self]
        exact hgate
      obtain ⟨houtcome, helsewhere⟩ :=
        outcome_dropFrame hwaits (viewer.gate stream).awaitingKeyframe
      refine ⟨houtcome.of_setGate fun hopen => ?_, hset.trans helsewhere⟩
      rw [hgate] at hopen
      cases hopen

end Session

/-! ### All viewers -/

namespace Server

variable {s s' s'' : Server}

/-- The session may send frames of the stream to the channel it is in. -/
structure Publishes (s : Server) (sid : SessionId) (stream : StreamId) : Prop where
  inTable : sid ∈ s.sessionTable
  authenticated : (s.sessions sid).authenticated = true
  channel : (s.sessions sid).channelId ≠ 0
  source : ∃ source, stream = videoStreamId (s.sessions sid).userId source
  listed : stream ∈ s.channelVideoStreams (s.sessions sid).channelId

/-- The session takes the frames of a stream from its publisher. -/
def Takes (s : Server) (sid : SessionId) (stream : StreamId) (publisher : SessionId) : Prop :=
  s.Publishes publisher stream ∧
    s.isViewer publisher (s.sessions publisher).channelId stream sid = true

/-- A frame is offered to the sessions that take the stream, and to no others. -/
theorem sessions_forwardVideoFrame (s : Server) (sid : SessionId) (source : VideoSource)
    (frame : ShareFrame) (viewer : SessionId) :
    (∃ hdr, VideoFrameHeader.parse frame.bytes = some hdr ∧
      s.Takes viewer (videoStreamId (s.sessions sid).userId source) sid ∧
      Session.Outcome (videoStreamId (s.sessions sid).userId source) hdr (s.sessions viewer)
        ((s.forwardVideoFrame sid source frame).sessions viewer) ∧
      Session.SameElsewhere (videoStreamId (s.sessions sid).userId source) (s.sessions viewer)
        ((s.forwardVideoFrame sid source frame).sessions viewer)) ∨
    ((s.forwardVideoFrame sid source frame).sessions viewer = s.sessions viewer ∧
      (VideoFrameHeader.parse frame.bytes ≠ none →
        ¬ s.Takes viewer (videoStreamId (s.sessions sid).userId source) sid)) := by
  unfold forwardVideoFrame
  by_cases hin : sid ∈ s.sessionTable
  · rw [getSession, if_pos hin]
    dsimp only
    split
    next hidle =>
      refine .inr ⟨rfl, fun _ htakes => ?_⟩
      have hpublishes := htakes.1
      simp only [hpublishes.authenticated, Bool.not_true, Bool.false_or, decide_eq_true_eq] at hidle
      exact hpublishes.channel hidle
    next hactive =>
      split
      next hunlisted =>
        exact .inr ⟨rfl, fun _ htakes => hunlisted htakes.1.listed⟩
      next hlisted =>
        cases hparse : VideoFrameHeader.parse frame.bytes with
        | none => exact .inr ⟨rfl, fun hsome => absurd rfl hsome⟩
        | some hdr =>
            dsimp only
            have hsessions : ∀ (t : Server) (wants : Bool) (stream : StreamId),
                (if wants then t.requestKeyframeFromSharer stream 0 else t).sessions =
                  t.sessions := by
              intro t wants stream
              split <;> rfl
            rw [hsessions]
            simp only [Bool.or_eq_true, Bool.not_eq_true', decide_eq_true_eq, not_or,
              Bool.not_eq_false] at hactive
            by_cases hviewer : s.isViewer sid (s.sessions sid).channelId
                (videoStreamId (s.sessions sid).userId source) viewer = true
            · have hoffered : ((((s.offerAll sid (s.sessions sid).channelId
                  (videoStreamId (s.sessions sid).userId source) hdr).readClock).keyframeCall
                    (.frameForwarded (videoStreamId (s.sessions sid).userId source) hdr.keyframe
                      s.nowUs)).sessions viewer) =
                  (s.offerTo (videoStreamId (s.sessions sid).userId source) hdr viewer).1 :=
                if_pos hviewer
              rw [hoffered]
              obtain ⟨houtcome, helsewhere⟩ := (s.sessions viewer).outcome_offer
                (videoStreamId (s.sessions sid).userId source) hdr s.nowUs
                (s.env.videoOutstandingBytes s.reads viewer)
                (s.env.viewerBacklogThreshold s.reads viewer) (s.env.videoFrameSent s.reads viewer)
              refine .inl ⟨hdr, rfl, ⟨⟨hin, hactive.1, hactive.2, ⟨source, rfl⟩, ?_⟩, hviewer⟩,
                houtcome, helsewhere⟩
              exact not_not.mp hlisted
            · refine .inr ⟨if_neg hviewer, fun _ htakes => hviewer htakes.2⟩
  · rw [getSession, if_neg hin]
    exact .inr ⟨rfl, fun _ htakes => hin htakes.1.inTable⟩

/-- Who takes a stream from whom is settled by the registry. -/
theorem Takes.congr {viewer publisher : SessionId} {stream : StreamId}
    (h : s.Takes viewer stream publisher) (hregistry : s'.registry = s.registry) :
    s'.Takes viewer stream publisher := by
  have htable : s'.sessionTable = s.sessionTable := congrArg Registry.table hregistry
  have hlisted : s'.channelVideoStreams = s.channelVideoStreams :=
    congrArg Registry.listed hregistry
  have hmember : ∀ sid, (s'.sessions sid).member = (s.sessions sid).member :=
    congrFun (congrArg Registry.members hregistry)
  have hauth : ∀ sid, (s'.sessions sid).authenticated = (s.sessions sid).authenticated :=
    fun sid => congrArg Member.authenticated (hmember sid)
  have huser : ∀ sid, (s'.sessions sid).userId = (s.sessions sid).userId :=
    fun sid => congrArg Member.userId (hmember sid)
  have hchannel : ∀ sid, (s'.sessions sid).channelId = (s.sessions sid).channelId :=
    fun sid => congrArg Member.channelId (hmember sid)
  have hwatched : ∀ sid, (s'.sessions sid).subscribedSharers =
      (s.sessions sid).subscribedSharers := congrFun (congrArg Registry.watched hregistry)
  obtain ⟨hpublishes, hviewer⟩ := h
  constructor
  · constructor
    · rw [htable]
      exact hpublishes.inTable
    · rw [hauth]
      exact hpublishes.authenticated
    · rw [hchannel]
      exact hpublishes.channel
    · rw [huser]
      exact hpublishes.source
    · rw [hlisted, hchannel]
      exact hpublishes.listed
  · unfold isViewer at hviewer ⊢
    rw [htable, hauth, hchannel, hchannel, hwatched]
    exact hviewer

/-! ### The path of the frames -/

/-- The records go on, and frames are handed only to those who take their stream. -/
def Prolongs (s s' : Server) : Prop :=
  s'.registry = s.registry ∧ ∀ viewer stream, ∃ events,
    (s'.sessions viewer).viewerLog stream = (s.sessions viewer).viewerLog stream ++ events ∧
      ∀ hdr handle, .handed hdr handle ∈ events → ∃ publisher, s.Takes viewer stream publisher

namespace Prolongs

theorem of_sessions (hregistry : s'.registry = s.registry) (h : s'.sessions = s.sessions) :
    s.Prolongs s' := by
  refine ⟨hregistry, fun viewer stream => ⟨[], ?_, fun hdr handle hin => by cases hin⟩⟩
  rw [h, List.append_nil]

theorem refl (s : Server) : s.Prolongs s := of_sessions rfl rfl

theorem trans (h : s.Prolongs s') (h' : s'.Prolongs s'') : s.Prolongs s'' := by
  refine ⟨h'.1.trans h.1, fun viewer stream => ?_⟩
  obtain ⟨events, hlog, hhanded⟩ := h.2 viewer stream
  obtain ⟨events', hlog', hhanded'⟩ := h'.2 viewer stream
  refine ⟨events ++ events', ?_, ?_⟩
  · rw [hlog', hlog, List.append_assoc]
  · intro hdr handle hin
    rcases List.mem_append.mp hin with hin | hin
    · exact hhanded hdr handle hin
    · obtain ⟨publisher, htakes⟩ := hhanded' hdr handle hin
      exact ⟨publisher, htakes.congr h.1.symm⟩

theorem elsewhere (h : s.Prolongs s') (hregistry : s''.registry = s'.registry)
    (hsessions : s''.sessions = s'.sessions) : s.Prolongs s'' :=
  h.trans (.of_sessions hregistry hsessions)

theorem forwardVideoFrame (h : s.Prolongs s') (sid : SessionId) (source : VideoSource)
    (frame : ShareFrame) : s.Prolongs (s'.forwardVideoFrame sid source frame) := by
  refine h.trans ⟨registry_forwardVideoFrame .., fun viewer stream => ?_⟩
  rcases s'.sessions_forwardVideoFrame sid source frame viewer with
    ⟨hdr, _, htakes, houtcome, helsewhere⟩ | ⟨hsame, _⟩
  · by_cases hstream : stream = videoStreamId (s'.sessions sid).userId source
    · subst hstream
      cases houtcome with
      | handed events haborts hlog hnext hgate hhanded hsending =>
          exact ⟨_, hlog, fun _ _ _ => ⟨sid, htakes⟩⟩
      | missed events hmissed haborts hlog hgate hhanded hsending =>
          exact ⟨_, hlog, fun _ _ _ => ⟨sid, htakes⟩⟩
    · refine ⟨[], ?_, fun hdr handle hin => by cases hin⟩
      rw [helsewhere.log stream hstream, List.append_nil]
  · refine ⟨[], ?_, fun hdr handle hin => by cases hin⟩
    rw [hsame, List.append_nil]

theorem requestKeyframeFromSharer (h : s.Prolongs s') (stream : StreamId) (requester : UserId) :
    s.Prolongs (s'.requestKeyframeFromSharer stream requester) :=
  h.elsewhere rfl rfl

theorem onIngressEvents (h : s.Prolongs s') (stream : StreamId) (sid : SessionId)
    (source : VideoSource) (events : List (ReorderEvent ShareFrame)) :
    s.Prolongs (onIngressEvents stream sid source s' events) := by
  induction events generalizing s' with
  | nil => exact h
  | cons e events ih =>
      cases e with
      | deliver hdr frame =>
          have hlogged : s.Prolongs (s'.modifyShareLog stream fun log =>
              { log with passedOn := log.passedOn ++ [frame] }) := h.elsewhere rfl rfl
          exact ih (hlogged.forwardVideoFrame _ _ _)
      | lost seq => exact ih (h.requestKeyframeFromSharer _ _)

theorem putIngress (h : s.Prolongs s') (stream : StreamId) (ingress : VideoIngress)
    (outcome : VideoFrameReorderBuffer ShareFrame × List (ReorderEvent ShareFrame)) :
    s.Prolongs (s'.putIngress stream ingress outcome) := by
  have hput : s.Prolongs { s' with
      videoIngress := Function.update s'.videoIngress stream
        (some { ingress with reorder := outcome.1 }) } := h.elsewhere rfl rfl
  exact hput.onIngressEvents _ _ _ _

theorem processIngressEvent (h : s.Prolongs s') (stream : StreamId) (ingress : VideoIngress)
    (event : IngressEvent) : s.Prolongs (s'.processIngressEvent stream ingress event) := by
  have hread : s.Prolongs s'.readClock := h.elsewhere rfl rfl
  unfold Server.processIngressEvent
  split
  · exact hread.putIngress _ _ _
  · exact hread.putIngress _ _ _
  · dsimp only
    split
    · exact hread.putIngress _ _ _
    · exact (hread.putIngress _ _ _).requestKeyframeFromSharer _ _
  · split
    · exact h.putIngress _ _ _
    · exact hread.putIngress _ _ _

theorem dequeue (h : s.Prolongs s') (p : PendingVideoFrame) (rest : List PendingVideoFrame) :
    s.Prolongs (s'.dequeue p rest) := by
  refine h.trans ⟨registry_dequeue .., fun viewer stream => ⟨[], ?_, fun hdr handle hin => ?_⟩⟩
  · rw [List.append_nil]
    by_cases hviewer : viewer = p.session
    · subst hviewer
      simp [Server.dequeue, modifySession]
    · simp [Server.dequeue, modifySession, hviewer]
  · cases hin

/-- A step of the main loop that takes frames on. -/
theorem step (s : Server) {op : ServerOp} (hop : op.isVideo = true) : s.Prolongs (s.step op) := by
  cases op with
  | processVideoFrame =>
      show s.Prolongs s.processVideoFrame
      unfold processVideoFrame
      split
      · exact .refl s
      next p rest _ =>
        have hdequeued : s.Prolongs (s.dequeue p rest) := (refl s).dequeue p rest
        dsimp only
        split
        · exact hdequeued
        · exact hdequeued.processIngressEvent _ _ _
  | pollIngress stream =>
      show s.Prolongs (s.pollIngress stream)
      unfold pollIngress
      split
      · split
        · exact (refl s).elsewhere rfl rfl
        · dsimp only
          split
          · exact ((refl s).putIngress _ _ _).requestKeyframeFromSharer _ _
          · exact (refl s).putIngress _ _ _
      · exact .refl s
  | _ => cases hop

end Prolongs

theorem videoIngress_forwardVideoFrame (s : Server) (publisher : SessionId) (source : VideoSource)
    (frame : ShareFrame) :
    (s.forwardVideoFrame publisher source frame).videoIngress = s.videoIngress := by
  unfold Server.forwardVideoFrame
  split
  · rfl
  · split
    · rfl
    · dsimp only
      split
      · rfl
      · split
        · rfl
        · split <;> rfl

end Server

end Parties

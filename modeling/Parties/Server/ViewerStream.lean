import Parties.Server.HousedStreams
import Parties.Server.MainLoop
import Parties.Server.SubscriptionScope
import Parties.Video.FrameReorderDelivery

/-!
# What a viewer can decode

The record of a stream at a viewer starts with a keyframe, and after that each frame
handed on follows the one before it or is a keyframe; a frame that is missed is made up
for by a keyframe. While the gate is open, the last frame handed on is the one the
reorder buffer of the stream delivered last. That may fail only toward viewers in a
channel the owner of the stream has left by dropping, and these lose the subscription
before the owner can come back.
-/

namespace Parties

open Parties.Video

/-! ### Records -/

/-- The frame a decoder stands at after the events, none while it needs a keyframe. -/
def resumesAt : Option (BitVec 32) → List ViewerEvent → Option (BitVec 32)
  | last, [] => last
  | _, .handed hdr _ :: events => resumesAt (some hdr.frameSeq) events
  | _, .missed :: events => resumesAt none events
  | last, .aborted _ _ :: events => resumesAt last events

/-- A decoder that stands at `last` can decode the frames that were handed on. -/
def Decodes : Option (BitVec 32) → List ViewerEvent → Prop
  | _, [] => True
  | last, .handed hdr _ :: events =>
    (hdr.keyframe = false → ∃ seq, last = some seq ∧ hdr.frameSeq = seq + 1) ∧
      Decodes (some hdr.frameSeq) events
  | _, .missed :: events => Decodes none events
  | last, .aborted _ _ :: events => Decodes last events

/-- Aborts before a frame hit older frames only, and no abort hits a frame handed on later. -/
structure SparesLater (log : List ViewerEvent) : Prop where
  older : ∀ seq streams, .aborted (some seq) streams ∈ log →
    ∀ out ∈ streams, videoSeqNewer seq out.frameSeq = true
  later : log.Pairwise fun event event' => ∀ before streams hdr handle,
    event = .aborted before streams → event' = .handed hdr handle →
      ∀ out ∈ streams, out.handle ≠ handle

theorem resumesAt_append (last : Option (BitVec 32)) (xs ys : List ViewerEvent) :
    resumesAt last (xs ++ ys) = resumesAt (resumesAt last xs) ys := by
  induction xs generalizing last with
  | nil => rfl
  | cons x xs ih => cases x <;> exact ih _

theorem decodes_append (last : Option (BitVec 32)) (xs ys : List ViewerEvent) :
    Decodes last (xs ++ ys) ↔ Decodes last xs ∧ Decodes (resumesAt last xs) ys := by
  induction xs generalizing last with
  | nil => simp [Decodes, resumesAt]
  | cons x xs ih =>
      cases x with
      | handed hdr handle =>
          simp only [List.cons_append, Decodes, resumesAt, ih, and_assoc]
      | missed => exact ih none
      | aborted before streams => exact ih last

/-- Aborts do not move the decoder. -/
theorem resumesAt_aborts {viewer : Session} {events : List ViewerEvent}
    (h : ∀ e ∈ events, viewer.Aborts e) (last : Option (BitVec 32)) :
    resumesAt last events = last ∧ Decodes last events := by
  induction events generalizing last with
  | nil => exact ⟨rfl, trivial⟩
  | cons e events ih =>
      obtain ⟨before, streams, rfl, _⟩ := h e List.mem_cons_self
      exact ih (fun e' he' => h e' (List.mem_cons_of_mem _ he')) last

theorem decodes_missed {viewer : Session} {events : List ViewerEvent}
    (h : ∀ e ∈ events, e = .missed ∨ viewer.Aborts e) (last : Option (BitVec 32)) :
    Decodes last events := by
  induction events generalizing last with
  | nil => trivial
  | cons e events ih =>
      have hrest := fun last => ih (fun e' he' => h e' (List.mem_cons_of_mem _ he')) last
      rcases h e List.mem_cons_self with rfl | ⟨before, streams, rfl, _⟩
      · exact hrest none
      · exact hrest last

/-! ### One viewer -/

/-- What holds of the records of a viewer. -/
structure Recorded (viewer : Session) : Prop where
  sending : ∀ out ∈ viewer.videoOutStreams, out.handle < viewer.framesHanded
  handed : ∀ stream hdr handle, .handed hdr handle ∈ viewer.viewerLog stream →
    handle < viewer.framesHanded
  aborted : ∀ stream before streams, .aborted before streams ∈ viewer.viewerLog stream →
    ∀ out ∈ streams, out.handle < viewer.framesHanded
  spares : ∀ stream, SparesLater (viewer.viewerLog stream)
  decodes : ∀ stream, Decodes none (viewer.viewerLog stream)

namespace Recorded

variable {viewer viewer' : Session} {stream : StreamId} {hdr : VideoFrameHeader}

theorem sameRecord (h : Recorded viewer) (hsame : ∀ stream, SameRecord stream viewer viewer') :
    Recorded viewer' where
  sending out hout := by
    cases hsame 0 with
    | same hlog hhanded hsending hkept =>
        rw [hhanded]
        exact h.sending out (hsending hout)
    | fresh hlog hsending hwaits =>
        obtain ⟨hold, hhanded⟩ := hsending out hout
        rw [hhanded]
        exact h.sending out hold
  handed stream hdr handle hin := by
    cases hsame stream with
    | same hlog hhanded hsending hkept =>
        rw [hhanded]
        exact h.handed stream hdr handle (hlog ▸ hin)
    | fresh hlog hsending hwaits =>
        rw [hlog] at hin
        cases hin
  aborted stream before streams hin := by
    cases hsame stream with
    | same hlog hhanded hsending hkept =>
        rw [hhanded]
        exact h.aborted stream before streams (hlog ▸ hin)
    | fresh hlog hsending hwaits =>
        rw [hlog] at hin
        cases hin
  spares stream := by
    cases hsame stream with
    | same hlog hhanded hsending hkept =>
        rw [hlog]
        exact h.spares stream
    | fresh hlog hsending hwaits =>
        rw [hlog]
        exact ⟨(fun _ _ hin => by cases hin), List.Pairwise.nil⟩
  decodes stream := by
    cases hsame stream with
    | same hlog hhanded hsending hkept =>
        rw [hlog]
        exact h.decodes stream
    | fresh hlog hsending hwaits =>
        rw [hlog]
        trivial

/-- The records go on by events that fit. -/
theorem append (h : Recorded viewer) {events : List ViewerEvent}
    (helsewhere : Session.SameElsewhere stream viewer viewer')
    (hlog : viewer'.viewerLog stream = viewer.viewerLog stream ++ events)
    (hmore : viewer.framesHanded ≤ viewer'.framesHanded)
    (hsending : ∀ out ∈ viewer'.videoOutStreams, out.handle < viewer'.framesHanded)
    (hhanded : ∀ hdr handle, .handed hdr handle ∈ events →
      viewer.framesHanded ≤ handle ∧ handle < viewer'.framesHanded)
    (haborted : ∀ before streams, .aborted before streams ∈ events →
      streams ⊆ viewer.videoOutStreams ∧
        ∀ seq, before = some seq → ∀ out ∈ streams, videoSeqNewer seq out.frameSeq = true)
    (hdecodes : Decodes (resumesAt none (viewer.viewerLog stream)) events) :
    Recorded viewer' := by
  have hlogs : ∀ other e, e ∈ viewer'.viewerLog other →
      e ∈ viewer.viewerLog other ∨ other = stream ∧ e ∈ events := by
    intro other e he
    by_cases hother : other = stream
    · subst hother
      rw [hlog] at he
      exact (List.mem_append.mp he).imp_right fun he => ⟨rfl, he⟩
    · rw [helsewhere.log other hother] at he
      exact .inl he
  have hbefore : ∀ before streams, .aborted before streams ∈ events →
      ∀ out ∈ streams, out.handle < viewer.framesHanded :=
    fun before streams hin out hout => h.sending out ((haborted before streams hin).1 hout)
  refine ⟨hsending, ?_, ?_, ?_, ?_⟩
  · intro other hdr handle hin
    rcases hlogs other _ hin with hold | ⟨_, hnew⟩
    · exact (h.handed other hdr handle hold).trans_le hmore
    · exact (hhanded hdr handle hnew).2
  · intro other before streams hin out hout
    rcases hlogs other _ hin with hold | ⟨_, hnew⟩
    · exact (h.aborted other before streams hold out hout).trans_le hmore
    · exact (hbefore before streams hnew out hout).trans_le hmore
  · intro other
    by_cases hother : other = stream
    · subst hother
      constructor
      · intro seq streams hin
        rcases hlogs other _ hin with hold | ⟨_, hnew⟩
        · exact (h.spares other).older seq streams hold
        · exact (haborted _ streams hnew).2 seq rfl
      · -- what was aborted was handed on before
        have hnumbers : ∀ e ∈ viewer'.viewerLog other, ∀ e' ∈ events, ∀ before streams hdr handle,
            e = .aborted before streams → e' = .handed hdr handle →
              ∀ out ∈ streams, out.handle ≠ handle := by
          intro e he e' he' before streams hdr handle hab hha out hout
          subst hab hha
          have hlt : out.handle < viewer.framesHanded := by
            rcases hlogs other _ he with hold | ⟨_, hnew⟩
            · exact h.aborted other before streams hold out hout
            · exact hbefore before streams hnew out hout
          exact (hlt.trans_le (hhanded hdr handle he').1).ne
        rw [hlog]
        rw [hlog] at hnumbers
        refine List.pairwise_append.mpr ⟨(h.spares other).later, ?_, ?_⟩
        · exact List.pairwise_of_forall_mem_list fun e he e' he' =>
            hnumbers e (List.mem_append_right _ he) e' he'
        · exact fun e he e' he' => hnumbers e (List.mem_append_left _ he) e' he'
    · rw [helsewhere.log other hother]
      exact h.spares other
  · intro other
    by_cases hother : other = stream
    · subst hother
      rw [hlog]
      exact (decodes_append _ _ _).mpr ⟨h.decodes other, hdecodes⟩
    · rw [helsewhere.log other hother]
      exact h.decodes other

end Recorded

/-- A decoder at the viewer is at the frame numbered `last`, or a keyframe is awaited. -/
def StandsAt (viewer : Session) (stream : StreamId) (last : Option (BitVec 32)) : Prop :=
  (viewer.gate stream).awaitingKeyframe = true ∨
    ∀ seq, last = some seq → resumesAt none (viewer.viewerLog stream) = some seq

/-- A frame the decoder can take next keeps the record decodable. -/
theorem Session.Outcome.recorded {viewer viewer' : Session} {stream : StreamId}
    {hdr : VideoFrameHeader} {last : Option (BitVec 32)}
    (h : Session.Outcome stream hdr viewer viewer')
    (helsewhere : Session.SameElsewhere stream viewer viewer') (hviewer : Recorded viewer)
    (hstands : StandsAt viewer stream last) (haccepts : Accepts last hdr) :
    Recorded viewer' ∧ StandsAt viewer' stream (some hdr.frameSeq) := by
  cases h with
  | handed events haborts hlog hnext hgate hhanded hsending =>
      obtain ⟨hresumes, hdecodes⟩ :=
        resumesAt_aborts haborts (resumesAt none (viewer.viewerLog stream))
      constructor
      · refine hviewer.append helsewhere hlog (by omega) ?_ ?_ ?_ ?_
        · intro out hout
          rcases hsending out hout with hold | hnew
          · have hlt := hviewer.sending out hold
            omega
          · omega
        · intro hdr' handle hin
          rcases List.mem_append.mp hin with hin | hin
          · obtain ⟨before, streams, heq, _⟩ := haborts _ hin
            cases heq
          · obtain ⟨rfl, rfl⟩ := ViewerEvent.handed.inj (List.mem_singleton.mp hin)
            omega
        · intro before streams hin
          rcases List.mem_append.mp hin with hin | hin
          · obtain ⟨before', streams', heq, hsub, holder⟩ := haborts _ hin
            obtain ⟨rfl, rfl⟩ := ViewerEvent.aborted.inj heq
            exact ⟨hsub, holder⟩
          · cases List.mem_singleton.mp hin
        · refine (decodes_append _ _ _).mpr ⟨hdecodes, ?_, trivial⟩
          intro hdelta
          rw [hresumes]
          rcases hstands with hwaits | hlast
          · rw [hnext hwaits] at hdelta
            cases hdelta
          · cases last with
            | none =>
                rw [show hdr.keyframe = true from haccepts] at hdelta
                cases hdelta
            | some seq => exact ⟨seq, hlast seq rfl, haccepts.2 hdelta⟩
      · refine .inr fun seq hseq => ?_
        rw [hlog, resumesAt_append, resumesAt_append, hresumes]
        exact hseq
  | missed events hmissed haborts hlog hgate hhanded hsending =>
      refine ⟨?_, .inl hgate⟩
      refine hviewer.append helsewhere hlog hhanded.ge ?_ ?_ ?_ ?_
      · rw [hsending, hhanded]
        exact hviewer.sending
      · intro hdr' handle hin
        rcases haborts _ hin with heq | ⟨before, streams, heq, _⟩ <;> cases heq
      · intro before streams hin
        rcases haborts _ hin with heq | ⟨before', streams', heq, hsub, holder⟩
        · cases heq
        · obtain ⟨rfl, rfl⟩ := ViewerEvent.aborted.inj heq
          exact ⟨hsub, holder⟩
      · exact decodes_missed haborts _

/-! ### The frames of a stream -/

namespace Server

variable {s s' : Server}

/-- The records are sound, and the viewers of a stream stand at the frame numbered `last`. -/
structure Streaming (s : Server) (stream : StreamId) (publisher : SessionId)
    (last : Option (BitVec 32)) : Prop where
  recorded : ∀ viewer, Recorded (s.sessions viewer)
  stands : ∀ viewer, s.Takes viewer stream publisher → StandsAt (s.sessions viewer) stream last

/-- Nothing has happened but to a stream at its viewers. -/
structure OnlyStream (stream : StreamId) (publisher : SessionId) (s s' : Server) : Prop where
  registry : s'.registry = s.registry
  ingress : s'.videoIngress = s.videoIngress
  same : ∀ viewer other, other ≠ stream ∨ ¬ s.Takes viewer stream publisher →
    (s'.sessions viewer).viewerLog other = (s.sessions viewer).viewerLog other ∧
      (s'.sessions viewer).gate other = (s.sessions viewer).gate other

namespace OnlyStream

variable {s'' : Server} {stream : StreamId} {publisher : SessionId}

theorem refl (s : Server) (stream : StreamId) (publisher : SessionId) :
    OnlyStream stream publisher s s := ⟨rfl, rfl, fun _ _ _ => ⟨rfl, rfl⟩⟩

theorem trans (h : OnlyStream stream publisher s s') (h' : OnlyStream stream publisher s' s'') :
    OnlyStream stream publisher s s'' := by
  refine ⟨h'.registry.trans h.registry, h'.ingress.trans h.ingress, fun viewer other hout => ?_⟩
  obtain ⟨hlog, hgate⟩ := h.same viewer other hout
  obtain ⟨hlog', hgate'⟩ := h'.same viewer other
    (hout.imp_right fun hnot htakes => hnot (htakes.congr h.registry.symm))
  exact ⟨hlog'.trans hlog, hgate'.trans hgate⟩

end OnlyStream

variable {stream : StreamId} {publisher : SessionId} {last : Option (BitVec 32)}

theorem Streaming.elsewhere (h : s.Streaming stream publisher last)
    (hregistry : s'.registry = s.registry) (hsessions : s'.sessions = s.sessions) :
    s'.Streaming stream publisher last := by
  constructor
  · rw [hsessions]
    exact h.recorded
  · intro viewer htakes
    rw [hsessions]
    exact h.stands viewer (htakes.congr hregistry.symm)

/-- A frame that follows is forwarded to all viewers. -/
theorem Streaming.forwardVideoFrame {source : VideoSource} {frame : ShareFrame}
    {hdr : VideoFrameHeader}
    (h : s.Streaming (videoStreamId (s.sessions publisher).userId source) publisher last)
    (hparse : VideoFrameHeader.parse frame.bytes = some hdr) (haccepts : Accepts last hdr) :
    (s.forwardVideoFrame publisher source frame).Streaming
        (videoStreamId (s.sessions publisher).userId source) publisher (some hdr.frameSeq) ∧
      OnlyStream (videoStreamId (s.sessions publisher).userId source) publisher s
        (s.forwardVideoFrame publisher source frame) := by
  have hregistry := registry_forwardVideoFrame (s := s) publisher source frame
  refine ⟨⟨fun viewer => ?_, fun viewer htakes => ?_⟩, ⟨hregistry, ?_, fun viewer other hout => ?_⟩⟩
  · rcases s.sessions_forwardVideoFrame publisher source frame viewer with
      ⟨hdr', hparse', htakes, houtcome, helsewhere⟩ | ⟨hsame, _⟩
    · obtain rfl := Option.some.inj (hparse.symm.trans hparse')
      exact (houtcome.recorded helsewhere (h.recorded viewer) (h.stands viewer htakes)
        haccepts).1
    · rw [hsame]
      exact h.recorded viewer
  · have hbefore := htakes.congr hregistry.symm
    rcases s.sessions_forwardVideoFrame publisher source frame viewer with
      ⟨hdr', hparse', _, houtcome, helsewhere⟩ | ⟨_, hnot⟩
    · obtain rfl := Option.some.inj (hparse.symm.trans hparse')
      exact (houtcome.recorded helsewhere (h.recorded viewer) (h.stands viewer hbefore)
        haccepts).2
    · exact absurd hbefore (hnot (by simp [hparse]))
  · exact videoIngress_forwardVideoFrame s publisher source frame
  · rcases s.sessions_forwardVideoFrame publisher source frame viewer with
      ⟨_, _, htakes, _, helsewhere⟩ | ⟨hsame, _⟩
    · have hother := hout.resolve_right (not_not.mpr htakes)
      exact ⟨helsewhere.log other hother, helsewhere.gate other hother⟩
    · rw [hsame]
      exact ⟨rfl, rfl⟩

theorem OnlyStream.of_eq (hregistry : s'.registry = s.registry)
    (hingress : s'.videoIngress = s.videoIngress) (hsessions : s'.sessions = s.sessions) :
    OnlyStream stream publisher s s' := by
  refine ⟨hregistry, hingress, fun viewer other _ => ?_⟩
  rw [hsessions]
  exact ⟨rfl, rfl⟩

/-- The frames one call of the reorder buffer delivered are forwarded one after another. -/
theorem Streaming.onIngressEvents {source : VideoSource}
    {events : List (ReorderEvent ShareFrame)} {last' : Option (BitVec 32)}
    (h : s.Streaming stream publisher last)
    (hstream : ∀ x ∈ deliveredFrames events,
      stream = videoStreamId (s.sessions publisher).userId source)
    (hpath : ChainPath last (deliveredHeaders events) last')
    (hparse : ∀ x ∈ deliveredFrames events, VideoFrameHeader.parse x.2.bytes = some x.1) :
    (onIngressEvents stream publisher source s events).Streaming stream publisher last' ∧
      OnlyStream stream publisher s (onIngressEvents stream publisher source s events) := by
  induction events generalizing s last with
  | nil =>
      obtain rfl : last = last' := hpath
      exact ⟨h, .refl s stream publisher⟩
  | cons e events ih =>
      cases e with
      | deliver hdr frame =>
          obtain ⟨haccepts, hrest⟩ := hpath
          have hlogged : (s.modifyShareLog stream fun log =>
              { log with passedOn := log.passedOn ++ [frame] }).Streaming stream publisher last :=
            h.elsewhere rfl rfl
          have hnoted : OnlyStream stream publisher s (s.modifyShareLog stream fun log =>
              { log with passedOn := log.passedOn ++ [frame] }) := .of_eq rfl rfl rfl
          obtain rfl := hstream (hdr, frame) List.mem_cons_self
          obtain ⟨hforwarded, honly⟩ :=
            hlogged.forwardVideoFrame (hparse (hdr, frame) List.mem_cons_self) haccepts
          have huser : videoStreamId (s.sessions publisher).userId source = videoStreamId
              ((Server.forwardVideoFrame _ publisher source frame).sessions publisher).userId
                source :=
            congrArg (fun r : Registry => videoStreamId (r.members publisher).userId source)
              honly.registry.symm
          obtain ⟨hdone, honly'⟩ := ih hforwarded (fun _ _ => huser) hrest fun x hx =>
            hparse x (List.mem_cons_of_mem _ hx)
          exact ⟨hdone, hnoted.trans (honly.trans honly')⟩
      | lost seq =>
          have hasked : (s.requestKeyframeFromSharer stream 0).Streaming stream publisher last :=
            h.elsewhere rfl rfl
          have hnoted : OnlyStream stream publisher s (s.requestKeyframeFromSharer stream 0) :=
            .of_eq rfl rfl rfl
          obtain ⟨hdone, honly⟩ := ih hasked hstream hpath hparse
          exact ⟨hdone, hnoted.trans honly⟩

/-- The frames in a reorder buffer are those of their headers. -/
def HoldsFrames (reorder : VideoFrameReorderBuffer ShareFrame) : Prop :=
  VideoFrameReorderBuffer.HeldAll
    (fun hdr (frame : ShareFrame) => VideoFrameHeader.parse frame.bytes = some hdr) reorder

/-- The buffer of a stream has taken something in, and its viewers have seen what it
delivered. -/
structure Fed (stream : StreamId) (publisher : SessionId) (s s' : Server) : Prop where
  registry : s'.registry = s.registry
  same : ∀ viewer other, other ≠ stream ∨ ¬ s.Takes viewer stream publisher →
    (s'.sessions viewer).viewerLog other = (s.sessions viewer).viewerLog other ∧
      (s'.sessions viewer).gate other = (s.sessions viewer).gate other
  buffer : ∃ ingress, s'.videoIngress = Function.update s.videoIngress stream (some ingress) ∧
    HoldsFrames ingress.reorder ∧ s'.Streaming stream publisher ingress.reorder.anchor

theorem Fed.elsewhere {s'' : Server} (h : Fed stream publisher s s')
    (hregistry : s''.registry = s'.registry) (hingress : s''.videoIngress = s'.videoIngress)
    (hsessions : s''.sessions = s'.sessions) : Fed stream publisher s s'' := by
  obtain ⟨ingress, hput, hholds, hstreaming⟩ := h.buffer
  refine ⟨hregistry.trans h.registry, fun viewer other hout => ?_,
    ⟨ingress, hingress.trans hput, hholds, hstreaming.elsewhere hregistry hsessions⟩⟩
  rw [hsessions]
  exact h.same viewer other hout

/-- The outcome of a call on the buffer of a stream that goes on from where its viewers stand. -/
theorem Streaming.putIngress {ingress : VideoIngress}
    {outcome : VideoFrameReorderBuffer ShareFrame × List (ReorderEvent ShareFrame)}
    (h : s.Streaming stream ingress.session ingress.reorder.anchor)
    (hstream : ∀ x ∈ deliveredFrames outcome.2,
      stream = videoStreamId (s.sessions ingress.session).userId ingress.source)
    (hextends : ingress.reorder.Extends outcome)
    (hyields : VideoFrameReorderBuffer.Yields
      (fun hdr (frame : ShareFrame) => VideoFrameHeader.parse frame.bytes = some hdr) outcome) :
    Fed stream ingress.session s (s.putIngress stream ingress outcome) := by
  have hput : Server.Streaming { s with
      videoIngress := Function.update s.videoIngress stream
        (some { ingress with reorder := outcome.1 }) } stream ingress.session
          ingress.reorder.anchor := h.elsewhere rfl rfl
  obtain ⟨hdone, honly⟩ := hput.onIngressEvents hstream hextends hyields.delivered
  refine ⟨registry_putIngress .., fun viewer other hout => ?_, ⟨_, honly.ingress, hyields.held,
    hdone⟩⟩
  exact honly.same viewer other (hout.imp_right fun hnot htakes => hnot (htakes.congr rfl))

theorem Streaming.processIngressEvent {ingress : VideoIngress}
    (h : s.Streaming stream ingress.session ingress.reorder.anchor)
    (hstream : stream = videoStreamId (s.sessions ingress.session).userId ingress.source)
    (hholds : HoldsFrames ingress.reorder) (event : IngressEvent) :
    Fed stream ingress.session s (s.processIngressEvent stream ingress event) := by
  have hread : s.readClock.Streaming stream ingress.session ingress.reorder.anchor :=
    h.elsewhere rfl rfl
  have hkept : VideoFrameReorderBuffer.Silent ingress.reorder (ingress.reorder, []) :=
    ⟨rfl, rfl, rfl⟩
  -- reading the clock does not matter
  have hclock : ∀ s' : Server, Fed stream ingress.session s.readClock s' →
      Fed stream ingress.session s s' := fun s' hs' => ⟨hs'.registry,
    fun viewer other hout => hs'.same viewer other (hout.imp_right fun hnot htakes =>
      hnot (htakes.congr rfl)), hs'.buffer⟩
  unfold Server.processIngressEvent
  split
  next hdr =>
    exact hclock _ (hread.putIngress (fun _ _ => hstream)
      (VideoFrameReorderBuffer.onFrameStarted_silent ingress.reorder hdr s.nowUs).extends
      ((VideoFrameReorderBuffer.onFrameStarted_heldAll hholds hdr s.nowUs).yields rfl))
  next frameSeq =>
    exact hclock _ (hread.putIngress (fun _ _ => hstream)
      (VideoFrameReorderBuffer.onFrameAborted_silent ingress.reorder frameSeq s.nowUs).extends
      (VideoFrameReorderBuffer.onFrameAborted_yields hholds frameSeq s.nowUs))
  · have hput := hclock _ (hread.putIngress (fun _ _ => hstream) hkept.extends
      (hholds.yields rfl))
    dsimp only
    split
    · exact hput
    · exact hput.elsewhere rfl rfl rfl
  next frame =>
    split
    · exact h.putIngress (fun _ _ => hstream) hkept.extends (hholds.yields rfl)
    next hdr hparse =>
      exact hclock _ (hread.putIngress (fun _ _ => hstream)
        (VideoFrameReorderBuffer.onFrame_extends ingress.reorder hdr frame s.nowUs)
        (VideoFrameReorderBuffer.onFrame_yields hholds hparse s.nowUs))

/-! ### Between two steps -/

/-- The number of the frame the buffer of a stream delivered last. -/
def standing (s : Server) (stream : StreamId) : Option (BitVec 32) :=
  (s.videoIngress stream).bind fun ingress => ingress.reorder.anchor

/-- The owner of a stream dropped out of the viewer's channel: one of the departures in the
queue is theirs, and they have not come back. -/
def Dropped (s : Server) (queue : List SessionDisconnect) (viewer : SessionId)
    (stream : StreamId) : Prop :=
  (∃ d ∈ queue, d.userId = videoStreamOwner stream ∧
    d.channelId = (s.sessions viewer).channelId) ∧
  ∀ current, s.sessionForUser (videoStreamOwner stream) = some current →
    (s.sessions current).channelId ≠ (s.sessions viewer).channelId

theorem SameRecords.holds (hsame : s.SameRecords s')
    (h : ∀ stream ingress, s.videoIngress stream = some ingress → HoldsFrames ingress.reorder)
    {ingress : VideoIngress} (hin : s'.videoIngress stream = some ingress) :
    HoldsFrames ingress.reorder := by
  rcases hsame.ingress stream with heq | hnone
  · exact h stream ingress (heq.symm.trans hin)
  · rw [hnone] at hin
    cases hin

theorem SameRecords.standing (hsame : s.SameRecords s') (stream : StreamId) :
    s'.standing stream = s.standing stream ∨ s'.standing stream = none := by
  unfold Server.standing
  rcases hsame.ingress stream with heq | hnone
  · rw [heq]
    exact .inl rfl
  · rw [hnone]
    exact .inr rfl

/-- A viewer awaits a keyframe or, unless the owner has dropped, stands where the buffer
does. -/
def InStep (s : Server) (queue : List SessionDisconnect) (viewer : SessionId)
    (stream : StreamId) : Prop :=
  ((s.sessions viewer).gate stream).awaitingKeyframe = true ∨
    videoStreamOwner stream ≠ (s.sessions viewer).userId ∧
      (StandsAt (s.sessions viewer) stream (s.standing stream) ∨ s.Dropped queue viewer stream)

structure Faithful (s : Server) (queue : List SessionDisconnect) : Prop where
  inOrder : s.registry.InOrder
  inScope : s.registry.Scoped
  housed : s.registry.Housed fun _ _ => False
  recorded : ∀ viewer, Recorded (s.sessions viewer)
  holds : ∀ stream ingress, s.videoIngress stream = some ingress → HoldsFrames ingress.reorder
  viewers : ∀ viewer ∈ s.sessionTable, ∀ stream ∈ (s.sessions viewer).subscribedSharers,
    s.InStep queue viewer stream

/-- The publisher of a stream is the session of its owner. -/
theorem Publishes.owner (h : s.Publishes publisher stream) (hs : s.registry.InOrder) :
    videoStreamOwner stream = (s.sessions publisher).userId ∧
      s.sessionForUser (videoStreamOwner stream) = some publisher := by
  have hmark := hs.marked _ h.inTable h.authenticated
  obtain ⟨source, hsource⟩ := h.source
  have howner : videoStreamOwner stream = (s.sessions publisher).userId := by
    rw [hsource]
    exact videoStreamOwner_id (hs.consistent.packable h.inTable hmark) source
  refine ⟨howner, ?_⟩
  rw [howner]
  exact hs.consistent.sessionForUser h.inTable hmark

namespace Faithful

variable {queue queue' : List SessionDisconnect}

/-- A step that feeds no buffer and prolongs no record. -/
theorem quiet (h : s.Faithful queue) (hinOrder : s'.registry.InOrder)
    (hscoped : s'.registry.Scoped) (hhoused : s'.registry.Housed fun _ _ => False)
    (hrecord : ∀ viewer stream, SameRecord stream (s.sessions viewer) (s'.sessions viewer))
    (hholds : ∀ stream ingress, s'.videoIngress stream = some ingress →
      HoldsFrames ingress.reorder)
    (hstanding : ∀ stream, s'.standing stream = s.standing stream ∨ s'.standing stream = none)
    (hold : ∀ viewer ∈ s'.sessionTable, ∀ stream ∈ (s'.sessions viewer).subscribedSharers,
      stream ∈ (s.sessions viewer).subscribedSharers →
        viewer ∈ s.sessionTable ∧ (s'.sessions viewer).userId = (s.sessions viewer).userId ∧
          (s.Dropped queue viewer stream → s'.Dropped queue' viewer stream)) :
    s'.Faithful queue' := by
  refine ⟨hinOrder, hscoped, hhoused, fun viewer => (h.recorded viewer).sameRecord (hrecord viewer),
    hholds, fun viewer hin stream hwatched => ?_⟩
  cases hrecord viewer stream with
  | fresh hlog hsending hwaits => exact .inl (hwaits hwatched)
  | same hlog hhanded hsending hkept =>
      obtain ⟨hbefore, hgate⟩ := hkept hwatched
      obtain ⟨hin', huser, hdropped⟩ := hold viewer hin stream hwatched hbefore
      rcases h.viewers viewer hin' stream hbefore with hwaits | ⟨hother, hstep⟩
      · exact .inl (hgate.trans hwaits)
      · refine .inr ⟨by rwa [huser], hstep.imp ?_ hdropped⟩
        rintro (hwaits | hstands)
        · exact .inl (hgate.trans hwaits)
        · refine .inr fun seq hseq => ?_
          rw [hlog]
          rcases hstanding stream with hsame | hnone
          · exact hstands seq (hsame.symm.trans hseq)
          · rw [hnone] at hseq
            cases hseq

/-- The same, where the registry stays as it is. -/
theorem elsewhere (h : s.Faithful queue) (hregistry : s'.registry = s.registry)
    (hrecord : ∀ viewer stream, SameRecord stream (s.sessions viewer) (s'.sessions viewer))
    (hholds : ∀ stream ingress, s'.videoIngress stream = some ingress →
      HoldsFrames ingress.reorder)
    (hstanding : ∀ stream, s'.standing stream = s.standing stream ∨ s'.standing stream = none) :
    s'.Faithful queue := by
  have hmember : ∀ sid, (s'.sessions sid).member = (s.sessions sid).member :=
    congrFun (congrArg Registry.members hregistry)
  have hchannel : ∀ sid, (s'.sessions sid).channelId = (s.sessions sid).channelId :=
    fun sid => congrArg Member.channelId (hmember sid)
  have htable : s'.sessionTable = s.sessionTable := congrArg Registry.table hregistry
  have hsession : ∀ user, s'.sessionForUser user = s.sessionForUser user := fun user =>
    congrArg (fun r : Registry => r.sessionForUser user) hregistry
  refine h.quiet (hregistry ▸ h.inOrder) (hregistry ▸ h.inScope) (hregistry ▸ h.housed) hrecord
    hholds hstanding fun viewer hin stream _ _ => ⟨htable ▸ hin, ?_, ?_⟩
  · exact congrArg Member.userId (hmember viewer)
  · rintro ⟨⟨d, hd, huser, hd'⟩, hgone⟩
    refine ⟨⟨d, hd, huser, hd'.trans (hchannel viewer).symm⟩, fun current hcurrent => ?_⟩
    rw [hsession] at hcurrent
    rw [hchannel, hchannel]
    exact hgone current hcurrent

theorem sameRecords (h : s.Faithful queue) (hregistry : s'.registry = s.registry)
    (hsame : s.SameRecords s') : s'.Faithful queue :=
  h.elsewhere hregistry hsame.record (fun _ _ hin => hsame.holds h.holds hin) hsame.standing

/-- The viewers that take a stream stand where its buffer does. -/
theorem streaming (h : s.Faithful queue) (stream : StreamId) (publisher : SessionId) :
    s.Streaming stream publisher (s.standing stream) := by
  refine ⟨h.recorded, fun viewer htakes => ?_⟩
  have hreceives := htakes.receives h.inOrder
  rcases h.viewers viewer hreceives.inTable stream hreceives.subscribed with
    hwaits | ⟨_, hstands | ⟨_, hgone⟩⟩
  · exact .inl hwaits
  · exact hstands
  · -- the publisher is the owner's session, and it is there
    exact absurd hreceives.channel.symm
      (hgone publisher (hreceives.publishes.owner h.inOrder).2)

/-- A viewer that misses the frames of the publisher is in a channel the owner dropped out
of. -/
theorem dropped_of_not_takes {publisher viewer : SessionId} (h : s.Faithful s.disconnects)
    (hpublishes : s.Publishes publisher stream) (hin : viewer ∈ s.sessionTable)
    (hwatched : stream ∈ (s.sessions viewer).subscribedSharers)
    (hforeign : videoStreamOwner stream ≠ (s.sessions viewer).userId)
    (hnot : ¬ s.Takes viewer stream publisher) : s.Dropped s.disconnects viewer stream := by
  have hc := h.inOrder.consistent
  obtain ⟨howner, hsession⟩ := hpublishes.owner h.inOrder
  have hlisted := h.inScope.watched viewer hin hwatched
  obtain ⟨hzero, _, hwhy⟩ := h.housed _ stream hlisted
  have hauth : (s.sessions viewer).authenticated = true := by
    by_contra hout
    exact hzero (hc.home viewer hin (Bool.eq_false_iff.mpr hout))
  have hapart : (s.sessions publisher).channelId ≠ (s.sessions viewer).channelId := by
    intro hsame
    refine hnot ⟨hpublishes, ?_⟩
    have hne : viewer ≠ publisher := by
      rintro rfl
      exact hforeign howner
    simp [isViewer, hin, hne, hauth, hsame, hwatched]
  have hgone : ∀ current, s.sessionForUser (videoStreamOwner stream) = some current →
      (s.sessions current).channelId ≠ (s.sessions viewer).channelId := by
    intro current hcurrent
    obtain rfl := Option.some.inj (hsession.symm.trans hcurrent)
    exact hapart
  rcases hwhy with ⟨current, hcurrent, hthere⟩ | ⟨d, hd, huser, hchannel⟩ | hfalse
  · exact absurd hthere (hgone current hcurrent)
  · exact ⟨⟨d, hd, huser, hchannel⟩, hgone⟩
  · exact hfalse.elim

/-- A buffer that is fed keeps its viewers in step with it. -/
theorem fed {publisher : SessionId} (h : s.Faithful s.disconnects)
    (hpublishes : s.Publishes publisher stream) (hfed : Fed stream publisher s s') :
    s'.Faithful s'.disconnects := by
  obtain ⟨ingress, hput, hholds, hstreaming⟩ := hfed.buffer
  have hregistry := hfed.registry
  have hmember : ∀ sid, (s'.sessions sid).member = (s.sessions sid).member :=
    congrFun (congrArg Registry.members hregistry)
  have hchannel : ∀ sid, (s'.sessions sid).channelId = (s.sessions sid).channelId :=
    fun sid => congrArg Member.channelId (hmember sid)
  have htable : s'.sessionTable = s.sessionTable := congrArg Registry.table hregistry
  have hqueue : s'.disconnects = s.disconnects := congrArg Registry.disconnects hregistry
  have hsession : ∀ user, s'.sessionForUser user = s.sessionForUser user := fun user =>
    congrArg (fun r : Registry => r.sessionForUser user) hregistry
  have hwatched : ∀ sid, (s'.sessions sid).subscribedSharers =
      (s.sessions sid).subscribedSharers := congrFun (congrArg Registry.watched hregistry)
  have hdropped : ∀ viewer other, s.Dropped s.disconnects viewer other →
      s'.Dropped s'.disconnects viewer other := by
    rintro viewer other ⟨⟨d, hd, huser, hd'⟩, hgone⟩
    rw [hqueue]
    refine ⟨⟨d, hd, huser, hd'.trans (hchannel viewer).symm⟩, fun current hcurrent => ?_⟩
    rw [hsession] at hcurrent
    rw [hchannel, hchannel]
    exact hgone current hcurrent
  refine ⟨hregistry ▸ h.inOrder, hregistry ▸ h.inScope, hregistry ▸ h.housed, hstreaming.recorded,
    fun other ingress' hin => ?_, fun viewer hin other hother => ?_⟩
  · rw [hput] at hin
    by_cases hsame : other = stream
    · subst hsame
      rw [Function.update_self] at hin
      obtain rfl := Option.some.inj hin
      exact hholds
    · rw [Function.update_of_ne hsame] at hin
      exact h.holds other ingress' hin
  · rw [htable] at hin
    rw [hwatched] at hother
    have huser : (s'.sessions viewer).userId = (s.sessions viewer).userId :=
      congrArg Member.userId (hmember viewer)
    by_cases htakes : other = stream ∧ s.Takes viewer stream publisher
    · obtain ⟨rfl, htakes⟩ := htakes
      have hstands := hstreaming.stands viewer (htakes.congr hregistry)
      have hanchor : s'.standing other = ingress.reorder.anchor := by
        rw [standing, hput, Function.update_self]
        rfl
      rw [← hanchor] at hstands
      have hreceives := htakes.receives h.inOrder
      refine .inr ⟨?_, .inl hstands⟩
      rw [huser, (hpublishes.owner h.inOrder).1]
      exact hreceives.otherUser.symm
    · obtain ⟨hlog, hgate⟩ := hfed.same viewer other (by tauto)
      rcases h.viewers viewer hin other hother with hwaits | ⟨hforeign, hstep⟩
      · refine .inl ?_
        rw [hgate]
        exact hwaits
      · refine .inr ⟨by rwa [huser], ?_⟩
        by_cases hsame : other = stream
        · subst hsame
          -- the viewer is in the channel of a departed session of the owner
          exact .inr (hdropped viewer other (h.dropped_of_not_takes hpublishes hin hother hforeign
            fun htaken => htakes ⟨rfl, htaken⟩))
        · refine hstep.imp ?_ (hdropped viewer other)
          unfold StandsAt standing
          rw [hgate, hlog, hput, Function.update_of_ne hsame]
          exact id

end Faithful

/-- A session that may send a stream publishes it. -/
theorem publishes_of_allowed (hs : s.registry.InOrder) {sid : SessionId} {source : VideoSource}
    (halive : (s.sessions sid).alive = true)
    (hallowed : (s.sessions sid).videoIngressAllowed source = true) :
    s.Publishes sid (videoStreamId (s.sessions sid).userId source) := by
  have hc := hs.consistent
  have hin : sid ∈ s.sessionTable := by
    by_contra hout
    have hidle := hc.gone sid hout halive source
    rw [show s.registry.allowed sid source = true from hallowed] at hidle
    cases hidle
  obtain ⟨hchannel, hlisted⟩ := hc.published sid hin source hallowed
  exact ⟨hin, (hc.authed sid hin (hc.authed_of_allowed hin hallowed)).1, hchannel, ⟨source, rfl⟩,
    hlisted⟩

theorem anchor_ingressFor (s : Server) (stream : StreamId) (sid : SessionId)
    (source : VideoSource) : (s.ingressFor stream sid source).reorder.anchor = s.standing stream := by
  unfold ingressFor standing
  cases s.videoIngress stream <;> rfl

theorem Faithful.holds_ingressFor {queue : List SessionDisconnect} (h : s.Faithful queue)
    (stream : StreamId) (sid : SessionId) (source : VideoSource) :
    HoldsFrames (s.ingressFor stream sid source).reorder := by
  unfold ingressFor
  cases hingress : s.videoIngress stream with
  | none => exact fun e he => by cases he
  | some ingress => exact h.holds stream ingress hingress

theorem Faithful.processVideoFrame (h : s.Faithful s.disconnects) :
    s.processVideoFrame.Faithful s.processVideoFrame.disconnects := by
  unfold Server.processVideoFrame
  split
  · exact h
  next p rest _ =>
    have hdequeued : (s.dequeue p rest).Faithful (s.dequeue p rest).disconnects :=
      h.sameRecords (registry_dequeue ..) ((SameRecords.refl s).dequeue p rest)
    dsimp only
    split
    · exact hdequeued
    next haccepts =>
      simp only [Bool.not_eq_true', Bool.not_eq_false, acceptsPending, Bool.and_eq_true]
        at haccepts
      have hpublishes := publishes_of_allowed hdequeued.inOrder haccepts.1.1 haccepts.1.2
      have hstreaming := hdequeued.streaming
        (videoStreamId ((s.dequeue p rest).sessions p.session).userId p.source) p.session
      rw [← anchor_ingressFor _ _ p.session p.source] at hstreaming
      exact hdequeued.fed hpublishes (Streaming.processIngressEvent hstreaming rfl
        (hdequeued.holds_ingressFor _ _ _) p.event)

/-- Callbacks that deliver nothing change no session and no buffer. -/
theorem onIngressEvents_silent (stream : StreamId) (sid : SessionId) (source : VideoSource)
    {events : List (ReorderEvent ShareFrame)} (h : deliveredFrames events = []) (s : Server) :
    (onIngressEvents stream sid source s events).sessions = s.sessions ∧
      (onIngressEvents stream sid source s events).videoIngress = s.videoIngress := by
  induction events generalizing s with
  | nil => exact ⟨rfl, rfl⟩
  | cons e events ih =>
      cases e with
      | deliver hdr frame => cases h
      | lost seq => exact ih h (s.requestKeyframeFromSharer stream 0)

theorem Faithful.pollIngress {queue : List SessionDisconnect} (h : s.Faithful queue)
    (stream : StreamId) : (s.pollIngress stream).Faithful queue := by
  unfold Server.pollIngress
  split
  next nowUs ingress _ hingress =>
    split
    · exact h.sameRecords rfl ((SameRecords.refl s).dropIngress stream)
    · have hpolled : (s.putIngress stream ingress (ingress.reorder.poll nowUs)).Faithful queue := by
        obtain ⟨hhave, hlast, hdelivered⟩ :=
          VideoFrameReorderBuffer.poll_silent ingress.reorder nowUs
        obtain ⟨hsessions, hput⟩ := onIngressEvents_silent stream ingress.session ingress.source
          hdelivered { s with
            videoIngress := Function.update s.videoIngress stream
              (some { ingress with reorder := (ingress.reorder.poll nowUs).1 }) }
        have hupdated : (s.putIngress stream ingress (ingress.reorder.poll nowUs)).videoIngress =
            Function.update s.videoIngress stream
              (some { ingress with reorder := (ingress.reorder.poll nowUs).1 }) := hput
        refine h.elsewhere (registry_putIngress ..) (fun viewer other => ?_)
          (fun other ingress' hin => ?_) fun other => .inl ?_
        · exact .of_viewerPart (congrArg (fun f => (f viewer).viewerPart) hsessions)
        · rw [hupdated] at hin
          by_cases hother : other = stream
          · subst hother
            rw [Function.update_self] at hin
            obtain rfl := Option.some.inj hin
            exact (VideoFrameReorderBuffer.poll_yields (h.holds other ingress hingress) nowUs).held
          · rw [Function.update_of_ne hother] at hin
            exact h.holds other ingress' hin
        · unfold standing
          rw [hupdated]
          by_cases hother : other = stream
          · subst hother
            rw [Function.update_self, hingress]
            simp only [Option.bind_some, VideoFrameReorderBuffer.anchor, hhave, hlast]
          · rw [Function.update_of_ne hother]
      dsimp only
      split
      · exact hpolled.sameRecords rfl ((SameRecords.refl _).requestKeyframeFromSharer stream 0)
      · exact hpolled
  · exact h

end Server

end Parties

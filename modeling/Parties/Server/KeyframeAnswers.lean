import Parties.Server.KeyframeRequests

/-!
# Keyframe requests are answered

An open request is one that nothing has answered yet. While it is open the stream
has a deferred request whose time no keyframe has passed: one step keeps it so or
answers it, and the pass after the cooldown sends it. Two requests are spaced
because the time of the last one is all the coalescer looks at.
-/

namespace Parties

open Parties.Video

namespace SharerVideoStates

/-- A request for `stream` at `t` is deferred and will not be cancelled. -/
def Open (stream : StreamId) (t : Int) (sts : SharerVideoStates) : Prop :=
  ∃ st, sts stream = some st ∧ st.pliDeferred = true ∧ st.lastKeyframeUs ≤ st.pliDeferredAtUs ∧
    st.pli.cooling t = true

/-- `out` sent a request for `stream` no earlier than `t`. -/
def SentSince (stream : StreamId) (t : Int) (out : List KeyframeRequest) : Prop :=
  ∃ sent ∈ out, sent.stream = stream ∧ t ≤ sent.nowUs

variable {stream : StreamId} {t : Int} {sts : SharerVideoStates}

theorem SentSince.append_left {out : List KeyframeRequest} (h : SentSince stream t out)
    (out' : List KeyframeRequest) : SentSince stream t (out ++ out') := by
  obtain ⟨sent, hsent, hrest⟩ := h
  exact ⟨sent, List.mem_append_left _ hsent, hrest⟩

theorem SentSince.append_right {out : List KeyframeRequest} (h : SentSince stream t out)
    (out' : List KeyframeRequest) : SentSince stream t (out' ++ out) := by
  obtain ⟨sent, hsent, hrest⟩ := h
  exact ⟨sent, List.mem_append_right _ hsent, hrest⟩

theorem sentSince_of_reachable {requester : UserId} {nowUs : Int} {reachable : Bool}
    (hreachable : reachable = true) (ht : t ≤ nowUs) :
    SentSince stream t (sendKeyframeRequest stream requester nowUs reachable) :=
  ⟨⟨stream, requester, nowUs⟩, by simp [sendKeyframeRequest, hreachable], rfl, ht⟩

/-! ### One call -/

/-- A request is sent at once or stays open. -/
theorem request_open {requester : UserId} {deferUs : Int} {reachable : Bool}
    (hvalid : videoStreamValid stream = true)
    (htimely : Timely sts (.request stream requester t deferUs reachable))
    (habsorbed : AbsorbedInTime sts (.request stream requester t deferUs reachable))
    (hreachable : reachable = true) :
    SentSince stream t (sts.step (.request stream requester t deferUs reachable)).2 ∨
      Open stream t (sts.step (.request stream requester t deferUs reachable)).1 := by
  obtain ⟨_, hdefer, hkeyframe⟩ := htimely
  simp only [step, requestKeyframeFromSharer, hvalid, Bool.not_true, Bool.false_eq_true, if_false]
  cases hcooling : ((sts stream).getD {}).pli.cooling t with
  | false =>
      rw [Coalescer.allow_of_not_cooling hcooling]
      exact .inl (sentSince_of_reachable hreachable le_rfl)
  | true =>
      rw [Coalescer.allow_of_cooling hcooling]
      refine .inr ?_
      cases hst : sts stream with
      | none =>
          rw [hst] at hcooling
          cases hcooling
      | some st =>
          simp only [hst, Option.getD_some] at hcooling
          by_cases hdeferred : st.pliDeferred = true
          · have hintime := habsorbed st hst hcooling hdeferred
            exact ⟨st, by simp [hdeferred], hdeferred, hintime, hcooling⟩
          · have hlast := hkeyframe st hst
            refine ⟨{ st with
              pliDeferred := true
              pliDeferredRequester := requester
              pliDeferredAtUs := deferUs }, by simp [hdeferred], rfl, ?_, hcooling⟩
            exact hlast.trans hdefer

/-- While the share runs, a call keeps a request open, answers it, or forwards a
keyframe. -/
theorem Open.step (h : Open stream t sts) {c : KeyframeCall} (hrunning : c.WhileRunning stream)
    (hvalid : videoStreamValid stream = true) :
    SentSince stream t (sts.step c).2 ∨ Open stream t (sts.step c).1 ∨
      ∃ k, c = .frameForwarded stream true k := by
  obtain ⟨st, hst, hdeferred, hintime, hcooling⟩ := h
  have hopen : ∀ sts' : SharerVideoStates, sts' stream = sts stream → Open stream t sts' :=
    fun sts' heq => ⟨st, heq.trans hst, hdeferred, hintime, hcooling⟩
  cases c with
  | frameForwarded s keyframe nowUs =>
      by_cases hs : s = stream
      · subst hs
        cases keyframe with
        | true => exact .inr (.inr ⟨nowUs, rfl⟩)
        | false =>
            refine .inr (.inl (hopen _ ?_))
            simp [SharerVideoStates.step, frameForwarded, hst]
      · refine .inr (.inl (hopen _ ?_))
        simp [SharerVideoStates.step, frameForwarded, Function.update_of_ne (Ne.symm hs)]
  | request s requester nowUs deferUs reachable =>
      by_cases hs : s = stream
      · subst hs
        simp only [SharerVideoStates.step, requestKeyframeFromSharer, hvalid, Bool.not_true, Bool.false_eq_true,
          if_false, hst, Option.getD_some]
        cases hnow : st.pli.cooling nowUs with
        | true =>
            rw [Coalescer.allow_of_cooling hnow]
            refine .inr (.inl (hopen _ ?_))
            simp [hdeferred, hst]
        | false =>
            rw [Coalescer.allow_of_not_cooling hnow]
            exact .inl (sentSince_of_reachable (hrunning rfl)
              (Coalescer.lt_of_cooling hcooling hnow).le)
      · refine .inr (.inl (hopen _ ?_))
        simp only [SharerVideoStates.step, requestKeyframeFromSharer]
        split
        · rfl
        · split <;> simp [Function.update_of_ne (Ne.symm hs)]
  | deferredPass s nowUs reachable =>
      by_cases hs : s = stream
      · subst hs
        simp only [SharerVideoStates.step, sendDeferredKeyframeRequest, hst, hdeferred, Bool.not_true,
          Bool.false_eq_true, if_false, not_lt.mpr hintime]
        cases hnow : st.pli.cooling nowUs with
        | true =>
            rw [Coalescer.allow_of_cooling hnow]
            exact .inr (.inl (hopen _ rfl))
        | false =>
            rw [Coalescer.allow_of_not_cooling hnow]
            exact .inl (sentSince_of_reachable (hrunning rfl)
              (Coalescer.lt_of_cooling hcooling hnow).le)
      · refine .inr (.inl (hopen _ ?_))
        simp only [SharerVideoStates.step, sendDeferredKeyframeRequest]
        split
        · rfl
        · split
          · rfl
          · split
            · simp [Function.update_of_ne (Ne.symm hs)]
            · split <;> simp [Function.update_of_ne (Ne.symm hs)]
  | shareStopped s =>
      refine .inr (.inl (hopen _ ?_))
      simp [SharerVideoStates.step, shareStopped, Function.update_of_ne (Ne.symm hrunning)]

/-- The pass that finds the cooldown over sends an open request. -/
theorem Open.pass (h : Open stream t sts) {passUs : Int} {reachable : Bool}
    (hover : CooldownOver sts stream passUs) (hreachable : reachable = true) :
    SentSince stream t (sts.step (.deferredPass stream passUs reachable)).2 := by
  obtain ⟨st, hst, hdeferred, hintime, hcooling⟩ := h
  have hnow := hover st hst
  simp only [SharerVideoStates.step, sendDeferredKeyframeRequest, hst, hdeferred, Bool.not_true,
    Bool.false_eq_true, if_false, not_lt.mpr hintime]
  rw [Coalescer.allow_of_not_cooling hnow]
  exact sentSince_of_reachable hreachable (Coalescer.lt_of_cooling hcooling hnow).le

/-! ### Runs -/

/-- While the share runs, an open request stays open until it is answered. -/
theorem Open.run (h : Open stream t sts) (hvalid : videoStreamValid stream = true)
    {calls : List KeyframeCall} (hrunning : ∀ c ∈ calls, c.WhileRunning stream) :
    SentSince stream t (sts.run calls).2 ∨ Open stream t (sts.run calls).1 ∨
      ∃ k, .frameForwarded stream true k ∈ calls := by
  induction calls generalizing sts with
  | nil => exact .inr (.inl h)
  | cons c calls ih =>
      rw [run_cons]
      rcases h.step (hrunning c (by simp)) hvalid with hsent | hopen | ⟨k, rfl⟩
      · exact .inl (hsent.append_left _)
      · rcases ih hopen fun c' hc' => hrunning c' (by simp [hc']) with hsent | hopen | ⟨k, hk⟩
        · exact .inl (hsent.append_right _)
        · exact .inr (.inl hopen)
        · exact .inr (.inr ⟨k, by simp [hk]⟩)
      · exact .inr (.inr ⟨k, by simp⟩)

end SharerVideoStates

open SharerVideoStates

/-- The step of the states alone. -/
abbrev keyframeStep (sts : SharerVideoStates) (c : KeyframeCall) : SharerVideoStates :=
  (SharerVideoStates.step sts c).1

theorem answered_of_absorbedInTime {calls : List KeyframeCall}
    (htimely : Machine.AllSteps keyframeStep Timely (fun _ => none) calls)
    (habsorbed : Machine.AllSteps keyframeStep AbsorbedInTime (fun _ => none) calls) :
    Answered calls := by
  rintro pre stream requester t deferUs reachable mid passUs reachable' post rfl hvalid hrunning hover
  have htimely' := (Machine.allSteps_append.mp htimely).2.1
  have habsorbed' := (Machine.allSteps_append.mp habsorbed).2.1
  rw [← run_fst] at htimely' habsorbed'
  have hreachable : KeyframeCall.WhileRunning stream
      (.request stream requester t deferUs reachable) := hrunning _ (by simp)
  have hreachable' : KeyframeCall.WhileRunning stream
      (.deferredPass stream passUs reachable') := hrunning _ (by simp)
  have hrequest := request_open hvalid htimely' habsorbed' (hreachable rfl)
  rw [run_cons, run_append, run_cons]
  rw [run_append, run_cons] at hover
  rcases hrequest with hsent | hopen
  · exact .inl (hsent.append_left _)
  · have hmid : ∀ c ∈ mid, c.WhileRunning stream := fun c hc => hrunning c (by simp [hc])
    rcases hopen.run hvalid hmid with hsent | hopen | hkeyframe
    · exact .inl ((hsent.append_left _).append_right _)
    · have hpass := hopen.pass hover (hreachable' rfl)
      exact .inl (((hpass.append_left _).append_right _).append_right _)
    · exact .inr hkeyframe

/-- A request absorbed by a deferred one that is older than the last keyframe is
lost at the next pass: it is cancelled together with the older one. -/
theorem not_answered_of_stale {pre : List KeyframeCall} {stream : StreamId} {requester : UserId}
    {t deferUs : Int} (hvalid : videoStreamValid stream = true)
    (hstale : ¬ AbsorbedInTime (SharerVideoStates.run (fun _ => none) pre).1
      (.request stream requester t deferUs true)) :
    ∃ passUs, ¬ Answered (pre ++ [.request stream requester t deferUs true,
      .deferredPass stream passUs true]) := by
  simp only [AbsorbedInTime, not_forall, not_le] at hstale
  obtain ⟨st, hst, hcooling, hdeferred, hlate⟩ := hstale
  have hrequest : ((SharerVideoStates.run (fun _ => none) pre).1.step
      (.request stream requester t deferUs true)) =
        ((SharerVideoStates.run (fun _ => none) pre).1, []) := by
    have hst' : (SharerVideoStates.run (fun _ => none) pre).1 stream = some st := hst
    have hkept : Function.update (SharerVideoStates.run (fun _ => none) pre).1 stream (some st) =
        (SharerVideoStates.run (fun _ => none) pre).1 := by
      rw [← hst', Function.update_eq_self]
    simp only [SharerVideoStates.step, requestKeyframeFromSharer, hvalid, Bool.not_true,
      Bool.false_eq_true, if_false, hst', Option.getD_some]
    rw [Coalescer.allow_of_cooling hcooling]
    simp [hdeferred, hkept]
  refine ⟨st.pli.lastUs + VIDEO_KEYFRAME_REQUEST_COOLDOWN_MS * 1000, fun hanswered => ?_⟩
  have hanswer := hanswered pre stream requester t deferUs true [] _ true [] rfl hvalid
    (by simp [KeyframeCall.WhileRunning]) ?_
  · rw [run_cons, hrequest, List.nil_append, run_cons, run_nil] at hanswer
    have hst' : (SharerVideoStates.run (fun _ => none) pre).1 stream = some st := hst
    simp only [SharerVideoStates.step, sendDeferredKeyframeRequest, hst', hdeferred, Bool.not_true,
      Bool.false_eq_true, if_false, hlate, if_true] at hanswer
    simp at hanswer
  · rw [run_append, run_cons, hrequest, run_nil]
    intro st' hst''
    obtain rfl : st = st' := Option.some.inj (hst.symm.trans hst'')
    have hover : ¬ (st.pli.cooling (st.pli.lastUs +
        VIDEO_KEYFRAME_REQUEST_COOLDOWN_MS * 1000) = true) := by
      rw [Coalescer.cooling_iff]
      omega
    simpa using hover

/-! ### Spacing -/

namespace SharerVideoStates

/-- The last request for `stream` was allowed no earlier than `t`. -/
def AllowedSince (stream : StreamId) (t : Int) (sts : SharerVideoStates) : Prop :=
  ∃ st, sts stream = some st ∧ t ≤ st.pli.lastUs

variable {stream : StreamId} {t : Int} {sts : SharerVideoStates} {c : KeyframeCall}

/-- A request is sent outside the cooldown and starts the next one. -/
theorem step_sent {sent : KeyframeRequest} (hsent : sent ∈ (sts.step c).2)
    (htimely : Timely sts c) :
    0 < sent.nowUs ∧ ((sts sent.stream).getD {}).pli.cooling sent.nowUs = false ∧
      AllowedSince sent.stream sent.nowUs (sts.step c).1 := by
  cases c with
  | frameForwarded s keyframe nowUs => cases hsent
  | request s requester nowUs deferUs reachable =>
      simp only [SharerVideoStates.step, requestKeyframeFromSharer] at hsent ⊢
      split at hsent
      · cases hsent
      next hvalid =>
        rw [if_neg hvalid]
        cases hnow : ((sts s).getD {}).pli.cooling nowUs with
        | true =>
            rw [Coalescer.allow_of_cooling hnow] at hsent
            cases hsent
        | false =>
            rw [Coalescer.allow_of_not_cooling hnow] at hsent ⊢
            simp only [Bool.not_true, Bool.false_eq_true, if_false, sendKeyframeRequest] at hsent
            cases reachable with
            | false => cases hsent
            | true =>
                obtain rfl := List.mem_singleton.mp hsent
                exact ⟨htimely.1, hnow, _, Function.update_self .., le_rfl⟩
  | deferredPass s nowUs reachable =>
      simp only [SharerVideoStates.step, sendDeferredKeyframeRequest] at hsent ⊢
      cases hst : sts s with
      | none =>
          rw [hst] at hsent
          cases hsent
      | some st =>
          simp only [hst] at hsent ⊢
          split at hsent
          · cases hsent
          next hdeferred =>
            rw [if_neg hdeferred]
            split at hsent
            · cases hsent
            next hintime =>
              rw [if_neg hintime]
              cases hnow : st.pli.cooling nowUs with
              | true =>
                  rw [Coalescer.allow_of_cooling hnow] at hsent
                  cases hsent
              | false =>
                  rw [Coalescer.allow_of_not_cooling hnow] at hsent ⊢
                  simp only [Bool.not_true, Bool.false_eq_true, if_false, sendKeyframeRequest]
                    at hsent
                  cases reachable with
                  | false => cases hsent
                  | true =>
                      obtain rfl := List.mem_singleton.mp hsent
                      refine ⟨htimely, ?_, _, Function.update_self .., le_rfl⟩
                      simpa [hst] using hnow
  | shareStopped s => cases hsent

/-- Within a share the cooldown only moves forward. -/
theorem AllowedSince.step (h : AllowedSince stream t sts) (ht : 0 < t) (htimely : Timely sts c)
    (hstop : c ≠ .shareStopped stream) : AllowedSince stream t (sts.step c).1 := by
  obtain ⟨st, hst, hlast⟩ := h
  have hother : ∀ sts' : SharerVideoStates, sts' stream = sts stream →
      AllowedSince stream t sts' := fun sts' heq => ⟨st, heq.trans hst, hlast⟩
  -- an allowed event is not earlier than the last one
  have hallowed : ∀ nowUs, st.pli.cooling nowUs = false → t ≤ nowUs := by
    intro nowUs hnow
    have hnot : ¬ (st.pli.lastUs ≠ 0 ∧
        nowUs - st.pli.lastUs < VIDEO_KEYFRAME_REQUEST_COOLDOWN_MS * 1000) := by
      rw [← Coalescer.cooling_iff, hnow]
      simp
    simp only [VIDEO_KEYFRAME_REQUEST_COOLDOWN_MS] at hnot
    omega
  cases c with
  | frameForwarded s keyframe nowUs =>
      by_cases hs : s = stream
      · subst hs
        refine ⟨_, Function.update_self .., ?_⟩
        simp only [hst, Option.getD_some]
        split <;> exact hlast
      · exact hother _ (Function.update_of_ne (Ne.symm hs) ..)
  | request s requester nowUs deferUs reachable =>
      simp only [SharerVideoStates.step, requestKeyframeFromSharer]
      split
      · exact hother _ rfl
      · by_cases hs : s = stream
        · subst hs
          simp only [hst, Option.getD_some]
          cases hnow : st.pli.cooling nowUs with
          | true =>
              rw [Coalescer.allow_of_cooling hnow]
              refine ⟨_, Function.update_self .., ?_⟩
              split <;> exact hlast
          | false =>
              rw [Coalescer.allow_of_not_cooling hnow]
              exact ⟨_, Function.update_self .., hallowed nowUs hnow⟩
        · split <;> exact hother _ (Function.update_of_ne (Ne.symm hs) ..)
  | deferredPass s nowUs reachable =>
      by_cases hs : s = stream
      · subst hs
        simp only [SharerVideoStates.step, sendDeferredKeyframeRequest, hst]
        split
        · exact hother _ rfl
        · split
          · exact ⟨_, Function.update_self .., hlast⟩
          · cases hnow : st.pli.cooling nowUs with
            | true =>
                rw [Coalescer.allow_of_cooling hnow]
                exact hother _ rfl
            | false =>
                rw [Coalescer.allow_of_not_cooling hnow]
                exact ⟨_, Function.update_self .., hallowed nowUs hnow⟩
      · refine hother _ ?_
        simp only [SharerVideoStates.step, sendDeferredKeyframeRequest]
        split
        · rfl
        · split
          · rfl
          · split
            · simp [Function.update_of_ne (Ne.symm hs)]
            · split <;> simp [Function.update_of_ne (Ne.symm hs)]
  | shareStopped s =>
      have hs : stream ≠ s := fun heq => hstop (by rw [heq])
      exact hother _ (Function.update_of_ne hs ..)

theorem AllowedSince.run (h : AllowedSince stream t sts) (ht : 0 < t) {calls : List KeyframeCall}
    (htimely : Machine.AllSteps keyframeStep Timely sts calls)
    (hstop : .shareStopped stream ∉ calls) : AllowedSince stream t (sts.run calls).1 := by
  induction calls generalizing sts with
  | nil => exact h
  | cons c calls ih =>
      rw [run_cons]
      have hc : c ≠ .shareStopped stream := fun heq => hstop (by simp [heq])
      exact ih (h.step ht htimely.1 hc) htimely.2 fun hin => hstop (by simp [hin])

end SharerVideoStates

theorem spaced_of_timely {calls : List KeyframeCall}
    (htimely : Machine.AllSteps keyframeStep Timely (fun _ => none) calls) : Spaced calls := by
  rintro pre c mid c' post rfl sent hsent sent' hsent' hstream hstop
  obtain ⟨_, htimelyc, htimelyrest⟩ := Machine.allSteps_append.mp htimely
  obtain ⟨htimelymid, htimelyc', _⟩ := Machine.allSteps_append.mp htimelyrest
  rw [← run_fst] at htimelyc htimelymid
  rw [← run_fst, ← run_fst] at htimelyc'
  rw [run_append, run_cons] at hsent'
  obtain ⟨hpos, _, hsince⟩ := step_sent hsent htimelyc
  obtain ⟨st, hst, hlast⟩ := hsince.run hpos htimelymid hstop
  obtain ⟨_, hover, _⟩ := step_sent hsent' htimelyc'
  rw [hstream] at hst
  dsimp only at hover
  rw [hst, Option.getD_some] at hover
  have hnot : ¬ (st.pli.lastUs ≠ 0 ∧
      sent'.nowUs - st.pli.lastUs < VIDEO_KEYFRAME_REQUEST_COOLDOWN_MS * 1000) := by
    rw [← Coalescer.cooling_iff, hover]
    simp
  omega

end Parties

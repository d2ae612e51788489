import Parties.Server.CameraNotices

/-!
# What a request does to the own camera

The requests of the session itself and the deletion of its channel move the session, start
its camera or end it. Each answer is exact up to repeated notices of a start: whenever the
listing of the camera ends, the session is told so once, while it is still in the channel.
-/

namespace Parties

open Parties.Video

namespace Server

/-- The end of a listing is told if there was one. -/
def endNotice (lists : Bool) : List Notice := if lists then [.stopped] else []

/-- The server keeps the listing, or it ends the listing and says so once. -/
def Kept (lists' lists : Bool) (news : List Notice) : Prop :=
  (lists' = lists ∧ .stopped ∉ news) ∨ (lists' = false ∧ news.count .stopped = lists.toNat)

theorem kept_nil (lists : Bool) : Kept lists lists [] := .inl ⟨rfl, List.not_mem_nil⟩

theorem kept_end (lists : Bool) {news : List Notice} (h : .stopped ∉ news) :
    Kept false lists (endNotice lists ++ news) := by
  refine .inr ⟨rfl, ?_⟩
  rw [List.count_append, List.count_eq_zero_of_not_mem h]
  cases lists <;> rfl

/-- From `s` the session gets to `channel`, with its camera listed or not, and hears `news`. -/
structure Turns (sid : SessionId) (user : UserId) (channel : ChannelId) (lists : Bool)
    (news : List Notice) (s s' : Server) : Prop where
  tells : Tells sid user news s s'
  hosts : s'.Hosts sid user channel lists

variable {s s' s'' : Server} {sid other : SessionId} {user : UserId} {news news' : List Notice}
  {channel c : ChannelId} {lists l : Bool}

namespace Turns

theorem aside (h : Turns sid user channel lists news s s') (h' : Aside sid user s' s'') :
    Turns sid user channel lists news s s'' where
  tells := List.append_nil news ▸ h.tells.trans h'.toTells
  hosts := h'.hosts h.hosts

theorem after (h : Aside sid user s s') (h' : Turns sid user channel lists news s' s'') :
    Turns sid user channel lists news s s'' where
  tells := h.toTells.trans h'.tells
  hosts := h'.hosts

theorem trans (h : Turns sid user c l news s s') (h' : Turns sid user channel lists news' s' s'') :
    Turns sid user channel lists (news ++ news') s s'' where
  tells := h.tells.trans h'.tells
  hosts := h'.hosts

end Turns

theorem Aside.turns (h : Aside sid user s s') (hs : s.Hosts sid user channel lists) :
    Turns sid user channel lists [] s s' := ⟨h.toTells, h.hosts hs⟩

/-- A loop over all sessions leaves the user aside but for its own turn. -/
theorem turns_foldl {f : Server → SessionId → Server} (hs : s.Hosts sid user c l)
    (hothers : ∀ s', s'.Signed sid user → ∀ x ∈ s'.sessionTable, x ≠ sid → Aside sid user s' (f s' x))
    (hself : ∀ s', s'.Hosts sid user c l → Turns sid user channel lists news s' (f s' sid)) :
    Turns sid user channel lists news s (s.sessionTable.foldl f s) := by
  obtain ⟨before, behind, hsplit⟩ := List.append_of_mem hs.inTable
  have hnodup := hs.nodup
  rw [hsplit] at hnodup
  have hbefore : ∀ x ∈ before, x ≠ sid := by
    rintro x hx rfl
    exact (List.nodup_append.mp hnodup).2.2 x hx x List.mem_cons_self rfl
  have hbehind : ∀ x ∈ behind, x ≠ sid := by
    rintro x hx rfl
    exact (List.nodup_cons.mp (List.nodup_append.mp hnodup).2.1).1 hx
  have hrest : ∀ (t : Server) (xs : List SessionId), t.Signed sid user →
      t.sessionTable = s.sessionTable → (∀ x ∈ xs, x ∈ s.sessionTable ∧ x ≠ sid) →
      Aside sid user t (xs.foldl f t) := by
    intro t xs ht htable hxs
    refine .foldl xs fun s' hs' x hx => hothers s' (hs'.signed ht) x ?_ (hxs x hx).2
    rw [hs'.table, htable]
    exact (hxs x hx).1
  rw [hsplit, List.foldl_append, List.foldl_cons]
  have hfirst := hrest s before hs.toSigned rfl fun x hx =>
    ⟨hsplit ▸ List.mem_append_left _ hx, hbefore x hx⟩
  have hturn := hself _ (hfirst.hosts hs)
  refine (Turns.after hfirst hturn).aside (hrest _ behind hturn.hosts.toSigned ?_ fun x hx => ?_)
  · exact hturn.tells.table.trans hfirst.table
  · exact ⟨hsplit ▸ List.mem_append_right _ (List.mem_cons_of_mem _ hx), hbehind x hx⟩

/-! ### The end of the camera -/

theorem turns_unpublish (hs : s.Hosts sid user channel true) :
    Turns sid user channel false [.stopped] s (s.unpublish channel user .camera) := by
  have hdelisted : Turns sid user channel false [] s { s with
      channelVideoStreams := Function.update s.channelVideoStreams channel
        ((s.channelVideoStreams channel).filter (· ≠ videoStreamId user .camera)) } := by
    refine ⟨.same rfl (fun _ => ⟨rfl, rfl, rfl⟩) rfl, ?_⟩
    refine ⟨⟨hs.nodup, hs.inTable, hs.authenticated, hs.owner, hs.camera, hs.packable,
      hs.others⟩, hs.place, fun d => ?_, fun _ => rfl⟩
    by_cases hd : d = channel
    · subst hd
      simp
    · have hnot := (not_congr (hs.listing d)).mpr fun hin => hd hin.1
      simpa [hd] using hnot
  have hmarked := hdelisted.aside (aside_unlisted sid user _ user (videoStreamId user .camera)
    (fun session => session.modifySource .camera fun state =>
      { state with ingressAllowed := false, generation := state.generation + 1 })
    (fun _ => ⟨rfl, rfl, rfl⟩) fun _ => rfl)
  have hcalled : ∀ (t : Server) call, Aside sid user t (t.keyframeCall call) :=
    fun t call => .elsewhere rfl rfl rfl rfl
  unfold Server.unpublish
  dsimp only
  have hready := hmarked.aside (hcalled _ (.shareStopped (videoStreamId user .camera)))
  have htold := Tells.sendToAll sid user hready.hosts.nodup
    (fun _ session => session.authenticated && session.channelId = channel &&
      (VideoSource.camera = .screen || session.supportsCamera))
    (.screenShareStopped (videoStreamId user .camera))
  rw [if_pos] at htold
  · have hnews : (ServerMessage.screenShareStopped (videoStreamId user .camera)).notice user =
        some .stopped := if_pos rfl
    rw [hnews] at htold
    refine ⟨hready.tells.trans htold, ?_⟩
    exact ⟨htold.signed hready.hosts.toSigned, hready.hosts.place, hready.hosts.listing,
      hready.hosts.nowhere⟩
  · refine ⟨hready.hosts.inTable, ?_⟩
    rw [hready.hosts.authenticated, hready.hosts.place, hready.hosts.camera]
    simp

/-- A stop ends the camera if the channel lists it. -/
theorem turns_stopCamera (hs : s.Hosts sid user channel lists) :
    Turns sid user channel false (endNotice lists) s (s.stopVideoStream channel user .camera) := by
  have hingress : ∀ ingress, Aside sid user s { s with videoIngress := ingress } :=
    fun _ => .elsewhere rfl rfl rfl rfl
  have hlisted := hs.listing channel
  unfold Server.stopVideoStream
  dsimp only
  cases lists with
  | false =>
      rw [if_pos (by simp [hlisted])]
      exact (hingress _).turns hs
  | true =>
      rw [if_neg (by simp [hlisted])]
      exact .after (hingress _) (turns_unpublish ((hingress _).hosts hs))

theorem turns_stopAll (hs : s.Hosts sid user channel lists) :
    Turns sid user channel false (endNotice lists) s (s.stopAllVideoStreams channel user) := by
  have hscreen : videoStreamId user .screen ≠ videoStreamId user .camera := by
    rw [ne_eq, videoStreamId_inj hs.packable hs.packable]
    exact fun h => VideoSource.noConfusion h.2
  have hfirst : Aside sid user s (s.stopVideoStream channel user .screen) :=
    aside_stopVideoStream s channel user hscreen
  exact .after hfirst (turns_stopCamera (hfirst.hosts hs))

/-- The session is put into a channel; a camera it has listed is listed there. -/
theorem turns_place (hs : s.Hosts sid user c lists) (channel : ChannelId)
    (hlists : lists = true → c = channel) {f : Session → Session}
    (hlogin : ∀ session, (f session).authenticated = session.authenticated ∧
      (f session).userId = session.userId ∧ (f session).protocolVersion = session.protocolVersion)
    (hplace : ∀ session, (f session).channelId = channel) :
    Turns sid user channel lists [] s (s.modifySession sid f) := by
  have hmoved : Tells sid user [] s (s.modifySession sid f) := by
    refine .same rfl (fun other => ?_) rfl
    by_cases hsid : other = sid
    · subst hsid
      rw [sessions_modifySession_self]
      exact hlogin _
    · rw [sessions_modifySession_of_ne hsid]
      exact ⟨rfl, rfl, rfl⟩
  refine ⟨hmoved, hmoved.signed hs.toSigned, ?_, fun d => ?_, fun hzero => ?_⟩
  · rw [sessions_modifySession_self]
    exact hplace _
  · refine (hs.listing d).trans (and_congr_left fun hlisted => ?_)
    rw [hlists hlisted]
  · cases hlisted : lists with
    | false => rfl
    | true =>
        have hnowhere := hs.nowhere ((hlists hlisted).trans hzero)
        rw [hlisted] at hnowhere
        exact hnowhere

theorem turns_leaveChannel (hs : s.Hosts sid user channel lists) :
    Turns sid user 0 false (endNotice lists) s (s.leaveChannel sid) := by
  unfold Server.leaveChannel
  dsimp only
  rw [hs.place, hs.owner]
  have hended : Aside sid user s (s.endShares sid) := aside_endShares s sid
  have hstopped := Turns.after hended (turns_stopAll (hended.hosts hs))
  have hcleared := hstopped.aside (aside_clearViewerSubscriptions _ sid true)
  have hout := hcleared.trans (turns_place hcleared.hosts 0 Bool.noConfusion
    (f := fun session => { session with channelId := 0 }) (fun _ => ⟨rfl, rfl, rfl⟩) fun _ => rfl)
  rw [List.append_nil] at hout
  -- the others are told, not the session itself
  exact hout.aside (.sendToAll _ _ fun hpicks => by simp at hpicks)

/-! ### The requests of the session -/

theorem turns_sendTo (hs : s.Hosts sid user channel lists) (message : ServerMessage) :
    Turns sid user channel lists (message.notice user).toList s (s.sendTo sid message) := by
  have htold := Tells.sendTo s sid user message
  exact ⟨htold, htold.signed hs.toSigned, hs.place, hs.listing, hs.nowhere⟩

/-- An announcement to the session may be one of its own camera. -/
theorem turns_announce (hs : s.Hosts sid user channel lists) (stream : StreamId)
    (publisher : SessionId) (replay : Bool) : ∃ k, Turns sid user channel lists
      (List.replicate k .started) s (s.announceVideoStream sid stream publisher replay) := by
  by_cases hcamera : stream = videoStreamId user .camera
  · unfold Server.announceVideoStream
    rw [hcamera, videoStreamSource_id]
    dsimp only
    rw [hs.camera]
    refine ⟨1, ?_⟩
    have hsent := turns_sendTo hs (.screenShareStarted (videoStreamId user .camera)
      ((s.sessions publisher).videoSources .camera).codec
      ((s.sessions publisher).videoSources .camera).width
      ((s.sessions publisher).videoSources .camera).height replay)
    rw [ServerMessage.notice, if_pos rfl] at hsent
    exact hsent
  · exact ⟨0, (aside_announceVideoStream s sid publisher replay fun _ => hcamera).turns hs⟩

theorem turns_replayStream (hs : s.Hosts sid user channel lists) (stream : StreamId) :
    ∃ k, Turns sid user channel lists (List.replicate k .started) s
      (match s.sessionForUser (videoStreamOwner stream) with
      | none => s
      | some publisher =>
        if (s.sessions publisher).authenticated then
          s.announceVideoStream sid stream publisher true
        else s) := by
  split
  · exact ⟨0, (Aside.refl sid user s).turns hs⟩
  · split
    · exact turns_announce hs _ _ _
    · exact ⟨0, (Aside.refl sid user s).turns hs⟩

theorem turns_replayStreams (hs : s.Hosts sid user channel lists) (c : ChannelId) :
    ∃ k, Turns sid user channel lists (List.replicate k .started) s (s.replayStreams sid c) := by
  unfold Server.replayStreams
  generalize s.channelVideoStreams c = streams
  induction streams generalizing s with
  | nil => exact ⟨0, (Aside.refl sid user s).turns hs⟩
  | cons stream streams ih =>
      obtain ⟨k, hk⟩ := turns_replayStream hs stream
      obtain ⟨n, hn⟩ := ih hk.hosts
      refine ⟨k + n, ?_⟩
      rw [List.foldl_cons, List.replicate_add]
      exact hk.trans hn

/-- A join is refused, or the session enters the channel. -/
theorem turns_channelJoin (hs : s.Hosts sid user c l) (channel : ChannelId)
    (voiceState : Option (Bool × Bool)) :
    Turns sid user c l [] s (s.channelJoin sid channel voiceState) ∨
      ∃ k, Turns sid user channel (l && c = channel)
        ((if c = channel then [] else endNotice l) ++ .entered channel :: List.replicate k .started)
        s (s.channelJoin sid channel voiceState) := by
  unfold Server.channelJoin
  rw [hs.authenticated]
  cases hcheck : s.checkJoin sid channel with
  | error text => exact .inl ((Aside.sendTo s sid fun _ => rfl).turns hs)
  | ok _ =>
      right
      simp only [Bool.not_true, Bool.false_eq_true, if_false]
      have hleft : ∃ c' l', Turns sid user c' l' (if c = channel then [] else endNotice l) s
          (if (s.sessions sid).channelId ≠ 0 ∧ (s.sessions sid).channelId ≠ channel then
            s.leaveChannel sid else s) ∧ (l' = true → c' = channel) ∧
            l' = (l && decide (c = channel)) := by
        rw [hs.place]
        by_cases hsame : c = channel
        · refine ⟨c, l, ?_, fun _ => hsame, by simp [hsame]⟩
          rw [if_pos hsame, if_neg fun h => h.2 hsame]
          exact (Aside.refl sid user s).turns hs
        · by_cases hzero : c = 0
          · have hnot := hs.nowhere hzero
            refine ⟨c, l, ?_, fun h => ?_, by simp [hnot]⟩
            · rw [if_neg hsame, if_neg fun h => h.1 hzero, hnot]
              exact (Aside.refl sid user s).turns (hnot ▸ hs)
            · rw [hnot] at h
              cases h
          · refine ⟨0, false, ?_, Bool.noConfusion, by simp [hsame]⟩
            rw [if_neg hsame, if_pos ⟨hzero, hsame⟩]
            exact turns_leaveChannel hs
      obtain ⟨c', l', hleft, hlists, hl⟩ := hleft
      rw [← hl]
      generalize (if (s.sessions sid).channelId ≠ 0 ∧ (s.sessions sid).channelId ≠ channel then
        s.leaveChannel sid else s) = t at hleft ⊢
      have hentered := hleft.trans (turns_place hleft.hosts channel hlists
        (f := fun session => session.enter channel voiceState)
        (fun _ => by cases voiceState <;> exact ⟨rfl, rfl, rfl⟩)
        fun _ => by cases voiceState <;> rfl)
      rw [List.append_nil] at hentered
      have hlisted := hentered.trans (turns_sendTo hentered.hosts (.channelUserList channel
        ((t.modifySession sid fun session =>
          session.enter channel voiceState).channelUsers channel)))
      obtain ⟨k, hreplayed⟩ := turns_replayStreams hlisted.hosts channel
      refine ⟨k, ?_⟩
      have hdone := hlisted.trans hreplayed
      rw [List.append_assoc] at hdone
      exact hdone.aside (.sendToAll _ _ fun _ => rfl)

theorem turns_channelLeave (hs : s.Hosts sid user channel lists) :
    Turns sid user 0 false (endNotice lists) s (s.channelLeave sid) := by
  unfold Server.channelLeave
  rw [hs.authenticated, hs.place]
  by_cases hzero : channel = 0
  · have hnot := hs.nowhere hzero
    subst hzero hnot
    exact (Aside.refl sid user s).turns hs
  · rw [if_neg (by simpa using hzero)]
    exact turns_leaveChannel hs

/-- The camera starts, if the session is in a channel. -/
theorem turns_startCamera (hs : s.Hosts sid user channel lists) (codec : BitVec 8)
    (width height : BitVec 16) : Turns sid user channel (channel ≠ 0)
      (if channel = 0 then [] else [.started]) s
      (s.screenShareStart sid codec width height 1) := by
  have hsource : videoSourceOf 1 = some .camera := rfl
  have haccepts : s.acceptsStart sid .camera = decide (channel ≠ 0) := by
    rw [acceptsStart, hs.authenticated, hs.place, hs.camera]
    simp
  unfold Server.screenShareStart
  rw [hsource]
  dsimp only
  rw [haccepts]
  by_cases hzero : channel = 0
  · have hnot := hs.nowhere hzero
    subst hzero hnot
    exact (Aside.refl sid user s).turns hs
  · rw [if_neg hzero, if_neg (by simpa using hzero), decide_eq_true hzero, hs.place, hs.owner]
    have hpublished : Turns sid user channel true [] s (s.publish sid .camera) := by
      have hmarked : ∀ t : Server, Aside sid user t (t.modifySession sid fun session =>
          session.modifySource .camera fun state => { state with ingressAllowed := true }) :=
        fun t => .modifySession t sid (fun _ => ⟨rfl, rfl, rfl⟩) fun _ _ => rfl
      unfold Server.publish
      dsimp only
      rw [hs.place, hs.owner]
      refine Turns.aside ?_ (hmarked _)
      refine ⟨.same rfl (fun _ => ⟨rfl, rfl, rfl⟩) rfl, ⟨hs.nodup, hs.inTable, hs.authenticated,
        hs.owner, hs.camera, hs.packable, hs.others⟩, hs.place, fun d => ?_,
        fun h => absurd h hzero⟩
      by_cases hd : d = channel
      · subst hd
        dsimp only
        rw [Function.update_self]
        split
        next hin =>
          simp [hin]
        · simp
      · have hnot := (not_congr (hs.listing d)).mpr fun hin => hd hin.1
        simp [hd, hnot]
    have hlogged : ∀ t : Server, Aside sid user t (t.logStart sid .camera) :=
      fun t => .elsewhere rfl rfl rfl rfl
    have hready := (hpublished.aside (aside_setSourceInfo _ sid .camera codec width height)).aside
      (hlogged _)
    refine hready.trans (turns_foldl hready.hosts (fun s' hs' x hx hne => ?_) fun s' hs' => ?_)
    · split
      · exact aside_announceVideoStream s' x sid false fun hsid => absurd hsid hne
      · exact .refl sid user s'
    · rw [hs'.authenticated, hs'.place, if_pos (by simp)]
      unfold Server.announceVideoStream
      rw [videoStreamSource_id]
      dsimp only
      rw [hs'.camera]
      have hsent := turns_sendTo hs' (.screenShareStarted (videoStreamId user .camera)
        ((s'.sessions sid).videoSources .camera).codec
        ((s'.sessions sid).videoSources .camera).width
        ((s'.sessions sid).videoSources .camera).height false)
      rw [ServerMessage.notice, if_pos rfl] at hsent
      exact hsent

theorem turns_endCamera (hs : s.Hosts sid user channel lists) :
    Turns sid user channel false (endNotice lists) s (s.screenShareStop sid 1) := by
  have hsource : videoSourceOf 1 = some .camera := rfl
  unfold Server.screenShareStop
  dsimp only
  rw [hsource, hs.authenticated, hs.place, hs.owner]
  by_cases hzero : channel = 0
  · have hnot := hs.nowhere hzero
    subst hzero hnot
    exact (Aside.refl sid user s).turns hs
  · rw [if_neg (by simpa using hzero)]
    have hended : Aside sid user s (s.endShare sid .camera) := .elsewhere rfl rfl rfl rfl
    exact .after hended (turns_stopCamera (hended.hosts hs))

/-! ### The deletion of a channel -/

theorem turns_evictStreams (hs : s.Hosts sid user channel lists) :
    Turns sid user channel false (endNotice lists) s (s.evictStreams channel) := by
  unfold Server.evictStreams
  refine turns_foldl hs (fun s' hs' x hx hne => ?_) fun s' hs' => ?_
  · split
    next hthere =>
      refine (aside_endShares s' x).trans ?_
      refine Aside.trans ?_ (aside_clearViewerSubscriptions _ x false)
      exact aside_stopAllVideoStreams _ _ (hs'.stream_ne hx hthere.1 hne)
    · exact .refl sid user s'
  · rw [if_pos ⟨hs'.authenticated, hs'.place⟩, hs'.owner]
    have hended : Aside sid user s' (s'.endShares sid) := aside_endShares s' sid
    exact (Turns.after hended (turns_stopAll (hended.hosts hs'))).aside
      (aside_clearViewerSubscriptions _ sid false)

theorem turns_evictUsers (hs : s.Hosts sid user channel false) :
    Turns sid user 0 false [.left channel] s (s.evictUsers channel) := by
  unfold Server.evictUsers
  refine turns_foldl hs (fun s' hs' x hx hne => ?_) fun s' hs' => ?_
  · split
    · refine Aside.trans ?_ (.sendTo _ _ fun hsid => absurd hsid hne)
      exact .modifySession s' x (fun _ => ⟨rfl, rfl, rfl⟩) fun hsid => absurd hsid hne
    · exact .refl sid user s'
  · rw [if_pos ⟨hs'.authenticated, hs'.place⟩, hs'.owner]
    have hout := turns_place hs' 0 Bool.noConfusion (f := fun session =>
      { session with channelId := 0 }) (fun _ => ⟨rfl, rfl, rfl⟩) fun _ => rfl
    have hsent := hout.trans (turns_sendTo hout.hosts (.userLeftChannel user channel))
    rw [ServerMessage.notice, if_pos rfl] at hsent
    exact hsent

/-- A channel the session is not in is emptied. -/
theorem aside_evicted (hs : s.Hosts sid user c lists) (hne : c ≠ channel) :
    Aside sid user s ((s.evictStreams channel).evictUsers channel) := by
  have hstreams : Aside sid user s (s.evictStreams channel) := by
    unfold Server.evictStreams
    refine .foldl _ fun s' hs' x hx => ?_
    split
    next hthere =>
      have hother : x ≠ sid := by
        rintro rfl
        exact hne ((hs'.hosts hs).place.symm.trans hthere.2)
      refine (aside_endShares s' x).trans ?_
      refine Aside.trans ?_ (aside_clearViewerSubscriptions _ x false)
      refine aside_stopAllVideoStreams _ _ ((hs'.signed hs.toSigned).stream_ne ?_ hthere.1 hother)
      rw [hs'.table]
      exact hx
    · exact .refl sid user s'
  refine hstreams.trans ?_
  unfold Server.evictUsers
  refine .foldl _ fun s' hs' x _ => ?_
  split
  next hthere =>
    have hother : x ≠ sid := by
      rintro rfl
      exact hne ((hs'.hosts (hstreams.hosts hs)).place.symm.trans hthere.2)
    refine Aside.trans ?_ (.sendTo _ _ fun hsid => absurd hsid hother)
    exact .modifySession s' x (fun _ => ⟨rfl, rfl, rfl⟩) fun hsid => absurd hsid hother
  · exact .refl sid user s'

/-- A deletion leaves the session alone or takes it out of its channel. -/
theorem turns_adminDeleteChannel (hs : s.Hosts sid user c l) (x : SessionId) (channel : ChannelId)
    (dbOk : Bool) : Turns sid user c l [] s (s.adminDeleteChannel x channel dbOk) ∨
      Turns sid user 0 false (endNotice l ++ [.left c]) s (s.adminDeleteChannel x channel dbOk) := by
  have hanswered : ∀ (t : Server) message, ServerMessage.notice user message = none →
      Aside sid user t (t.sendTo x message) := fun t message h => .sendTo t x fun _ => h
  have hdone : ∀ t : Server, Aside sid user t (if !dbOk then
      t.sendError x "Failed to delete channel"
    else { t with db := t.db.deleteChannel channel }.sendTo x (.adminResult "Channel deleted")) := by
    intro t
    split
    · exact hanswered t _ rfl
    · have hdeleted : Aside sid user t { t with db := t.db.deleteChannel channel } :=
        .elsewhere rfl rfl rfl rfl
      exact hdeleted.trans (hanswered _ _ rfl)
  unfold Server.adminDeleteChannel
  split
  · exact .inl ((Aside.refl sid user s).turns hs)
  · split
    · exact .inl ((hanswered s _ rfl).turns hs)
    · by_cases hthere : c = channel
      · subst hthere
        right
        have hstreams := turns_evictStreams hs
        exact (hstreams.trans (turns_evictUsers hstreams.hosts)).aside (hdone _)
      · exact .inl (((aside_evicted hs hthere).trans (hdone _)).turns hs)

/-! ### All requests -/

/-- The request of another session. -/
theorem turns_other (hs : s.Hosts sid user c l) (hne : other ≠ sid) {message : ControlMessage}
    (hkeeps : message.KeepsSessions) : ∃ channel lists news,
      Turns sid user channel lists news s (s.handleMessage other message) ∧ Kept lists l news := by
  have hkept : ∀ s', Aside sid user s s' → ∃ channel lists news,
      Turns sid user channel lists news s s' ∧ Kept lists l news :=
    fun s' h => ⟨c, l, [], h.turns hs, kept_nil l⟩
  unfold handleMessage
  by_cases hin : other ∈ s.sessionTable
  · rw [getSession, if_pos hin]
    have hsigned := hs.toSigned
    cases message with
    | authIdentity => exact hkeeps.elim
    | adminKickUser => exact hkeeps.elim
    | adminDeleteChannel channel dbOk =>
        obtain hsame | hout := turns_adminDeleteChannel hs other channel dbOk
        · exact ⟨c, l, [], hsame, kept_nil l⟩
        · exact ⟨0, false, _, hout, kept_end l (by simp)⟩
    | channelJoin channel voiceState =>
        exact hkept _ (aside_channelJoin hsigned hin hne channel voiceState)
    | channelLeave => exact hkept _ (aside_channelLeave hsigned hin hne)
    | adminCreateChannel => exact hkept _ (aside_adminCreateChannel s other _ _ _)
    | adminSetRole => exact hkept _ (aside_adminSetRole s other _ _ _)
    | screenShareStart => exact hkept _ (aside_screenShareStart hsigned hin hne _ _ _ _)
    | screenShareUpdate => exact hkept _ (aside_screenShareUpdate s other _ _ _ _)
    | screenShareStop => exact hkept _ (aside_screenShareStop hsigned hin hne _)
    | screenShareView => exact hkept _ (aside_screenShareView s other _ _)
  · rw [getSession, if_neg hin]
    exact hkept _ (.refl sid user s)

end Server

end Parties

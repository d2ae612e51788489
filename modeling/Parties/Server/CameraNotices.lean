import Parties.Server.ChannelCapacity

/-!
# What a user is told about the own camera

A client follows its camera by four notices: it entered a channel, its camera started, its
camera stopped, it was taken out of its channel. Every request, of this session or of another
one, is reduced here to what it does to the channel of the session, to the listing of the
camera there, and to the notices it sends. Requests that log users in or kick them are left
out: they end sessions.
-/

namespace Parties

open Parties.Video

inductive Notice where
  | entered (channel : ChannelId)
  | started
  | stopped
  | left (channel : ChannelId)
deriving DecidableEq, Repr

def ServerMessage.notice (user : UserId) : ServerMessage → Option Notice
  | .channelUserList channel _ => some (.entered channel)
  | .screenShareStarted stream _ _ _ _ =>
    if stream = videoStreamId user .camera then some .started else none
  | .screenShareStopped stream =>
    if stream = videoStreamId user .camera then some .stopped else none
  | .userLeftChannel u channel => if u = user then some (.left channel) else none
  | _ => none

/-- The requests that leave the sessions signed in. -/
def ControlMessage.KeepsSessions : ControlMessage → Prop
  | .authIdentity .. | .adminKickUser _ => False
  | _ => True

instance : (message : ControlMessage) → Decidable message.KeepsSessions
  | .authIdentity .. | .adminKickUser _ => isFalse id
  | .channelJoin .. | .channelLeave | .adminCreateChannel .. | .adminDeleteChannel ..
  | .adminSetRole .. | .screenShareStart .. | .screenShareUpdate .. | .screenShareStop _
  | .screenShareView .. => isTrue trivial

namespace Server

/-- The notices for a user among the messages to a session. -/
def noticesTo (sid : SessionId) (user : UserId) (sent : List (SessionId × ServerMessage)) :
    List Notice :=
  sent.filterMap fun m => if m.1 = sid then m.2.notice user else none

/-- From `s` to `s'` everyone stays signed in, and the session is sent `news`. -/
structure Tells (sid : SessionId) (user : UserId) (news : List Notice) (s s' : Server) : Prop where
  table : s'.sessionTable = s.sessionTable
  logins : ∀ other, (s'.sessions other).authenticated = (s.sessions other).authenticated ∧
    (s'.sessions other).userId = (s.sessions other).userId ∧
    (s'.sessions other).protocolVersion = (s.sessions other).protocolVersion
  told : ∃ added, s'.sent = s.sent ++ added ∧ noticesTo sid user added = news

/-- Nothing happens to the session or to the camera of the user. -/
structure Aside (sid : SessionId) (user : UserId) (s s' : Server) : Prop extends
    Tells sid user [] s s' where
  place : (s'.sessions sid).channelId = (s.sessions sid).channelId
  listing : ∀ channel, videoStreamId user .camera ∈ s'.channelVideoStreams channel ↔
    videoStreamId user .camera ∈ s.channelVideoStreams channel

/-- The session of the user; nobody else is signed in as that user. -/
structure Signed (s : Server) (sid : SessionId) (user : UserId) : Prop where
  nodup : s.sessionTable.Nodup
  inTable : sid ∈ s.sessionTable
  authenticated : (s.sessions sid).authenticated = true
  owner : (s.sessions sid).userId = user
  camera : (s.sessions sid).supportsCamera = true
  packable : user.Packable
  others : ∀ other ∈ s.sessionTable, (s.sessions other).authenticated = true → other ≠ sid →
    (s.sessions other).userId.Packable ∧ (s.sessions other).userId ≠ user

/-- The session is in the channel, and its camera is listed there if `lists`, and nowhere
else. -/
structure Hosts (s : Server) (sid : SessionId) (user : UserId) (channel : ChannelId)
    (lists : Bool) : Prop extends Signed s sid user where
  place : (s.sessions sid).channelId = channel
  listing : ∀ c, videoStreamId user .camera ∈ s.channelVideoStreams c ↔ c = channel ∧ lists = true
  nowhere : channel = 0 → lists = false

variable {s s' s'' : Server} {sid other : SessionId} {user : UserId} {news news' : List Notice}
  {channel : ChannelId} {lists : Bool}

theorem sessions_modifySession_self (s : Server) (sid : SessionId) (f : Session → Session) :
    (s.modifySession sid f).sessions sid = f (s.sessions sid) := Function.update_self ..

theorem sessions_modifySession_of_ne (h : other ≠ sid) (f : Session → Session) :
    (s.modifySession sid f).sessions other = s.sessions other := Function.update_of_ne h ..

/-! ### Notices -/

theorem noticesTo_append (sent added : List (SessionId × ServerMessage)) :
    noticesTo sid user (sent ++ added) = noticesTo sid user sent ++ noticesTo sid user added :=
  List.filterMap_append

/-- A broadcast reaches the session once. -/
theorem noticesTo_broadcast {table : List SessionId} (hnodup : table.Nodup)
    (message : ServerMessage) :
    noticesTo sid user (table.map fun x => (x, message)) =
      if sid ∈ table then (message.notice user).toList else [] := by
  induction table with
  | nil => rfl
  | cons x rest ih =>
      obtain ⟨hx, hrest⟩ := List.nodup_cons.mp hnodup
      have htail := ih hrest
      rw [noticesTo] at htail
      rw [List.map_cons, noticesTo, List.filterMap_cons, htail]
      by_cases hsid : x = sid
      · subst hsid
        rw [if_neg hx]
        cases message.notice user <;> simp
      · simp [hsid, Ne.symm hsid]

theorem noticesTo_of_none {sent : List (SessionId × ServerMessage)}
    (h : ∀ m ∈ sent, m.1 = sid → m.2.notice user = none) : noticesTo sid user sent = [] := by
  rw [noticesTo, List.filterMap_eq_nil_iff]
  intro m hm
  split
  next hsid =>
    exact h m hm hsid
  · rfl

/-! ### Composition -/

namespace Tells

theorem trans (h : Tells sid user news s s') (h' : Tells sid user news' s' s'') :
    Tells sid user (news ++ news') s s'' where
  table := h'.table.trans h.table
  logins other := by
    obtain ⟨hauth, huser, hversion⟩ := h.logins other
    obtain ⟨hauth', huser', hversion'⟩ := h'.logins other
    exact ⟨hauth'.trans hauth, huser'.trans huser, hversion'.trans hversion⟩
  told := by
    obtain ⟨added, hsent, hnews⟩ := h.told
    obtain ⟨more, hsent', hnews'⟩ := h'.told
    refine ⟨added ++ more, by rw [hsent', hsent, List.append_assoc], ?_⟩
    rw [noticesTo_append, hnews, hnews']

/-- Who is signed in stays so. -/
theorem signed (h : Tells sid user news s s') (hs : s.Signed sid user) : s'.Signed sid user where
  nodup := h.table ▸ hs.nodup
  inTable := h.table ▸ hs.inTable
  authenticated := (h.logins sid).1.trans hs.authenticated
  owner := (h.logins sid).2.1.trans hs.owner
  camera := by
    rw [Session.supportsCamera, (h.logins sid).2.2]
    exact hs.camera
  packable := hs.packable
  others other hin hauth hne := by
    rw [(h.logins other).2.1]
    exact hs.others other (h.table ▸ hin) ((h.logins other).1 ▸ hauth) hne

/-- The fields the relation looks at are the same. -/
theorem same (htable : s'.sessionTable = s.sessionTable)
    (hlogins : ∀ other, (s'.sessions other).authenticated = (s.sessions other).authenticated ∧
      (s'.sessions other).userId = (s.sessions other).userId ∧
      (s'.sessions other).protocolVersion = (s.sessions other).protocolVersion)
    (hsent : s'.sent = s.sent) : Tells sid user [] s s' where
  table := htable
  logins := hlogins
  told := ⟨[], by rw [hsent, List.append_nil], rfl⟩

theorem sendTo (s : Server) (sid : SessionId) (user : UserId) (message : ServerMessage) :
    Tells sid user (message.notice user).toList s (s.sendTo sid message) where
  table := rfl
  logins _ := ⟨rfl, rfl, rfl⟩
  told := by
    refine ⟨[(sid, message)], rfl, ?_⟩
    cases hnotice : message.notice user <;> simp [noticesTo, hnotice]

theorem sendToAll (sid : SessionId) (user : UserId) (hnodup : s.sessionTable.Nodup)
    (picks : SessionId → Session → Bool) (message : ServerMessage) : Tells sid user
      (if sid ∈ s.sessionTable ∧ picks sid (s.sessions sid) = true then
        (message.notice user).toList else []) s (s.sendToAll picks message) where
  table := rfl
  logins _ := ⟨rfl, rfl, rfl⟩
  told := by
    refine ⟨_, rfl, ?_⟩
    rw [noticesTo_broadcast (hnodup.filter _)]
    simp only [List.mem_filter]

end Tells

namespace Aside

theorem refl (sid : SessionId) (user : UserId) (s : Server) : Aside sid user s s where
  toTells := .same rfl (fun _ => ⟨rfl, rfl, rfl⟩) rfl
  place := rfl
  listing _ := Iff.rfl

theorem trans (h : Aside sid user s s') (h' : Aside sid user s' s'') : Aside sid user s s'' where
  toTells := h.toTells.trans h'.toTells
  place := h'.place.trans h.place
  listing channel := (h'.listing channel).trans (h.listing channel)

theorem hosts (h : Aside sid user s s') (hs : s.Hosts sid user channel lists) :
    s'.Hosts sid user channel lists where
  toSigned := h.signed hs.toSigned
  place := h.place.trans hs.place
  listing c := (h.listing c).trans (hs.listing c)
  nowhere := hs.nowhere

/-- A change outside of what is looked at here. -/
theorem elsewhere (htable : s'.sessionTable = s.sessionTable) (hsessions : s'.sessions = s.sessions)
    (hstreams : s'.channelVideoStreams = s.channelVideoStreams) (hsent : s'.sent = s.sent) :
    Aside sid user s s' where
  toTells := .same htable (fun _ => hsessions ▸ ⟨rfl, rfl, rfl⟩) hsent
  place := by rw [hsessions]
  listing _ := by rw [hstreams]

/-- A session changes, but neither its login nor, if it is the user's, its channel. -/
theorem modifySession (s : Server) (x : SessionId) {f : Session → Session}
    (hlogin : ∀ session, (f session).authenticated = session.authenticated ∧
      (f session).userId = session.userId ∧ (f session).protocolVersion = session.protocolVersion)
    (hplace : x = sid → ∀ session, (f session).channelId = session.channelId) :
    Aside sid user s (s.modifySession x f) where
  toTells := by
    refine .same rfl (fun other => ?_) rfl
    by_cases hx : other = x
    · subst hx
      rw [sessions_modifySession_self]
      exact hlogin _
    · rw [sessions_modifySession_of_ne hx]
      exact ⟨rfl, rfl, rfl⟩
  place := by
    by_cases hx : sid = x
    · subst hx
      rw [sessions_modifySession_self]
      exact hplace rfl _
    · rw [sessions_modifySession_of_ne hx]
  listing _ := Iff.rfl

theorem modifySessions (s : Server) {f : Session → Session}
    (hlogin : ∀ session, (f session).authenticated = session.authenticated ∧
      (f session).userId = session.userId ∧ (f session).protocolVersion = session.protocolVersion)
    (hplace : ∀ session, (f session).channelId = session.channelId) :
    Aside sid user s (s.modifySessions f) where
  toTells := by
    refine .same rfl (fun other => ?_) rfl
    rw [Server.modifySessions]
    dsimp only
    split
    · exact hlogin _
    · exact ⟨rfl, rfl, rfl⟩
  place := by
    rw [Server.modifySessions]
    dsimp only
    split
    · exact hplace _
    · rfl
  listing _ := Iff.rfl

theorem sendTo (s : Server) (x : SessionId) {message : ServerMessage}
    (h : x = sid → message.notice user = none) : Aside sid user s (s.sendTo x message) where
  toTells := by
    refine ⟨rfl, fun _ => ⟨rfl, rfl, rfl⟩, [(x, message)], rfl, ?_⟩
    apply noticesTo_of_none
    intro m hm hsid
    obtain rfl := List.mem_singleton.mp hm
    exact h hsid
  place := rfl
  listing _ := Iff.rfl

theorem sendToAll (s : Server) (picks : SessionId → Session → Bool) {message : ServerMessage}
    (h : picks sid (s.sessions sid) = true → message.notice user = none) :
    Aside sid user s (s.sendToAll picks message) where
  toTells := by
    refine ⟨rfl, fun _ => ⟨rfl, rfl, rfl⟩, _, rfl, ?_⟩
    apply noticesTo_of_none
    intro m hm hsid
    obtain ⟨x, hx, rfl⟩ := List.mem_map.mp hm
    obtain rfl : x = sid := hsid
    exact h (List.mem_filter.mp hx).2
  place := rfl
  listing _ := Iff.rfl

/-- A loop whose body leaves the session and the camera alone. -/
theorem foldl {α : Type} {f : Server → α → Server} (l : List α)
    (hf : ∀ s', Aside sid user s s' → ∀ a ∈ l, Aside sid user s' (f s' a)) :
    Aside sid user s (l.foldl f s) := by
  induction l generalizing s with
  | nil => exact .refl sid user s
  | cons a l ih =>
      have hfirst := hf s (.refl sid user s) a List.mem_cons_self
      refine hfirst.trans (ih fun s' hs' a' ha' => ?_)
      exact hf s' (hfirst.trans hs') a' (List.mem_cons_of_mem a ha')

end Aside

/-! ### Streams and subscriptions -/

theorem aside_endShares (s : Server) (x : SessionId) : Aside sid user s (s.endShares x) :=
  .elsewhere rfl rfl rfl rfl

theorem aside_notifyViewerChange (s : Server) (stream : StreamId) (viewer : UserId)
    (watching : Bool) : Aside sid user s (s.notifyViewerChange stream viewer watching) := by
  unfold Server.notifyViewerChange
  split
  · exact .refl sid user s
  · split
    · exact .refl sid user s
    · split
      · exact .refl sid user s
      · split
        · exact .refl sid user s
        · exact .sendTo _ _ fun _ => rfl

theorem aside_clearViewerSubscriptions (s : Server) (x : SessionId) (notify : Bool) :
    Aside sid user s (s.clearViewerSubscriptions x notify) := by
  have hcleared : Aside sid user s (s.modifySession x Session.unsubscribeAll) :=
    .modifySession s x (fun _ => ⟨rfl, rfl, rfl⟩) fun _ _ => rfl
  unfold Server.clearViewerSubscriptions
  dsimp only
  split
  · exact hcleared
  · exact hcleared.trans (.foldl _ fun s' _ stream _ => aside_notifyViewerChange s' _ _ _)

theorem aside_announceVideoStream (s : Server) (viewer : SessionId) {stream : StreamId}
    (publisher : SessionId) (replay : Bool)
    (h : viewer = sid → stream ≠ videoStreamId user .camera) :
    Aside sid user s (s.announceVideoStream viewer stream publisher replay) := by
  unfold Server.announceVideoStream
  split
  · exact .refl sid user s
  · split
    · exact .refl sid user s
    · exact .sendTo _ _ fun hviewer => if_neg (h hviewer)

/-- What `unpublish` does to the sessions. -/
theorem aside_unlisted (sid : SessionId) (user : UserId) (s : Server) (owner : UserId)
    (stream : StreamId)
    (f : Session → Session) (hf : ∀ session, (f session).authenticated = session.authenticated ∧
      (f session).userId = session.userId ∧ (f session).protocolVersion = session.protocolVersion)
    (hplace : ∀ session, (f session).channelId = session.channelId) :
    Aside sid user s ((match s.sessionForUser owner with
      | none => s
      | some sharer => s.modifySession sharer f).modifySessions
        fun session => session.unsubscribe stream) := by
  have hunsubscribed : ∀ t : Server,
      Aside sid user t (t.modifySessions fun session => session.unsubscribe stream) :=
    fun t => .modifySessions t (fun _ => ⟨rfl, rfl, rfl⟩) fun _ => rfl
  cases s.sessionForUser owner with
  | none => exact hunsubscribed s
  | some sharer =>
      refine Aside.trans ?_ (hunsubscribed _)
      exact .modifySession s sharer hf fun _ => hplace

/-- The streams of a channel change; the camera of the user is not among them. -/
theorem aside_delist (s : Server) (channel : ChannelId) {stream : StreamId}
    (h : stream ≠ videoStreamId user .camera) :
    Aside sid user s { s with
      channelVideoStreams := Function.update s.channelVideoStreams channel
        ((s.channelVideoStreams channel).filter (· ≠ stream)) } := by
  refine ⟨.same rfl (fun _ => ⟨rfl, rfl, rfl⟩) rfl, rfl, fun c => ?_⟩
  by_cases hc : c = channel
  · subst hc
    simp [Ne.symm h]
  · simp [hc]

theorem aside_unpublish (s : Server) (channel : ChannelId) (owner : UserId)
    {source : VideoSource} (h : videoStreamId owner source ≠ videoStreamId user .camera) :
    Aside sid user s (s.unpublish channel owner source) := by
  unfold Server.unpublish
  dsimp only
  have hstopped := aside_unlisted sid user { s with
      channelVideoStreams := Function.update s.channelVideoStreams channel
        ((s.channelVideoStreams channel).filter (· ≠ videoStreamId owner source)) } owner
    (videoStreamId owner source) (fun session => session.modifySource source fun state =>
      { state with ingressAllowed := false, generation := state.generation + 1 })
    (fun _ => ⟨rfl, rfl, rfl⟩) fun _ => rfl
  refine (aside_delist s channel h).trans (hstopped.trans ?_)
  refine Aside.trans ?_ (.sendToAll _ _ fun _ => if_neg h)
  exact .elsewhere rfl rfl rfl rfl

theorem aside_stopVideoStream (s : Server) (channel : ChannelId) (owner : UserId)
    {source : VideoSource} (h : videoStreamId owner source ≠ videoStreamId user .camera) :
    Aside sid user s (s.stopVideoStream channel owner source) := by
  have hingress : ∀ ingress, Aside sid user s { s with videoIngress := ingress } :=
    fun _ => .elsewhere rfl rfl rfl rfl
  unfold Server.stopVideoStream
  dsimp only
  split
  · exact hingress _
  · exact (hingress _).trans (aside_unpublish _ channel owner h)

theorem aside_stopAllVideoStreams (s : Server) (channel : ChannelId) {owner : UserId}
    (h : ∀ source, videoStreamId owner source ≠ videoStreamId user .camera) :
    Aside sid user s (s.stopAllVideoStreams channel owner) :=
  (aside_stopVideoStream s channel owner (h .screen)).trans
    (aside_stopVideoStream _ channel owner (h .camera))

/-- The streams of the others are not the camera of the user. -/
theorem Signed.stream_ne (hs : s.Signed sid user) (hin : other ∈ s.sessionTable)
    (hauth : (s.sessions other).authenticated = true) (hne : other ≠ sid) (source : VideoSource) :
    videoStreamId (s.sessions other).userId source ≠ videoStreamId user .camera := by
  obtain ⟨hpack, howner⟩ := hs.others other hin hauth hne
  rw [ne_eq, videoStreamId_inj hpack hs.packable]
  exact fun h => howner h.1

/-! ### The requests of other sessions -/

theorem aside_leaveChannel (hs : s.Signed sid user) (hin : other ∈ s.sessionTable)
    (hauth : (s.sessions other).authenticated = true) (hne : other ≠ sid) :
    Aside sid user s (s.leaveChannel other) := by
  have howner := (hs.others other hin hauth hne).2
  unfold Server.leaveChannel
  dsimp only
  refine Aside.trans ?_ (.sendToAll _ _ fun _ => if_neg howner)
  refine Aside.trans ?_ (.modifySession _ other ?_ fun hsid => absurd hsid hne)
  · refine Aside.trans ?_ (aside_clearViewerSubscriptions _ other true)
    exact (aside_endShares s other).trans
      (aside_stopAllVideoStreams _ _ (hs.stream_ne hin hauth hne))
  · exact fun _ => ⟨rfl, rfl, rfl⟩

/-- The streams that run in a channel are replayed to someone else. -/
theorem aside_replayStreams (s : Server) (hne : other ≠ sid) (channel : ChannelId) :
    Aside sid user s (s.replayStreams other channel) := by
  unfold Server.replayStreams
  refine .foldl _ fun s' _ stream _ => ?_
  split
  · exact .refl sid user s'
  · split
    · exact aside_announceVideoStream s' other _ _ fun hsid => absurd hsid hne
    · exact .refl sid user s'

theorem aside_channelJoin (hs : s.Signed sid user) (hin : other ∈ s.sessionTable)
    (hne : other ≠ sid) (channel : ChannelId) (voiceState : Option (Bool × Bool)) :
    Aside sid user s (s.channelJoin other channel voiceState) := by
  unfold Server.channelJoin
  split
  · exact .refl sid user s
  next hauth =>
    split
    · exact .sendTo _ _ fun hsid => absurd hsid hne
    · dsimp only
      have hleft : Aside sid user s (if (s.sessions other).channelId ≠ 0 ∧
          (s.sessions other).channelId ≠ channel then s.leaveChannel other else s) := by
        split
        · exact aside_leaveChannel hs hin (by simpa using hauth) hne
        · exact .refl sid user s
      refine hleft.trans ?_
      refine Aside.trans ?_ (.sendToAll _ _ fun _ => rfl)
      refine Aside.trans ?_ (aside_replayStreams _ hne channel)
      refine Aside.trans ?_ (.sendTo _ _ fun hsid => absurd hsid hne)
      refine .modifySession _ other (fun session => ?_) fun hsid => absurd hsid hne
      cases voiceState <;> exact ⟨rfl, rfl, rfl⟩

theorem aside_channelLeave (hs : s.Signed sid user) (hin : other ∈ s.sessionTable)
    (hne : other ≠ sid) : Aside sid user s (s.channelLeave other) := by
  unfold Server.channelLeave
  split
  · exact .refl sid user s
  next hthere =>
    simp only [Bool.or_eq_true, not_or] at hthere
    exact aside_leaveChannel hs hin (by simpa using hthere.1) hne

theorem aside_publish (s : Server) (x : SessionId) {source : VideoSource}
    (h : videoStreamId (s.sessions x).userId source ≠ videoStreamId user .camera) :
    Aside sid user s (s.publish x source) := by
  unfold Server.publish
  dsimp only
  refine Aside.trans ?_ (.modifySession _ x (fun _ => ⟨rfl, rfl, rfl⟩) fun _ _ => rfl)
  refine ⟨.same rfl (fun _ => ⟨rfl, rfl, rfl⟩) rfl, rfl, fun c => ?_⟩
  by_cases hc : c = (s.sessions x).channelId
  · subst hc
    dsimp only
    rw [Function.update_self]
    split
    · exact Iff.rfl
    · simp [Ne.symm h]
  · simp [hc]

theorem aside_setSourceInfo (s : Server) (x : SessionId) (source : VideoSource) (codec : BitVec 8)
    (width height : BitVec 16) : Aside sid user s (s.setSourceInfo x source codec width height) :=
  .modifySession s x (fun _ => ⟨rfl, rfl, rfl⟩) fun _ _ => rfl

theorem aside_screenShareStart (hs : s.Signed sid user) (hin : other ∈ s.sessionTable)
    (hne : other ≠ sid) (codec : BitVec 8) (width height : BitVec 16) (sourceRaw : BitVec 8) :
    Aside sid user s (s.screenShareStart other codec width height sourceRaw) := by
  unfold Server.screenShareStart
  split
  · exact .refl sid user s
  next source _ =>
    split
    · exact .refl sid user s
    next haccepts =>
      simp only [acceptsStart, Bool.not_eq_true', Bool.not_eq_false, Bool.and_eq_true] at haccepts
      have hstream := hs.stream_ne hin haccepts.1.1 hne source
      dsimp only
      refine (aside_publish s other hstream).trans ?_
      refine (aside_setSourceInfo _ other source codec width height).trans ?_
      have hlogged : ∀ t : Server, Aside sid user t (t.logStart other source) :=
        fun t => .elsewhere rfl rfl rfl rfl
      refine (hlogged _).trans (.foldl _ fun s' _ viewer _ => ?_)
      split
      · exact aside_announceVideoStream s' viewer other false fun _ => hstream
      · exact .refl sid user s'

theorem aside_screenShareUpdate (s : Server) (x : SessionId) (codec : BitVec 8)
    (width height : BitVec 16) (sourceRaw : BitVec 8) :
    Aside sid user s (s.screenShareUpdate x codec width height sourceRaw) := by
  unfold Server.screenShareUpdate
  dsimp only
  split
  · exact .refl sid user s
  · split
    · exact .refl sid user s
    · split
      · exact .refl sid user s
      · exact aside_setSourceInfo s x _ _ _ _

theorem aside_screenShareStop (hs : s.Signed sid user) (hin : other ∈ s.sessionTable)
    (hne : other ≠ sid) (sourceRaw : BitVec 8) :
    Aside sid user s (s.screenShareStop other sourceRaw) := by
  unfold Server.screenShareStop
  dsimp only
  split
  · exact .refl sid user s
  next hthere =>
    simp only [Bool.or_eq_true, not_or] at hthere
    split
    · exact .refl sid user s
    next source _ =>
      have hended : Aside sid user s (s.endShare other source) := .elsewhere rfl rfl rfl rfl
      exact hended.trans (aside_stopVideoStream _ _ _
        (hs.stream_ne hin (by simpa using hthere.1) hne source))

/-! ### Requests that concern no camera -/

theorem aside_stopViewing (s : Server) (x : SessionId) (target : StreamId) :
    Aside sid user s (s.stopViewing x target) := by
  unfold Server.stopViewing
  split
  · exact aside_clearViewerSubscriptions s x true
  · dsimp only
    have hdropped : Aside sid user s (s.modifySession x fun session => session.unsubscribe target) :=
      .modifySession s x (fun _ => ⟨rfl, rfl, rfl⟩) fun _ _ => rfl
    split
    · exact hdropped.trans (aside_notifyViewerChange _ _ _ _)
    · exact hdropped

theorem aside_startViewing (s : Server) (x : SessionId) (target : StreamId)
    (dropped : List StreamId) : Aside sid user s (s.startViewing x target dropped) := by
  have hsame : ∀ session : Session,
      ((dropped.foldl Session.unsubscribe session).authenticated = session.authenticated ∧
        (dropped.foldl Session.unsubscribe session).userId = session.userId ∧
        (dropped.foldl Session.unsubscribe session).protocolVersion = session.protocolVersion) ∧
        (dropped.foldl Session.unsubscribe session).channelId = session.channelId := by
    induction dropped with
    | nil => exact fun _ => ⟨⟨rfl, rfl, rfl⟩, rfl⟩
    | cons stream dropped ih => exact fun session => ih (session.unsubscribe stream)
  have hdropped : Aside sid user s
      (s.modifySession x fun session => dropped.foldl Session.unsubscribe session) :=
    .modifySession s x (fun session => (hsame session).1) fun _ session => (hsame session).2
  have hsubscribed : ∀ t : Server, Aside sid user t (t.subscribe x target) :=
    fun t => .modifySession t x (fun _ => ⟨rfl, rfl, rfl⟩) fun _ _ => rfl
  have htold : ∀ (t : Server) viewer, Aside sid user t (dropped.foldl (fun s old =>
      s.notifyViewerChange old viewer false) t) :=
    fun t viewer => .foldl _ fun s' _ old _ => aside_notifyViewerChange s' old viewer false
  have hrequested : ∀ (t : Server) viewer,
      Aside sid user t (t.requestKeyframeFromSharer target viewer) :=
    fun t viewer => .elsewhere rfl rfl rfl rfl
  unfold Server.startViewing
  dsimp only
  refine hdropped.trans ?_
  split
  · refine Aside.trans ?_ (aside_notifyViewerChange _ _ _ _)
    refine Aside.trans ?_ (hrequested _ _)
    exact (hsubscribed _).trans (htold _ _)
  · exact htold _ _

theorem aside_screenShareView (s : Server) (x : SessionId) (target : StreamId)
    (action : Option (BitVec 8)) : Aside sid user s (s.screenShareView x target action) := by
  unfold Server.screenShareView
  dsimp only
  split
  · exact .refl sid user s
  · split
    · exact aside_stopViewing s x target
    · split
      · exact .refl sid user s
      · split
        · exact .refl sid user s
        · exact aside_startViewing s x target _

theorem aside_adminCreateChannel (s : Server) (x : SessionId) (name : String) (maxUsers : Int)
    (dbOk : Bool) : Aside sid user s (s.adminCreateChannel x name maxUsers dbOk) := by
  have hanswered : ∀ (t : Server) message, ServerMessage.notice user message = none →
      Aside sid user t (t.sendTo x message) := fun t message h => .sendTo t x fun _ => h
  unfold Server.adminCreateChannel
  split
  · exact .refl sid user s
  · split
    · exact hanswered s _ rfl
    · split
      · exact .refl sid user s
      · split
        · exact hanswered s _ rfl
        · refine Aside.trans ?_ (hanswered _ _ rfl)
          exact .elsewhere rfl rfl rfl rfl

theorem aside_adminSetRole (s : Server) (x : SessionId) (target : UserId) (newRole : Role)
    (dbOk : Bool) : Aside sid user s (s.adminSetRole x target newRole dbOk) := by
  have hanswered : ∀ (t : Server) message, ServerMessage.notice user message = none →
      Aside sid user t (t.sendTo x message) := fun t message h => .sendTo t x fun _ => h
  unfold Server.adminSetRole
  dsimp only
  split
  · exact .refl sid user s
  · split
    · exact hanswered s _ rfl
    · split
      · exact hanswered s _ rfl
      · have hstored : Aside sid user s
            (if dbOk then { s with db := s.db.setUserRole target newRole } else s) := by
          split
          · exact .elsewhere rfl rfl rfl rfl
          · exact .refl sid user s
        refine hstored.trans (Aside.trans ?_ (hanswered _ _ rfl))
        refine Aside.trans ?_ (.sendToAll _ _ fun _ => rfl)
        refine .modifySessions _ (fun session => ?_) fun session => ?_
        · split <;> exact ⟨rfl, rfl, rfl⟩
        · split <;> rfl

end Server

end Parties

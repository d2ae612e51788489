import Parties.Client.CameraAgreement

/-!
# The camera along a run

Each side keeps the balance of the camera, so it holds along every orderly run. At rest it
leaves one possibility: the client has its camera on exactly when the server lists it.
-/

namespace Parties

open Parties.Video

/-! ### A session that has signed in -/

namespace Server

variable {s : Server} {sid : SessionId} {user : UserId} {channel c : ChannelId} {lists l : Bool}

/-- After every run of the server, a signed-in session has its user for itself. -/
theorem signed_run (config : Config) (env : Environment) (ops : List ServerOp)
    (hin : sid ∈ (run config env ops).sessionTable)
    (hauth : ((run config env ops).sessions sid).authenticated = true)
    (hcamera : ((run config env ops).sessions sid).supportsCamera = true) :
    (run config env ops).Signed sid ((run config env ops).sessions sid).userId := by
  have hinOrder := inOrder_run config env ops
  have hroomy := roomy_run config env ops
  generalize run config env ops = s at *
  have hc := hinOrder.consistent
  have hmark := hinOrder.marked sid hin hauth
  refine ⟨hroomy.nodup, hin, hauth, rfl, hcamera, hc.packable hin hmark, ?_⟩
  intro other hother hotherAuth hne
  have hotherMark := hinOrder.marked other hother hotherAuth
  refine ⟨hc.packable hother hotherMark, fun huser => hne ?_⟩
  have hsame := hc.sessionForUser hother hotherMark
  rw [show (s.registry.members other).userId = (s.registry.members sid).userId from huser,
    hc.sessionForUser hin hmark] at hsame
  exact (Option.some.inj hsame).symm

theorem Hosts.listed_iff (hs : s.Hosts sid user channel lists) :
    videoStreamId user .camera ∈ s.channelVideoStreams (s.sessions sid).channelId ↔
      lists = true := by
  rw [hs.listing, hs.place]
  exact and_iff_right rfl

/-- What the session sends besides the orders of its camera. -/
theorem turns_own (hs : s.Hosts sid user c l) {message : ControlMessage} (hown : message.OfClient)
    (horder : message.order = none) : ∃ channel lists news,
      Turns sid user channel lists news s (s.handleMessage sid message) ∧ Kept lists l news := by
  unfold handleMessage
  rw [getSession, if_pos hs.inTable]
  cases message with
  | channelJoin channel voiceState =>
      obtain hrefused | ⟨k, hentered⟩ := turns_channelJoin hs channel voiceState
      · exact ⟨c, l, [], hrefused, kept_nil l⟩
      · refine ⟨channel, _, _, hentered, ?_⟩
        have hstarts : Notice.stopped ∉ Notice.entered channel :: List.replicate k .started := by
          simp [List.mem_replicate]
        by_cases hsame : c = channel
        · rw [if_pos hsame, decide_eq_true hsame, Bool.and_true, List.nil_append]
          exact .inl ⟨rfl, hstarts⟩
        · rw [if_neg hsame, decide_eq_false hsame, Bool.and_false]
          exact kept_end l hstarts
  | channelLeave =>
      have hended := kept_end l (List.not_mem_nil (a := Notice.stopped))
      rw [List.append_nil] at hended
      exact ⟨0, false, _, turns_channelLeave hs, hended⟩
  | screenShareView target action =>
      exact ⟨c, l, [], (aside_screenShareView s sid target action).turns hs, kept_nil l⟩
  | adminDeleteChannel channel dbOk =>
      obtain hsame | hout := turns_adminDeleteChannel hs sid channel dbOk
      · exact ⟨c, l, [], hsame, kept_nil l⟩
      · exact ⟨0, false, _, hout, kept_end l (by simp)⟩
  | screenShareStart codec width height source =>
      obtain rfl : source = 1 := hown
      cases horder
  | screenShareStop source =>
      obtain rfl : source = 1 := hown
      cases horder
  | authIdentity | adminCreateChannel | adminSetRole | adminKickUser | screenShareUpdate =>
      exact hown.elim

end Server

namespace CameraHop

open Server

variable {sid other : SessionId} {h : CameraHop} {k' : AppCore} {op : CameraOp}

/-! ### The invariant -/

structure InStep (sid : SessionId) (h : CameraHop) : Prop where
  sends : ∀ m ∈ h.client.outgoing, m.OfClient
  sides : ∃ channel lists, h.server.Hosts sid h.client.userId channel lists ∧
    Balanced h.client h.notices lists

theorem SignedIn.inStep (hs : h.SignedIn sid) : InStep sid h := by
  have hannounced : h.client.announced = false := by
    rw [AppCore.announced, hs.off.1, Bool.false_and]
  have horders : h.client.orders = [] := by rw [AppCore.orders, hs.outgoing, List.filterMap_nil]
  constructor
  · intro m hm
    rw [hs.outgoing] at hm
    cases hm
  · refine ⟨0, false, ⟨?_, hs.nowhere, fun c => ?_, fun _ => rfl⟩, ?_⟩
    · obtain ⟨config, env, ops, hrun⟩ := hs.server
      have hsigned := signed_run config env ops (hrun ▸ hs.inTable) (hrun ▸ hs.authenticated)
        (hrun ▸ hs.camera)
      rw [← hrun, hs.owner] at hsigned
      exact hsigned
    · exact iff_of_false (hs.unlisted c) fun hlisted => Bool.noConfusion hlisted.2
    · rw [hs.notices]
      refine ⟨⟨false, ?_, Bool.noConfusion⟩, Bool.noConfusion, fun hon => ?_, fun hopening => ?_,
        fun _ _ _ => Bool.noConfusion⟩
      · rw [hs.stops, hannounced, horders]
        rfl
      · rw [hannounced] at hon
        cases hon
      · rw [hs.off.2] at hopening
        cases hopening

/-- At rest the two sides agree. -/
theorem InStep.agrees (hs : InStep sid h) : h.Agrees sid := by
  intro ⟨hout, hin, hstarting⟩
  obtain ⟨channel, lists, hhosts, hbalanced⟩ := hs.sides
  have horders : h.client.orders = [] := by rw [AppCore.orders, hout, List.filterMap_nil]
  rw [notices, hin] at hbalanced
  obtain ⟨hon, hrest⟩ := hbalanced.atRest horders hstarting
  exact ⟨hon.trans hhosts.listed_iff.symm, hrest⟩

/-! ### Steps of the client -/

/-- The client moves, and `incoming` is on its way to it. -/
theorem InStep.moves {incoming : List LobbyMessage} (hs : InStep sid h)
    (huser : k'.userId = h.client.userId)
    (hsends : ∀ m ∈ k'.outgoing, m ∈ h.client.outgoing ∨ m.OfClient)
    (hkeeps : ∀ lists, (h.Lists sid ↔ lists = true) → Balanced h.client h.notices lists →
      Balanced k' (incoming.filterMap (LobbyMessage.notice h.client.userId)) lists) :
    InStep sid { h with client := k', incoming := incoming } where
  sends m hm := (hsends m hm).elim (hs.sends m) id
  sides := by
    obtain ⟨channel, lists, hhosts, hbalanced⟩ := hs.sides
    refine ⟨channel, lists, huser.symm ▸ hhosts, ?_⟩
    rw [notices]
    dsimp only
    rw [huser]
    exact hkeeps lists hhosts.listed_iff hbalanced

/-- The client does something by itself. -/
theorem InStep.client (hs : InStep sid h) (huser : k'.userId = h.client.userId)
    (hsends : ∀ m ∈ k'.outgoing, m ∈ h.client.outgoing ∨ m.OfClient)
    (hkeeps : ∀ lists, (h.Lists sid ↔ lists = true) → Balanced h.client h.notices lists →
      Balanced k' h.notices lists) : InStep sid { h with client := k' } :=
  hs.moves huser hsends hkeeps

theorem InStep.same (hs : InStep sid h) (hsame : AppCore.SameCamera h.client k') :
    InStep sid { h with client := k' } :=
  hs.client hsame.user hsame.sends fun _ _ hbalanced => hbalanced.sameCamera hsame

/-- The client switches its camera off. -/
theorem InStep.off {channel : ChannelId} (hs : InStep sid h)
    (hoff : AppCore.Off h.client.announced channel h.client k')
    (hnot : h.client.announced = true → ¬ h.Dropped sid) :
    InStep sid { h with client := k' } := by
  refine hs.client hoff.user hoff.sends fun lists hlists hbalanced => ?_
  refine hbalanced.off hoff fun hannounced horders hl hcount => ?_
  refine hnot hannounced ⟨hannounced, horders, fun hlisted => ?_, hcount⟩
  rw [hlists, hl] at hlisted
  cases hlisted

theorem InStep.told (hs : InStep sid h) :
    (h.client.announced && decide (h.client.currentChannel ≠ 0)) = h.client.announced :=
  hs.sides.elim fun _ ⟨_, _, hbalanced⟩ => hbalanced.told

theorem InStep.opening (hs : InStep sid h) :
    h.client.cameraStarting = true → h.client.isCameraOn = true :=
  hs.sides.elim fun _ ⟨_, _, hbalanced⟩ => hbalanced.opening

theorem not_announced (hoff : h.client.isCameraOn = false) : h.client.announced = false := by
  rw [AppCore.announced, hoff, Bool.false_and]

theorem InStep.toggleCamera (hs : InStep sid h) (devices begun : Bool)
    (hstops : h.client.announced = true → ¬ h.Dropped sid) :
    InStep sid { h with client := h.client.toggleCamera devices begun } := by
  unfold AppCore.toggleCamera
  split
  · have hoff := AppCore.off_stopCamera h.client true
    rw [Bool.true_and, hs.told] at hoff
    exact hs.off hoff hstops
  · obtain heq | ⟨hcamera, heq⟩ | ⟨hcamera, hoff⟩ := h.client.startCamera_cases devices begun
    · rw [heq]
      exact hs
    · rw [heq]
      exact hs.client rfl (fun _ => Or.inl) fun _ _ hbalanced => hbalanced.opens hcamera
    · rw [← not_announced hcamera] at hoff
      exact hs.off hoff hstops

theorem InStep.cameraStarted (hs : InStep sid h) :
    InStep sid { h with client := h.client.cameraStarted } := by
  obtain heq | ⟨hstarting, hoff⟩ | ⟨hstarting, hon, hplace, heq⟩ :=
    h.client.cameraStarted_cases hs.opening
  · rw [heq]
    exact hs
  · have hannounced : h.client.announced = false := by
      rw [AppCore.announced, hstarting, Bool.not_true, Bool.and_false]
    rw [← hannounced] at hoff
    refine hs.off hoff fun hnot => ?_
    rw [hannounced] at hnot
    cases hnot
  · rw [heq]
    refine hs.client rfl (fun m hm => ?_) fun _ _ hbalanced =>
      hbalanced.starts hstarting hon hplace rfl false
    obtain hold | hnew := List.mem_append.mp hm
    · exact .inl hold
    · obtain rfl := List.mem_singleton.mp hnew
      exact .inr rfl

theorem InStep.leaveChannel (hs : InStep sid h)
    (hstops : h.client.announced = true → ¬ h.Dropped sid) :
    InStep sid { h with client := h.client.leaveChannel true } := by
  by_cases hzero : h.client.currentChannel = 0
  · have heq : h.client.leaveChannel true = h.client := if_pos hzero
    rw [heq]
    exact hs
  · exact hs.off (AppCore.off_leaveChannel h.client true hzero) hstops

/-! ### Messages from the server -/

theorem InStep.entered {message : LobbyMessage} {rest : List LobbyMessage} {channel : ChannelId}
    (hs : InStep sid h) (hin : h.incoming = message :: rest)
    (hnotice : message.notice h.client.userId = some (.entered channel))
    (hstops : h.SendsStop .downlink → ¬ h.Dropped sid) :
    InStep sid { h with client := h.client.handle message, incoming := rest } := by
  have hnotices : h.notices =
      .entered channel :: rest.filterMap (LobbyMessage.notice h.client.userId) := by
    rw [notices, hin, List.filterMap_cons, hnotice]
  have hpassed : InStep sid { h with incoming := rest } := by
    refine hs.moves rfl (fun _ => Or.inl) fun lists _ hbalanced => ?_
    rw [hnotices] at hbalanced
    exact hbalanced.passes (by simp) (by simp) (by simp)
  obtain ⟨users, heq⟩ := AppCore.handle_notice hnotice
  rw [heq]
  obtain hsame | ⟨hawaited, rfl, hother, hoff⟩ := h.client.onChannelUserList_cases channel users
  · exact hpassed.same hsame
  · rw [hs.told] at hoff
    refine hpassed.off hoff fun hannounced hdropped => ?_
    refine hstops ⟨hannounced, hawaited, hother, ?_⟩ ⟨hdropped.1, hdropped.2.1, hdropped.2.2.1, ?_⟩
    · rw [hin]
      exact hnotice
    · rw [hnotices, List.count_cons_of_ne (by simp)]
      exact hdropped.2.2.2

theorem InStep.started {message : LobbyMessage} {rest : List LobbyMessage}
    (hs : InStep sid h) (hin : h.incoming = message :: rest)
    (hnotice : message.notice h.client.userId = some .started)
    (hshown : h.client.cameraPreviewPending = true → h.client.cameraStopsInFlight = 0 →
      h.client.acceptsSharer h.client.camera = true) :
    InStep sid { h with client := h.client.handle message, incoming := rest } := by
  have hnotices : h.notices =
      .started :: rest.filterMap (LobbyMessage.notice h.client.userId) := by
    rw [notices, hin, List.filterMap_cons, hnotice]
  have hsame := h.client.sameCamera_onScreenShareStarted h.client.camera
  rw [AppCore.handle_notice hnotice]
  refine hs.moves hsame.user hsame.sends fun lists _ hbalanced => ?_
  rw [hnotices] at hbalanced
  refine (hbalanced.sameCamera hsame).passes (by simp) (by simp) fun _ hpending hnone => ?_
  have hnone' : h.client.cameraStopsInFlight = 0 := hsame.stops.symm.trans hnone
  have haccepts := hshown (hsame.preview hpending) hnone'
  rw [AppCore.preview_onScreenShareStarted hpending hnone'] at haccepts
  cases haccepts

theorem InStep.stopped {message : LobbyMessage} {rest : List LobbyMessage}
    (hs : InStep sid h) (hin : h.incoming = message :: rest)
    (hnotice : message.notice h.client.userId = some .stopped) :
    InStep sid { h with client := h.client.handle message, incoming := rest } := by
  have hnotices : h.notices =
      .stopped :: rest.filterMap (LobbyMessage.notice h.client.userId) := by
    rw [notices, hin, List.filterMap_cons, hnotice]
  obtain ⟨k, hsame, heq⟩ := h.client.onScreenShareStopped_camera
  rw [AppCore.handle_notice hnotice, heq, ← hsame.stops, ← hsame.announced]
  refine hs.moves ?_ ?_ fun lists _ hbalanced => ?_
  · split
    · exact hsame.user
    · split
      · exact hsame.user
      · exact hsame.user
  · split
    · exact hsame.sends
    · split
      · exact hsame.sends
      · exact hsame.sends
  · rw [hnotices] at hbalanced
    exact (hbalanced.sameCamera hsame).stopped

theorem InStep.left {message : LobbyMessage} {rest : List LobbyMessage} {channel : ChannelId}
    (hs : InStep sid h) (hin : h.incoming = message :: rest)
    (hnotice : message.notice h.client.userId = some (.left channel))
    (hleft : channel = h.client.currentChannel → h.client.announced = true →
      h.client.orders.getLast? = some .start ∨ h.Dropped sid) :
    InStep sid { h with client := h.client.handle message, incoming := rest } := by
  have hnotices : h.notices =
      .left channel :: rest.filterMap (LobbyMessage.notice h.client.userId) := by
    rw [notices, hin, List.filterMap_cons, hnotice]
  rw [AppCore.handle_notice hnotice]
  obtain ⟨hhere, -, hoff⟩ | ⟨helsewhere, hsame⟩ := h.client.onUserLeft_self channel
  · refine hs.moves hoff.user hoff.sends fun lists hlists hbalanced => ?_
    rw [hnotices] at hbalanced
    refine hbalanced.taken hoff fun hannounced => (hleft hhere hannounced).imp_right fun hd => ?_
    obtain ⟨-, horders, hunlisted, hcount⟩ := hd
    rw [hnotices, List.count_cons_of_ne (by simp)] at hcount
    rw [hlists, Bool.not_eq_true] at hunlisted
    exact ⟨horders, hunlisted, hcount⟩
  · refine hs.moves hsame.user hsame.sends fun lists hlists hbalanced => ?_
    rw [hnotices] at hbalanced
    refine Balanced.sameCamera (hbalanced.passes (by simp) (fun heq => ?_) (by simp)) hsame
    rw [← Bool.not_eq_true]
    intro hannounced
    exact hbalanced.place hannounced (helsewhere (Notice.left.inj heq))

theorem InStep.downlink (hs : InStep sid h) (hord : h.Orderly sid .downlink) :
    InStep sid (h.step sid .downlink) := by
  unfold step
  dsimp only
  cases hin : h.incoming with
  | nil => exact hs
  | cons message rest =>
      have hnext : h.nextNotice .downlink = message.notice h.client.userId := by
        rw [nextNotice, hin]
        rfl
      have hleft := hord.left
      have hshown := hord.shown
      rw [hnext] at hleft hshown
      dsimp only
      cases hnotice : message.notice h.client.userId with
      | none =>
          have hsame := AppCore.sameCamera_handle hnotice
          refine hs.moves hsame.user hsame.sends fun lists _ hbalanced => ?_
          rw [notices, hin, List.filterMap_cons, hnotice] at hbalanced
          exact hbalanced.sameCamera hsame
      | some notice =>
          cases notice with
          | entered channel => exact hs.entered hin hnotice hord.stops
          | started => exact hs.started hin hnotice (hshown hnotice)
          | stopped => exact hs.stopped hin hnotice
          | left channel =>
              refine hs.left hin hnotice fun hhere => hleft ?_
              rw [hnotice, hhere]

/-! ### Requests at the server -/

theorem notices_serve {news : List Notice} {message : ControlMessage}
    (htells : Tells sid h.client.userId news h.server (h.server.handleMessage other message)) :
    (h.serve sid other message).notices = h.notices ++ news := by
  obtain ⟨added, hsent, hnews⟩ := htells.told
  rw [notices, serve]
  dsimp only
  rw [hsent, List.drop_left, List.filterMap_append, notices]
  congr 1
  rw [← hnews, noticesTo, List.filterMap_map, List.filterMap_filter]
  congr 1
  funext m
  by_cases hsid : m.1 = sid
  · simp [hsid, LobbyMessage.notice]
  · simp [hsid]

theorem InStep.serve {channel : ChannelId} {lists : Bool} {news : List Notice}
    {message : ControlMessage} (hsends : ∀ m ∈ h.client.outgoing, m.OfClient)
    (hturns : Turns sid h.client.userId channel lists news h.server
      (h.server.handleMessage other message))
    (hbalanced : Balanced h.client (h.notices ++ news) lists) :
    InStep sid (h.serve sid other message) where
  sends := hsends
  sides := by
    refine ⟨channel, lists, hturns.hosts, ?_⟩
    rw [notices_serve hturns.tells]
    exact hbalanced

theorem order_start {message : ControlMessage} (hown : message.OfClient)
    (hstart : message.order = some .start) :
    ∃ codec width height, message = .screenShareStart codec width height 1 := by
  cases message with
  | screenShareStart codec width height source =>
      obtain rfl : source = 1 := hown
      exact ⟨codec, width, height, rfl⟩
  | screenShareStop source =>
      obtain rfl : source = 1 := hown
      cases hstart
  | authIdentity | channelJoin | channelLeave | adminCreateChannel | adminDeleteChannel
  | adminSetRole | adminKickUser | screenShareUpdate | screenShareView => cases hstart

theorem order_stop {message : ControlMessage} (hown : message.OfClient)
    (hstop : message.order = some .stop) : message = .screenShareStop 1 := by
  cases message with
  | screenShareStart codec width height source =>
      obtain rfl : source = 1 := hown
      cases hstop
  | screenShareStop source =>
      obtain rfl : source = 1 := hown
      rfl
  | authIdentity | channelJoin | channelLeave | adminCreateChannel | adminDeleteChannel
  | adminSetRole | adminKickUser | screenShareUpdate | screenShareView => cases hstop

/-- The server starts the camera, or drops the start outside of a channel. -/
theorem InStep.takesStart {message : ControlMessage} {rest : List ControlMessage}
    (hs : InStep sid h) (hout : h.client.outgoing = message :: rest)
    (hstart : message.order = some .start)
    (htaken : (h.server.sessions sid).channelId ≠ 0 →
      Upheld (rest.filterMap ControlMessage.order) h.client.announced)
    (hdropped : (h.server.sessions sid).channelId = 0 →
      Upheld (rest.filterMap ControlMessage.order) h.client.announced →
        rest.filterMap ControlMessage.order = [] ∧ .left h.client.currentChannel ∈ h.notices) :
    InStep sid ({ h with client := { h.client with outgoing := rest } }.serve sid sid message) := by
  have horders : h.client.orders =
      .start :: ({ h.client with outgoing := rest } : AppCore).orders := by
    rw [AppCore.orders, AppCore.orders, hout, List.filterMap_cons, hstart]
  have hsends := hs.sends
  rw [hout, List.forall_mem_cons] at hsends
  obtain ⟨codec, width, height, rfl⟩ := order_start hsends.1 hstart
  obtain ⟨channel, lists, hhosts, hbalanced⟩ := hs.sides
  have hturns := turns_startCamera hhosts codec width height
  have hhandled : h.server.handleMessage sid (.screenShareStart codec width height 1) =
      h.server.screenShareStart sid codec width height 1 := by
    rw [handleMessage, getSession, if_pos hhosts.inTable]
  rw [← hhandled] at hturns
  refine InStep.serve hsends.2 hturns ?_
  rw [hhosts.place] at htaken hdropped
  by_cases hzero : channel = 0
  · have hunlisted := hhosts.nowhere hzero
    subst hunlisted
    rw [if_pos hzero, decide_eq_false (not_not_intro hzero), List.append_nil]
    exact hbalanced.dropsStart horders (hdropped hzero)
  · rw [if_neg hzero, decide_eq_true hzero]
    exact hbalanced.takesStart horders (htaken hzero)

theorem InStep.takesStop {message : ControlMessage} {rest : List ControlMessage}
    (hs : InStep sid h) (hout : h.client.outgoing = message :: rest)
    (hstop : message.order = some .stop) :
    InStep sid ({ h with client := { h.client with outgoing := rest } }.serve sid sid message) := by
  have horders : h.client.orders =
      .stop :: ({ h.client with outgoing := rest } : AppCore).orders := by
    rw [AppCore.orders, AppCore.orders, hout, List.filterMap_cons, hstop]
  have hsends := hs.sends
  rw [hout, List.forall_mem_cons] at hsends
  obtain rfl := order_stop hsends.1 hstop
  obtain ⟨channel, lists, hhosts, hbalanced⟩ := hs.sides
  have hturns := turns_endCamera hhosts
  have hhandled : h.server.handleMessage sid (.screenShareStop 1) =
      h.server.screenShareStop sid 1 := by
    rw [handleMessage, getSession, if_pos hhosts.inTable]
  rw [← hhandled] at hturns
  exact InStep.serve hsends.2 hturns (hbalanced.takesStop horders)

theorem InStep.takesOther {message : ControlMessage} {rest : List ControlMessage}
    (hs : InStep sid h) (hout : h.client.outgoing = message :: rest)
    (hother : message.order = none) :
    InStep sid ({ h with client := { h.client with outgoing := rest } }.serve sid sid message) := by
  have hsends := hs.sends
  rw [hout, List.forall_mem_cons] at hsends
  obtain ⟨channel, lists, hhosts, hbalanced⟩ := hs.sides
  obtain ⟨channel', lists', news, hturns, hkept⟩ := turns_own hhosts hsends.1 hother
  refine InStep.serve hsends.2 hturns (Balanced.hears ?_ hkept)
  exact hbalanced.sameCamera (AppCore.sameCamera_took hout hother)

theorem InStep.uplink (hs : InStep sid h) (hord : h.Orderly sid .uplink) :
    InStep sid (h.step sid .uplink) := by
  unfold step
  dsimp only
  cases hout : h.client.outgoing with
  | nil => exact hs
  | cons message rest =>
      dsimp only
      cases horder : message.order with
      | none => exact hs.takesOther hout horder
      | some order =>
          cases order with
          | stop => exact hs.takesStop hout horder
          | start =>
              have hnext : h.takesStart .uplink =
                  some (rest.filterMap ControlMessage.order) := by
                rw [CameraHop.takesStart, hout]
                exact if_pos horder
              exact hs.takesStart hout horder (hord.taken _ hnext) (hord.dropped _ hnext)

/-! ### Runs -/

theorem inStep_step (hs : InStep sid h) (hadmits : op.Admits sid) (hord : h.Orderly sid op) :
    InStep sid (h.step sid op) := by
  cases op with
  | toggleCamera devices begun => exact hs.toggleCamera devices begun hord.stops
  | cameraStarted => exact hs.cameraStarted
  | cameraFailed =>
      have hoff := h.client.off_cameraFailed
      rw [hs.told] at hoff
      exact hs.off hoff hord.stops
  | restartCamera => exact hs.same h.client.sameCamera_restartCamera
  | joinChannel channel => exact hs.same (h.client.sameCamera_joinChannel channel)
  | leaveChannel => exact hs.leaveChannel hord.stops
  | deleteChannel channel dbOk =>
      exact hs.same (h.client.sameCamera_sendMessage trivial rfl)
  | uplink => exact hs.uplink hord
  | downlink => exact hs.downlink hord
  | request other message =>
      obtain ⟨channel, lists, hhosts, hbalanced⟩ := hs.sides
      obtain ⟨channel', lists', news, hturns, hkept⟩ := turns_other hhosts hadmits.1 hadmits.2
      exact InStep.serve hs.sends hturns (hbalanced.hears hkept)
  | channelList | userVoiceState =>
      refine hs.moves rfl (fun _ => Or.inl) fun lists _ hbalanced => ?_
      rw [List.filterMap_append]
      exact (List.append_nil h.notices).symm ▸ hbalanced

theorem inStep_run {ops : List CameraOp} (hs : InStep sid h) (hadmits : ∀ op ∈ ops, op.Admits sid)
    (horderly : Machine.AllSteps (step sid) (Orderly sid) h ops) :
    InStep sid (Machine.run (step sid) h ops) := by
  refine Machine.run_invariant (P := fun h op => op.Admits sid ∧ Orderly sid h op)
    (fun h op hs hop => inStep_step hs hop.1 hop.2) hs ?_
  exact Machine.allSteps_and.mpr ⟨Machine.allSteps_of_forall fun _ => hadmits, horderly⟩

/-! ### A deletion that crosses a toggle -/

/-- The root has made a channel, and a second user has signed in. -/
def lobbyHop : CameraHop where
  server := Server.run Config.small (Environment.ticking 1)
    [.connect, login 1 0 1, .message 1 (.adminCreateChannel "lobby" 0 true), .connect, login 2 1 1]
  client := { userId := 2, channels := [{ id := 1, name := "lobby", maxUsers := 0, userCount := 0 }] }

theorem signedIn_lobbyHop : lobbyHop.SignedIn 2 where
  server := ⟨_, _, _, rfl⟩
  inTable := by decide
  authenticated := by decide
  camera := by decide
  owner := by decide
  nowhere := by decide
  unlisted _ := List.not_mem_nil
  outside := rfl
  off := ⟨rfl, rfl⟩
  stops := rfl
  outgoing := rfl
  notices := rfl

/-- The user is in the channel, with the camera on, when the root deletes the channel. -/
def deletionWithCamera : List CameraOp :=
  [.joinChannel 1, .uplink, .downlink, .toggleCamera true true, .cameraStarted, .uplink, .downlink,
    .uplink, .request 1 (.adminDeleteChannel 1 true), .downlink, .downlink, .uplink]

/-- The root deletes the channel, and before the user learns of it the camera goes on and off. -/
def toggleDuringDeletion : List CameraOp :=
  [.joinChannel 1, .uplink, .downlink, .request 1 (.adminDeleteChannel 1 true),
    .toggleCamera true true, .cameraStarted, .toggleCamera true true, .uplink, .uplink, .downlink]

/-- After every orderly run, at rest, the client has its camera on exactly when the server
lists it, waits for no stop and for no preview. -/
theorem camera_agrees {ops : List CameraOp} (hs : h.SignedIn sid)
    (hadmits : ∀ op ∈ ops, op.Admits sid)
    (horderly : Machine.AllSteps (step sid) (Orderly sid) h ops) :
    (Machine.run (step sid) h ops).Agrees sid :=
  (inStep_run hs.inStep hadmits horderly).agrees

theorem camera_agrees_deletion :
    (Machine.run (step 2) lobbyHop deletionWithCamera).Agrees 2 :=
  camera_agrees signedIn_lobbyHop (by decide) (by decide)

/-- The server drops the start and the stop, and the client waits for the stop for good. -/
theorem camera_stop_unanswered : ¬ ∀ (sid : SessionId) (h : CameraHop) (ops : List CameraOp),
    h.SignedIn sid → (∀ op ∈ ops, op.Admits sid) → (Machine.run (step sid) h ops).Agrees sid := by
  intro hall
  have hagrees := hall 2 lobbyHop toggleDuringDeletion signedIn_lobbyHop (by decide)
  exact absurd hagrees (by decide)

end CameraHop

end Parties

import Parties.Client.CameraHop

/-!
# What the client does to its camera

Every function of the client is one of three: it leaves the camera as it is, it starts the
camera, or it switches the camera off, with a stop sent to the server or without.
-/

namespace Parties

open Parties.Video ChannelInfo

/-- What the client of a user sends. -/
def ControlMessage.OfClient : ControlMessage → Prop
  | .channelJoin .. | .channelLeave | .screenShareView .. | .adminDeleteChannel .. => True
  | .screenShareStart _ _ _ source => source = 1
  | .screenShareStop source => source = 1
  | _ => False

namespace AppCore

variable {k k' k'' : AppCore}

theorem orders_sendMessage (k : AppCore) (message : ControlMessage) :
    (k.sendMessage message).orders = k.orders ++ message.order.toList := by
  unfold orders sendMessage
  rw [List.filterMap_append]
  cases horder : message.order <;> simp [horder]

/-- The camera stays as it is; a preview may be shown. -/
structure SameCamera (k k' : AppCore) : Prop where
  user : k'.userId = k.userId
  channel : k'.currentChannel = k.currentChannel
  on : k'.isCameraOn = k.isCameraOn
  starting : k'.cameraStarting = k.cameraStarting
  preview : k'.cameraPreviewPending = true → k.cameraPreviewPending = true
  stops : k'.cameraStopsInFlight = k.cameraStopsInFlight
  orders : k'.orders = k.orders
  sends : ∀ m ∈ k'.outgoing, m ∈ k.outgoing ∨ m.OfClient

/-- The camera is off, the server was told to stop it if `told`, and the client is in
`channel`. -/
structure Off (told : Bool) (channel : ChannelId) (k k' : AppCore) : Prop where
  user : k'.userId = k.userId
  channel : k'.currentChannel = channel
  on : k'.isCameraOn = false
  starting : k'.cameraStarting = false
  preview : k'.cameraPreviewPending = false
  stops : k'.cameraStopsInFlight = k.cameraStopsInFlight + told.toNat
  orders : k'.orders = k.orders ++ if told then [.stop] else []
  sends : ∀ m ∈ k'.outgoing, m ∈ k.outgoing ∨ m.OfClient

theorem SameCamera.refl (k : AppCore) : SameCamera k k :=
  ⟨rfl, rfl, rfl, rfl, id, rfl, rfl, fun _ => Or.inl⟩

theorem SameCamera.trans (h : SameCamera k k') (h' : SameCamera k' k'') : SameCamera k k'' where
  user := h'.user.trans h.user
  channel := h'.channel.trans h.channel
  on := h'.on.trans h.on
  starting := h'.starting.trans h.starting
  preview := h.preview ∘ h'.preview
  stops := h'.stops.trans h.stops
  orders := h'.orders.trans h.orders
  sends m hm := (h'.sends m hm).elim (h.sends m) Or.inr

theorem SameCamera.announced (h : SameCamera k k') : k'.announced = k.announced := by
  rw [AppCore.announced, h.on, h.starting]
  rfl

theorem Off.announced {told : Bool} {channel : ChannelId} (h : Off told channel k k') :
    k'.announced = false := by
  rw [AppCore.announced, h.on]
  rfl

theorem Off.sameCamera {told : Bool} {channel : ChannelId} (h : Off told channel k k')
    (h' : SameCamera k' k'') : Off told channel k k'' where
  user := h'.user.trans h.user
  channel := h'.channel.trans h.channel
  on := h'.on.trans h.on
  starting := h'.starting.trans h.starting
  preview := by
    rw [← Bool.not_eq_true]
    intro hpending
    have hbefore := h'.preview hpending
    rw [h.preview] at hbefore
    cases hbefore
  stops := h'.stops.trans h.stops
  orders := h'.orders.trans h.orders
  sends m hm := (h'.sends m hm).elim (h.sends m) Or.inr

theorem Off.inChannel {told : Bool} {channel channel' : ChannelId} (h : Off told channel k k')
    (hsame : SameCamera { k' with currentChannel := channel' } k'') : Off told channel' k k'' :=
  { { h with channel := rfl : Off told channel' k { k' with currentChannel := channel' } }.sameCamera
      hsame with }

theorem mem_sendMessage {message m : ControlMessage} (h : m ∈ (k.sendMessage message).outgoing) :
    m ∈ k.outgoing ∨ m = message :=
  (List.mem_append.mp h).imp_right List.mem_singleton.mp

theorem sameCamera_sendMessage (k : AppCore) {message : ControlMessage} (h : message.OfClient)
    (horder : message.order = none) : SameCamera k (k.sendMessage message) := by
  refine ⟨rfl, rfl, rfl, rfl, id, rfl, ?_, fun m hm => ?_⟩
  · rw [orders_sendMessage, horder]
    exact List.append_nil _
  · rcases mem_sendMessage hm with hold | rfl
    · exact .inl hold
    · exact .inr h

theorem sameCamera_took {message : ControlMessage} {rest : List ControlMessage}
    (hout : k.outgoing = message :: rest) (horder : message.order = none) :
    SameCamera k { k with outgoing := rest } := by
  refine ⟨rfl, rfl, rfl, rfl, id, rfl, ?_, fun m hm => .inl ?_⟩
  · rw [orders, orders, hout, List.filterMap_cons, horder]
  · rw [hout]
    exact List.mem_cons_of_mem message hm

/-! ### Watching and channels -/

theorem sameCamera_view (k : AppCore) (watched : List StreamId) (viewing stream : StreamId)
    (action : Option (BitVec 8)) :
    SameCamera k ({ k with watched := watched, viewingSharer := viewing }.sendMessage
      (.screenShareView stream action)) := by
  have hfirst : SameCamera k { k with watched := watched, viewingSharer := viewing } :=
    ⟨rfl, rfl, rfl, rfl, id, rfl, rfl, fun _ => Or.inl⟩
  exact hfirst.trans (sameCamera_sendMessage _ trivial rfl)

theorem sameCamera_removeWatch (k : AppCore) (stream : StreamId) :
    SameCamera k (k.removeWatch stream) := by
  unfold removeWatch
  split
  · exact .refl k
  · exact sameCamera_view k _ _ _ _

theorem sameCamera_addWatch (k : AppCore) (stream : StreamId) :
    SameCamera k (k.addWatch stream) := by
  unfold addWatch watchSharer
  split
  · exact .refl k
  · split
    · split
      · exact .refl k
      · exact sameCamera_view k _ _ _ _
    · split
      · exact .refl k
      · exact sameCamera_view k _ _ _ _

theorem sameCamera_dropSharer (k : AppCore) (stream : StreamId) :
    SameCamera k (k.dropSharer stream) := by
  have hfirst : SameCamera k { k with sharers := k.sharers.filter (· ≠ stream) } :=
    ⟨rfl, rfl, rfl, rfl, id, rfl, rfl, fun _ => Or.inl⟩
  exact hfirst.trans (sameCamera_removeWatch _ stream)

theorem sameCamera_channels (k : AppCore) (channels : List ChannelInfo) :
    SameCamera k { k with channels := channels } :=
  ⟨rfl, rfl, rfl, rfl, id, rfl, rfl, fun _ => Or.inl⟩

theorem sameCamera_clearAllSharers (k : AppCore) : SameCamera k k.clearAllSharers :=
  ⟨rfl, rfl, rfl, rfl, id, rfl, rfl, fun _ => Or.inl⟩

theorem sameCamera_joinChannel (k : AppCore) (channel : ChannelId) :
    SameCamera k (k.joinChannel channel) := by
  unfold joinChannel
  split
  · exact .refl k
  · have hfirst : SameCamera k
        { k with awaitingChannelJoin := true, pendingChannelId := channel } :=
      ⟨rfl, rfl, rfl, rfl, id, rfl, rfl, fun _ => Or.inl⟩
    exact hfirst.trans (sameCamera_sendMessage _ trivial rfl)

theorem sameCamera_restartCamera (k : AppCore) : SameCamera k k.restartCamera := by
  unfold restartCamera
  split
  · exact ⟨rfl, rfl, rfl, rfl, id, rfl, rfl, fun _ => Or.inl⟩
  · exact .refl k

/-! ### Switching the camera off -/

/-- The camera is shut: its watch ends, and the server is told. -/
theorem off_shut (k : AppCore) (tells : Bool) (k₁ : AppCore)
    (hk₁ : k₁ = { k with
      cameraStarting := false
      cameraPreviewPending := false
      cameraRestartPending := false
      isCameraOn := false }) :
    Off (tells && k.currentChannel ≠ 0) k.currentChannel k
      ((k₁.removeWatch k₁.camera).sendCameraStop tells) := by
  have hshut : Off false k.currentChannel k k₁ := by
    subst hk₁
    exact ⟨rfl, rfl, rfl, rfl, rfl, rfl, (List.append_nil _).symm, fun _ => Or.inl⟩
  have hunwatched := hshut.sameCamera (sameCamera_removeWatch k₁ k₁.camera)
  generalize k₁.removeWatch k₁.camera = k₂ at hunwatched ⊢
  unfold sendCameraStop
  rw [hunwatched.channel]
  cases hsends : tells && decide (k.currentChannel ≠ 0) with
  | false => exact hunwatched
  | true =>
      refine { hunwatched with stops := ?_, orders := ?_, sends := fun m hm => ?_ }
      · exact congrArg (· + 1) hunwatched.stops
      · have horders := orders_sendMessage k₂ (.screenShareStop 1)
        rw [hunwatched.orders, if_neg Bool.false_ne_true, List.append_nil] at horders
        exact horders
      · rcases mem_sendMessage hm with hold | rfl
        · exact hunwatched.sends m hold
        · exact .inr rfl

theorem off_cameraFailed (k : AppCore) :
    Off (k.announced && k.currentChannel ≠ 0) k.currentChannel k k.cameraFailed :=
  off_shut k k.announced _ rfl

theorem off_stopCamera (k : AppCore) (tellServer : Bool) :
    Off (tellServer && k.announced && k.currentChannel ≠ 0) k.currentChannel k
      (k.stopCamera tellServer) := by
  unfold stopCamera
  dsimp only
  by_cases hrunning : (k.isCameraOn || k.cameraStarting) = true
  · rw [if_neg (by rw [hrunning]; decide)]
    exact off_shut k (tellServer && k.announced) _ rfl
  · have hidle : k.isCameraOn = false ∧ k.cameraStarting = false := by simpa using hrunning
    have hnot : k.announced = false := by
      rw [AppCore.announced, hidle.1]
      rfl
    rw [if_pos (by simpa using hidle), hnot, Bool.and_false, Bool.false_and]
    exact ⟨rfl, rfl, hidle.1, rfl, rfl, rfl, (List.append_nil _).symm, fun _ => Or.inl⟩

theorem off_leaveChannel (k : AppCore) (tellServer : Bool) (h : k.currentChannel ≠ 0) :
    Off (tellServer && k.announced) 0 k (k.leaveChannel tellServer) := by
  have hstopped := off_stopCamera k tellServer
  rw [decide_eq_true h, Bool.and_true] at hstopped
  unfold leaveChannel
  rw [if_neg h]
  dsimp only
  generalize k.stopCamera tellServer = k₁ at hstopped ⊢
  have hunwatched : Off (tellServer && k.announced) k.currentChannel k
      (if k₁.viewingSharer ≠ 0 then k₁.stopWatching else k₁) := by
    split
    · exact hstopped.sameCamera (sameCamera_view k₁ [] 0 0 none)
    · exact hstopped
  generalize (if k₁.viewingSharer ≠ 0 then k₁.stopWatching else k₁) = k₂ at hunwatched ⊢
  have hcleared := hunwatched.sameCamera (sameCamera_clearAllSharers k₂)
  have htold : Off (tellServer && k.announced) k.currentChannel k
      (if tellServer then k₂.clearAllSharers.sendMessage .channelLeave
        else k₂.clearAllSharers) := by
    split
    · exact hcleared.sameCamera (sameCamera_sendMessage _ trivial rfl)
    · exact hcleared
  exact htold.inChannel (sameCamera_channels _ _)

/-- A camera that starts is not announced yet. -/
theorem startCamera_cases (k : AppCore) (devices begun : Bool) :
    k.startCamera devices begun = k ∨
      (k.isCameraOn = false ∧ k.startCamera devices begun =
        { k with cameraStarting := true, isCameraOn := true }) ∨
      k.isCameraOn = false ∧ Off false k.currentChannel k (k.startCamera devices begun) := by
  unfold startCamera
  split
  · exact .inl rfl
  next hidle =>
    have hoff : k.isCameraOn = false := by
      simp only [Bool.or_eq_true, not_or, Bool.not_eq_true] at hidle
      exact hidle.1
    split
    · exact .inl rfl
    · split
      · exact .inl rfl
      · dsimp only
        split
        · exact .inr (.inl ⟨hoff, rfl⟩)
        · refine .inr (.inr ⟨hoff, ?_⟩)
          have hfailed := off_cameraFailed { k with cameraStarting := true, isCameraOn := true }
          exact { hfailed with }

/-- A capture that began is announced to the server, or the camera is off again. -/
theorem cameraStarted_cases (k : AppCore) (h : k.cameraStarting = true → k.isCameraOn = true) :
    k.cameraStarted = k ∨
      (k.cameraStarting = true ∧ Off false k.currentChannel k k.cameraStarted) ∨
      k.cameraStarting = true ∧ k.isCameraOn = true ∧ k.currentChannel ≠ 0 ∧
        k.cameraStarted = { k with
          cameraStarting := false
          cameraPreviewPending := true
          cameraRestartPending := false
          outgoing := k.outgoing ++ [.screenShareStart 0 0 0 1] } := by
  unfold cameraStarted
  cases hstarting : k.cameraStarting with
  | false => exact .inl rfl
  | true =>
      right
      rw [Bool.not_true, if_neg Bool.false_ne_true]
      dsimp only
      by_cases hzero : k.currentChannel = 0
      · left
        rw [if_pos hzero]
        have hstopped := off_stopCamera { k with cameraStarting := false } true
        rw [decide_eq_false (not_not_intro hzero), Bool.and_false] at hstopped
        exact ⟨rfl, { hstopped with }⟩
      · right
        rw [if_neg hzero]
        exact ⟨rfl, h hstarting, hzero, rfl⟩

/-! ### The messages of the server -/

theorem sameCamera_onScreenShareStarted (k : AppCore) (stream : StreamId) :
    SameCamera k (k.onScreenShareStarted stream) := by
  unfold onScreenShareStarted
  split
  · exact .refl k
  · dsimp only
    generalize (if stream ∈ k.sharers then k.sharers else k.sharers ++ [stream]) = sharers
    have hadded : SameCamera k { k with sharers := sharers } :=
      ⟨rfl, rfl, rfl, rfl, id, rfl, rfl, fun _ => Or.inl⟩
    split
    · have hshown : SameCamera k { k with sharers := sharers, cameraPreviewPending := false } :=
        ⟨rfl, rfl, rfl, rfl, Bool.noConfusion, rfl, rfl, fun _ => Or.inl⟩
      exact hshown.trans (sameCamera_addWatch _ stream)
    · exact hadded

/-- The preview is shown at the echo of the start that the client waits for. -/
theorem preview_onScreenShareStarted
    (h : (k.onScreenShareStarted k.camera).cameraPreviewPending = true)
    (hstops : k.cameraStopsInFlight = 0) : k.acceptsSharer k.camera = false := by
  have hpending := (sameCamera_onScreenShareStarted k k.camera).preview h
  by_contra haccepts
  rw [Bool.not_eq_false] at haccepts
  unfold onScreenShareStarted at h
  rw [haccepts, Bool.not_true, if_neg Bool.false_ne_true] at h
  dsimp only at h
  rw [if_pos ⟨rfl, hpending, hstops⟩] at h
  have hbefore := (sameCamera_addWatch _ _).preview h
  cases hbefore

theorem sameCamera_onUserLeft (k : AppCore) (user : UserId) (channel : ChannelId)
    (h : ¬(user = k.userId ∧ channel = k.currentChannel ∧ k.currentChannel ≠ 0)) :
    SameCamera k (k.onUserLeft user channel) := by
  unfold onUserLeft
  rw [if_neg h]
  dsimp only
  refine SameCamera.trans ?_ (sameCamera_channels _ _)
  split
  · exact (sameCamera_dropSharer k _).trans (sameCamera_dropSharer _ _)
  · exact .refl k

/-- A message that carries no notice. -/
theorem sameCamera_handle {message : LobbyMessage} (h : message.notice k.userId = none) :
    SameCamera k (k.handle message) := by
  cases message with
  | channelList rows => exact sameCamera_channels k _
  | userVoiceState user muted deafened => exact sameCamera_channels k _
  | server message =>
      cases message with
      | channelUserList channel users => cases h
      | userJoinedChannel user channel => exact sameCamera_channels k _
      | userLeftChannel user channel =>
          refine sameCamera_onUserLeft k user channel fun hleft => ?_
          rw [hleft.1] at h
          simp [LobbyMessage.notice, ServerMessage.notice] at h
      | userRoleChanged user role => exact sameCamera_channels k _
      | screenShareStarted stream => exact sameCamera_onScreenShareStarted k stream
      | screenShareStopped stream =>
          have hother : stream ≠ k.camera := by
            rintro rfl
            simp [LobbyMessage.notice, ServerMessage.notice, camera] at h
          have hdropped := sameCamera_dropSharer k stream
          have hcamera : (k.dropSharer stream).camera = k.camera := by
            rw [camera, camera, hdropped.user]
          simp only [handle]
          unfold onScreenShareStopped
          dsimp only
          rw [if_pos (hcamera ▸ hother)]
          exact hdropped
      | serverError text => exact .refl k
      | authResponse => exact .refl k
      | screenShareViewer => exact .refl k
      | adminResult text => exact .refl k

/-- The handler a notice is for. -/
theorem handle_notice {message : LobbyMessage} {notice : Notice}
    (h : message.notice k.userId = some notice) :
    match notice with
    | .entered channel => ∃ users, k.handle message = k.onChannelUserList channel users
    | .started => k.handle message = k.onScreenShareStarted k.camera
    | .stopped => k.handle message = k.onScreenShareStopped k.camera
    | .left channel => k.handle message = k.onUserLeft k.userId channel := by
  cases message with
  | channelList | userVoiceState => cases h
  | server message =>
      cases message with
      | channelUserList channel users =>
          obtain rfl := Option.some.inj h
          exact ⟨users, rfl⟩
      | userLeftChannel user channel =>
          simp only [LobbyMessage.notice, ServerMessage.notice, Option.ite_none_right_eq_some,
            Option.some.injEq] at h
          obtain ⟨rfl, rfl⟩ := h
          rfl
      | screenShareStarted stream =>
          simp only [LobbyMessage.notice, ServerMessage.notice, Option.ite_none_right_eq_some,
            Option.some.injEq] at h
          obtain ⟨rfl, rfl⟩ := h
          rfl
      | screenShareStopped stream =>
          simp only [LobbyMessage.notice, ServerMessage.notice, Option.ite_none_right_eq_some,
            Option.some.injEq] at h
          obtain ⟨rfl, rfl⟩ := h
          rfl
      | serverError | authResponse | userJoinedChannel | screenShareViewer | userRoleChanged
      | adminResult => cases h

/-- The echo of a stop, or a stop the server decided on. -/
theorem onScreenShareStopped_camera (k : AppCore) : ∃ k₁, SameCamera k k₁ ∧
    k.onScreenShareStopped k.camera =
      if 0 < k.cameraStopsInFlight then
        { k₁ with cameraStopsInFlight := k.cameraStopsInFlight - 1 }
      else if k.announced then { k₁ with cameraPreviewPending := false, isCameraOn := false }
      else k₁ := by
  have hdropped := sameCamera_dropSharer k k.camera
  refine ⟨k.dropSharer k.camera, hdropped, ?_⟩
  unfold onScreenShareStopped
  dsimp only
  have hcamera : (k.dropSharer k.camera).camera = k.camera := by rw [camera, hdropped.user, camera]
  rw [hdropped.stops, hdropped.announced, hcamera, if_neg (not_not_intro rfl)]

/-- Entering another channel switches the camera off. -/
theorem enterChannel_cases (k : AppCore) (channel : ChannelId) :
    (channel = k.currentChannel ∧ SameCamera k (k.enterChannel channel)) ∨
      channel ≠ k.currentChannel ∧
        Off (k.announced && k.currentChannel ≠ 0) channel k (k.enterChannel channel) := by
  unfold enterChannel
  dsimp only
  by_cases hsame : channel = k.currentChannel
  · subst hsame
    rw [if_neg (not_not_intro rfl), if_neg fun h => h.2 rfl]
    exact .inl ⟨rfl, rfl, rfl, rfl, rfl, id, rfl, rfl, fun _ => Or.inl⟩
  · right
    rw [if_pos (Ne.symm hsame)]
    have hstopped := off_stopCamera { k with awaitingChannelJoin := false } true
    rw [Bool.true_and] at hstopped
    generalize ({ k with awaitingChannelJoin := false } : AppCore).stopCamera true = k₁
      at hstopped ⊢
    have hcleared := hstopped.sameCamera (sameCamera_clearAllSharers k₁)
    generalize k₁.clearAllSharers = k₂ at hcleared ⊢
    have hleft : Off (k.announced && k.currentChannel ≠ 0) k.currentChannel k
        (if k₂.currentChannel ≠ 0 ∧ k₂.currentChannel ≠ channel then
          { k₂ with channels := modifyFirst k₂.currentChannel (·.eraseUser k₂.userId) k₂.channels }
        else k₂) := by
      split
      · exact { hcleared.sameCamera (sameCamera_channels _ _) with }
      · exact { hcleared with }
    exact ⟨hsame, hleft.inChannel (sameCamera_channels _ _)⟩

theorem onChannelUserList_cases (k : AppCore) (channel : ChannelId) (users : List ChannelUser) :
    SameCamera k (k.onChannelUserList channel users) ∨
      (k.awaitingChannelJoin = true ∧ k.pendingChannelId = channel ∧ channel ≠ k.currentChannel ∧
        Off (k.announced && k.currentChannel ≠ 0) channel k (k.onChannelUserList channel users)) := by
  have hlisted := sameCamera_channels k (modifyFirst channel (·.setUsers users) k.channels)
  unfold onChannelUserList
  dsimp only
  split
  next hawaited =>
    obtain ⟨-, hentered⟩ | ⟨hother, hentered⟩ := enterChannel_cases
      { k with channels := modifyFirst channel (·.setUsers users) k.channels } channel
    · exact .inl (hlisted.trans hentered)
    · exact .inr ⟨hawaited.1, hawaited.2, hother, { hentered with }⟩
  · exact .inl hlisted

theorem onUserLeft_self (k : AppCore) (channel : ChannelId) :
    (channel = k.currentChannel ∧ k.currentChannel ≠ 0 ∧
      Off false 0 k (k.onUserLeft k.userId channel)) ∨
      ((channel = k.currentChannel → k.currentChannel = 0) ∧
        SameCamera k (k.onUserLeft k.userId channel)) := by
  by_cases h : channel = k.currentChannel ∧ k.currentChannel ≠ 0
  · left
    refine ⟨h.1, h.2, ?_⟩
    have hleft := off_leaveChannel k false h.2
    rw [Bool.false_and] at hleft
    unfold onUserLeft
    rw [if_pos ⟨rfl, h⟩]
    exact hleft
  · right
    refine ⟨fun hsame => not_not.mp fun hzero => h ⟨hsame, hzero⟩, ?_⟩
    exact sameCamera_onUserLeft k _ _ fun hleft => h hleft.2

end AppCore

end Parties

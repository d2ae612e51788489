import Parties.Client.Connection

/-!
# The reconnect policy

Whether the application reconnects, when and into which channel follows from what has happened,
not from the order in which its threads set their flags. A history is folded from the events; the
state of the application is one with its history at any time, and every drop, every automatic
attempt and every channel joined again is the one the history asks for.
-/

namespace Parties.Client

variable {F : Type}

/-! ### Histories -/

/-- What the reconnect depends on. -/
structure ReconnectHistory where
  /-- The end of the connection was announced, by the user or by the server. -/
  left : Bool := false
  /-- A server is selected. -/
  known : Bool := false
  /-- Since when there is a session. -/
  session : Option Int := none
  current : ChannelId := 0
  /-- Sessions lost within 5 s in a row. -/
  shorts : Nat := 0
  /-- A reconnect is under way: when it was armed or failed last, and how often it has failed. -/
  retry : Option (Int × Nat) := none
  /-- The voice channel of the lost session. -/
  channel : ChannelId := 0
  rejoin : Bool := false
deriving DecidableEq, Repr

namespace ReconnectHistory

def giveUp (h : ReconnectHistory) : ReconnectHistory :=
  { h with retry := none, channel := 0, rejoin := false }

/-- One more failure of the reconnect. -/
def failed (h : ReconnectHistory) (nowMs : Int) : ReconnectHistory :=
  { h with retry := h.retry.map fun r => (nowMs, r.2 + 1) }

def dropped (h : ReconnectHistory) (nowMs : Int) : DropOutcome → ReconnectHistory
  | .intentional => { h.giveUp with left := false }
  | .armed short channel =>
    { h with shorts := if short then h.shorts + 1 else 0, retry := some (nowMs, 0),
             channel, rejoin := false }
  | .gaveUp => { h.giveUp with shorts := 0 }
  | .failedAttempt => h.failed nowMs
  | .nothing => h

def after (h : ReconnectHistory) : ConnectionEvent F → ReconnectHistory
  | .userConnect | .serverGone => h.giveUp
  | .leaving => { h.giveUp with left := true }
  | .expelled => { h with left := true }
  | .selected id => { h with known := decide (id ≠ 0) }
  | .moved channel => { h with current := channel }
  | .authenticated nowMs _ => { h.giveUp with session := some nowMs }
  | .dialed _ true _ => { h with rejoin := decide (h.channel ≠ 0) }
  | .attemptFailed nowMs => h.failed nowMs
  | .dropped nowMs outcome => { h with session := none, current := 0 }.dropped nowMs outcome
  | .dialed _ false _ | .warned _ _ | .trusted _ _ _ | .authIdentity _ _ _ => h

/-- What has to become of a dropped connection: only a session that was lost is made again, and
not for ever if it does not last. -/
def outcome (h : ReconnectHistory) (nowMs : Int) : DropOutcome :=
  if h.left then .intentional
  else
    match h.session with
    | none => if h.retry.isSome then .failedAttempt else .nothing
    | some since =>
      if !h.known then .nothing
      else
        let short := decide (nowMs - since < 5000)
        if short ∧ 3 ≤ h.shorts then .gaveUp else .armed short h.current

/-- A further attempt is due. -/
def Due (h : ReconnectHistory) (nowMs : Int) : Prop :=
  h.left = false ∧ h.session = none ∧
    ∃ since failures, h.retry = some (since, failures) ∧ since + reconnectBackoffMs failures ≤ nowMs

/-- The events the policy allows. -/
def Allowed (h : ReconnectHistory) : ConnectionEvent F → Prop
  | .dropped nowMs outcome => outcome = h.outcome nowMs
  | .dialed _ true nowMs => h.Due nowMs
  | .attemptFailed _ => h.retry.isSome = true
  | .authenticated _ rejoined => rejoined = if h.rejoin then h.channel else 0
  | .expelled | .moved _ => h.session.isSome = true
  | _ => True

/-- Nothing is retried in a session, or where the end was announced. -/
structure Sound (h : ReconnectHistory) : Prop where
  session : h.session.isSome = true → h.retry = none ∧ h.rejoin = false
  left : h.left = true → h.retry = none
  outside : h.session = none → h.current = 0

variable {h : ReconnectHistory}

theorem Sound.giveUp (hs : h.Sound) : h.giveUp.Sound where
  session := fun _ => ⟨rfl, rfl⟩
  left := fun _ => rfl
  outside := hs.outside

theorem Sound.failed (hs : h.Sound) (nowMs : Int) : (h.failed nowMs).Sound where
  session := fun hsession => by
    obtain ⟨hretry, hrejoin⟩ := hs.session hsession
    exact ⟨by simp [ReconnectHistory.failed, hretry], hrejoin⟩
  left := fun hleft => by simp [ReconnectHistory.failed, hs.left hleft]
  outside := hs.outside

/-- What the policy allows keeps a history sound. -/
theorem Sound.after {e : ConnectionEvent F} (hs : h.Sound) (hallowed : h.Allowed e) :
    (h.after e).Sound := by
  cases e with
  | userConnect => exact hs.giveUp
  | serverGone => exact hs.giveUp
  | leaving => exact ⟨hs.giveUp.session, fun _ => rfl, hs.outside⟩
  | expelled => exact ⟨hs.session, fun _ => (hs.session hallowed).1, hs.outside⟩
  | selected id => exact ⟨hs.session, hs.left, hs.outside⟩
  | moved channel =>
    refine ⟨hs.session, hs.left, fun hnone => ?_⟩
    have hsome : h.session.isSome = true := hallowed
    have hsession : h.session = none := hnone
    simp [hsession] at hsome
  | authenticated nowMs rejoined => exact ⟨fun _ => ⟨rfl, rfl⟩, fun _ => rfl, nofun⟩
  | attemptFailed nowMs => exact hs.failed nowMs
  | dialed address automatic nowMs =>
    cases automatic with
    | false => exact hs
    | true =>
      obtain ⟨_, hnone, _⟩ := hallowed
      refine ⟨fun hsession => ?_, hs.left, hs.outside⟩
      have hsome : h.session.isSome = true := hsession
      simp [hnone] at hsome
  | dropped nowMs outcome =>
    have hidle : ({ h with session := none, current := 0 } : ReconnectHistory).Sound :=
      ⟨nofun, hs.left, fun _ => rfl⟩
    have houtcome : outcome = h.outcome nowMs := hallowed
    cases outcome with
    | intentional => exact ⟨nofun, nofun, fun _ => rfl⟩
    | gaveUp => exact ⟨nofun, fun _ => rfl, fun _ => rfl⟩
    | failedAttempt => exact hidle.failed nowMs
    | nothing => exact hidle
    | armed short channel =>
      refine ⟨nofun, fun hleft => ?_, fun _ => rfl⟩
      have : h.left = true := hleft
      simp [ReconnectHistory.outcome, this] at houtcome
  | _ => exact hs

end ReconnectHistory

/-! ### The history of a state -/

namespace Connection

variable {s : Connection F} {h : ReconnectHistory}

def history (s : Connection F) : ReconnectHistory where
  left := s.intentionalDisconnect
  known := decide (s.connectingServerId ≠ 0)
  session := if s.authenticated then some s.authSuccessMs else none
  current := s.currentChannel
  shorts := s.reconnectFlaps
  retry := if s.reconnecting then
      some (s.reconnectNextAttemptMs - reconnectBackoffMs s.reconnectAttempts, s.reconnectAttempts)
    else none
  channel := s.reconnectChannel
  rejoin := s.rejoinPending

/-- The state is one with its history; a channel is joined in a session. -/
structure Follows (s : Connection F) (h : ReconnectHistory) : Prop where
  history : s.history = h
  sound : h.Sound
  joining : s.awaitingChannelJoin = true → s.authenticated = true

/-- The events of a step are the ones the policy allows, and its state follows them. -/
def Accounted (h : ReconnectHistory) (r : Connection F × List (ConnectionEvent F)) : Prop :=
  EventLog.Accounts Follows ReconnectHistory.after ReconnectHistory.Allowed h r

/-- A change the policy does not know of. -/
theorem Follows.unseen {s' : Connection F} (hf : s.Follows h) (hhistory : s'.history = s.history)
    (hjoining : s'.awaitingChannelJoin = true → s'.authenticated = true) : s'.Follows h :=
  ⟨hhistory.trans hf.history, hf.sound, hjoining⟩

theorem Follows.event {s' : Connection F} {e : ConnectionEvent F} (hf : s.Follows h)
    (hallowed : s.history.Allowed e) (hhistory : s'.history = s.history.after e)
    (hjoining : s'.awaitingChannelJoin = true → s'.authenticated = true) :
    Accounted h (s', [e]) := by
  obtain ⟨rfl, hsound, _⟩ := hf
  exact EventLog.Accounts.event hallowed ⟨hhistory, hsound.after hallowed, hjoining⟩

theorem Follows.quiet {s' : Connection F} (hf : s.Follows h) (hhistory : s'.history = s.history)
    (hjoining : s'.awaitingChannelJoin = true → s'.authenticated = true) : Accounted h (s', []) :=
  EventLog.Accounts.quiet (hf.unseen hhistory hjoining)

/-- The events of one part of a step and of the next one. -/
theorem Accounted.append {s' : Connection F} {xs ys : List (ConnectionEvent F)}
    (hxs : Accounted h (s, xs)) (hys : ∀ h', s.Follows h' → Accounted h' (s', ys)) :
    Accounted h (s', xs ++ ys) :=
  EventLog.Accounts.append hxs (hys _ hxs.2)

theorem Accounted.moved {r : Connection F × List (ConnectionEvent F)} (hr : Accounted h r)
    (phase : TickPhase) : Accounted h ({ r.1 with tickPhase := phase }, r.2) :=
  ⟨hr.1, hr.2.unseen rfl hr.2.joining⟩

/-! ### The user -/

theorem accounted_sendAuthIdentity (hf : s.Follows h) : Accounted h s.sendAuthIdentity := by
  unfold sendAuthIdentity
  split
  · exact hf.quiet rfl hf.joining
  split
  next link hlink =>
    split
    · exact hf.event trivial rfl hf.joining
    · exact hf.quiet rfl hf.joining
  · exact hf.quiet rfl hf.joining

theorem accounted_disconnectIntentionally (hf : s.Follows h) :
    Accounted h s.disconnectIntentionally :=
  hf.event trivial rfl hf.joining

theorem follows_dial (hf : s.Follows h) (outcome : StartOutcome) : (s.dial outcome).1.Follows h :=
  hf.unseen rfl hf.joining

theorem accounted_tofuAccept (hf : s.Follows h) : Accounted h s.tofuAccept := by
  unfold tofuAccept
  split
  · exact hf.quiet rfl hf.joining
  split
  · exact hf.quiet rfl hf.joining
  next fp hfp =>
    have htrusted : Accounted h (s, [.trusted s.serverAddress fp true]) :=
      hf.event trivial rfl hf.joining
    exact htrusted.append fun _ hf' => accounted_sendAuthIdentity (hf'.unseen rfl hf'.joining)

theorem follows_joinChannel (hf : s.Follows h) (id : ChannelId) : (s.joinChannel id).Follows h := by
  unfold joinChannel
  split
  · exact hf
  next hin => exact hf.unseen rfl fun _ => by simp at hin; exact hin.1

@[simp] theorem joinChannel_history (id : ChannelId) : (s.joinChannel id).history = s.history := by
  unfold joinChannel
  split <;> rfl

@[simp] theorem joinChannel_authenticated (id : ChannelId) :
    (s.joinChannel id).authenticated = s.authenticated := by
  unfold joinChannel
  split <;> rfl

theorem accounted_leaveChannel (hf : s.Follows h) : Accounted h s.leaveChannel := by
  unfold leaveChannel
  split
  · exact hf.quiet rfl hf.joining
  next hin =>
    have hup : s.authenticated = true := by simp at hin; exact hin.1
    exact hf.event (by simp [ReconnectHistory.Allowed, history, hup]) rfl hf.joining

variable [DecidableEq F]

theorem accounted_finishConnect (hf : s.Follows h) : Accounted h s.finishConnect := by
  unfold finishConnect
  split
  · exact accounted_sendAuthIdentity hf
  next fp hfp =>
    split
    · exact hf.event trivial rfl hf.joining
    · have htrusted : Accounted h (s, [.trusted s.serverAddress fp false]) :=
        hf.event trivial rfl hf.joining
      exact htrusted.append fun _ hf' => accounted_sendAuthIdentity (hf'.unseen rfl hf'.joining)
    · exact accounted_sendAuthIdentity hf

theorem accounted_doConnect (hf : s.Follows h) (outcome : StartOutcome) (nowMs : Int) :
    Accounted h (s.doConnect outcome nowMs) := by
  unfold doConnect
  split
  · exact hf.quiet rfl hf.joining
  extract_lets t username u
  split
  · exact hf.event trivial rfl hf.joining
  next w _ =>
    have hasked : Accounted h (w, [.userConnect]) := hf.event trivial rfl hf.joining
    split
    · exact hasked.append fun _ hf' => accounted_finishConnect hf'
    split
    · exact hasked
    split
    next s' hs' =>
      have hdialed : ∀ h', w.Follows h' → Accounted h' ({ s' with awaitingConnection := true },
          [.dialed s'.serverAddress false nowMs]) := fun h' hf' => by
        have hdial := follows_dial hf' outcome
        rw [hs'] at hdial
        exact hdial.event trivial rfl hdial.joining
      exact hasked.append hdialed
    next s' hs' =>
      have hfailed : ∀ h', w.Follows h' → Accounted h' ({ s' with
          loginError := "Failed to connect to server", showLogin := true }, []) := fun h' hf' => by
        have hdial := follows_dial hf' outcome
        rw [hs'] at hdial
        exact hdial.quiet rfl hdial.joining
      exact hasked.append hfailed

theorem accounted_connectServer (hf : s.Follows h) (id : Nat) (passwordless : Bool)
    (outcome : StartOutcome) (nowMs : Int) :
    Accounted h (s.connectServer id passwordless outcome nowMs) := by
  unfold connectServer
  split
  · exact hf.quiet rfl hf.joining
  split
  · exact hf.quiet rfl hf.joining
  split
  · exact hf.quiet rfl hf.joining
  split
  · exact hf.quiet rfl hf.joining
  next server hserver =>
    extract_lets nickname t
    have hselected : Accounted h (t, [.selected id]) := hf.event trivial rfl hf.joining
    split
    · exact hselected.append fun _ hf' => accounted_doConnect hf' outcome nowMs
    · exact hselected

theorem accounted_userStep (hf : s.Follows h) (op : ConnectionOp F) :
    Accounted h (s.userStep op) := by
  cases op with
  | connectServer id passwordless outcome nowMs =>
    exact accounted_connectServer hf id passwordless outcome nowMs
  | doConnect outcome nowMs => exact accounted_doConnect hf outcome nowMs
  | cancelLogin => exact hf.event trivial rfl hf.joining
  | tofuAccept => exact accounted_tofuAccept hf
  | tofuReject => exact hf.event trivial rfl hf.joining
  | disconnectServer => exact accounted_disconnectIntentionally hf
  | joinChannel id =>
    have hjoined := follows_joinChannel hf id
    exact EventLog.Accounts.quiet hjoined
  | leaveChannel => exact accounted_leaveChannel hf
  | _ => exact hf.quiet rfl hf.joining

/-! ### The messages of the server -/

omit [DecidableEq F] in
theorem accounted_onAuthResponse (hf : s.Follows h) (serverName : Bytes) (nowMs : Int) :
    Accounted h (s.onAuthResponse serverName nowMs) := by
  unfold onAuthResponse
  extract_lets t channel
  split
  next hrejoin =>
    obtain ⟨hpending, _⟩ := Bool.and_eq_true_iff.mp hrejoin
    have hallowed : s.history.Allowed (.authenticated nowMs channel : ConnectionEvent F) := by
      have hrejoins : s.rejoinPending = true := hpending
      simp [ReconnectHistory.Allowed, history, hrejoins, channel, t]
    exact hf.event hallowed (joinChannel_history ..) fun _ => (joinChannel_authenticated ..)
  next hrejoin =>
    have hallowed : s.history.Allowed (.authenticated nowMs 0 : ConnectionEvent F) := by
      have hstays : s.rejoinPending = true → s.reconnectChannel = 0 := by
        simpa [channel, t] using hrejoin
      by_cases hpending : s.rejoinPending = true
      · simp [ReconnectHistory.Allowed, history, hpending, hstays hpending]
      · simp [ReconnectHistory.Allowed, history, hpending]
    exact hf.event hallowed rfl fun _ => rfl

omit [DecidableEq F] in
theorem accounted_onServerError (hf : s.Follows h) (code : BitVec 16) (msg : Bytes) :
    Accounted h (s.onServerError code msg) := by
  simp only [onServerError]
  split
  next hterminal =>
    obtain ⟨hup, _⟩ := Bool.and_eq_true_iff.mp hterminal
    have hallowed : s.history.Allowed (.expelled : ConnectionEvent F) := by
      simp [ReconnectHistory.Allowed, history, hup]
    split
    · exact hf.event hallowed rfl hf.joining
    · exact hf.event hallowed rfl hf.joining
  next hterminal =>
    split
    · exact hf.quiet rfl hf.joining
    · exact hf.quiet rfl hf.joining

omit [DecidableEq F] in
theorem accounted_handleServerMessage (hf : s.Follows h) (nowMs : Int) (msg : SessionMessage) :
    Accounted h (s.handleServerMessage nowMs msg) := by
  cases msg with
  | authResponse serverName => exact accounted_onAuthResponse hf serverName nowMs
  | serverError code msg => exact accounted_onServerError hf code msg
  | leftChannel => exact accounted_leaveChannel hf
  | other => exact hf.quiet rfl hf.joining
  | channelUserList channel =>
    simp only [handleServerMessage, onChannelUserList]
    split
    next hawaited =>
      obtain ⟨hwaiting, _⟩ := Bool.and_eq_true_iff.mp hawaited
      have hup := hf.joining hwaiting
      exact hf.event (by simp [ReconnectHistory.Allowed, history, hup]) rfl nofun
    · exact hf.quiet rfl hf.joining

omit [DecidableEq F] in
theorem accounted_handleServerMessages (hf : s.Follows h) (nowMs : Int)
    (messages : List SessionMessage) : Accounted h (s.handleServerMessages nowMs messages) := by
  induction messages generalizing s h with
  | nil => exact hf.quiet rfl hf.joining
  | cons msg messages ih =>
    exact (accounted_handleServerMessage hf nowMs msg).append fun _ hf' => ih hf'

omit [DecidableEq F] in
theorem accounted_processServerMessages (hf : s.Follows h) (nowMs : Int) :
    Accounted h (s.processServerMessages nowMs) := by
  have hread : ({ s with net := { s.net with incoming := [] } } : Connection F).Follows h :=
    hf.unseen rfl hf.joining
  exact accounted_handleServerMessages hread nowMs _

/-! ### The drop of a connection, and the reconnect -/

/-- The counter of the flaps reaches its limit with the fourth short session in a row. -/
theorem flaps_iff (short : Bool) (flaps : Nat) :
    (short && decide (4 ≤ if short then flaps + 1 else 0)) = true ↔ short = true ∧ 3 ≤ flaps := by
  cases short <;> simp

omit [DecidableEq F] in
theorem accounted_onDisconnectCleanup (hf : s.Follows h) (nowMs : Int) :
    Accounted h (s.onDisconnectCleanup nowMs) := by
  unfold onDisconnectCleanup
  extract_lets wasAuthenticated previousChannel t
  split
  next hleft =>
    have hout : s.history.outcome nowMs = .intentional := if_pos hleft
    exact hf.event hout.symm rfl nofun
  next hstays =>
    have hleft : s.history.left = false := Bool.eq_false_of_not_eq_true hstays
    split
    next hlost =>
      obtain ⟨hup, hknown⟩ := Bool.and_eq_true_iff.mp hlost
      have hsession : s.history.session = some s.authSuccessMs := if_pos hup
      have hselected : s.history.known = true := hknown
      have hout : s.history.outcome nowMs =
          if decide (nowMs - s.authSuccessMs < 5000) = true ∧ 3 ≤ s.reconnectFlaps then .gaveUp
          else .armed (decide (nowMs - s.authSuccessMs < 5000)) s.currentChannel := by
        rw [ReconnectHistory.outcome, hleft, hsession, hselected]
        rfl
      split
      next hgiveUp =>
        rw [if_pos ((flaps_iff _ _).mp hgiveUp)] at hout
        exact hf.event hout.symm rfl nofun
      next hagain =>
        rw [if_neg (mt (flaps_iff _ _).mpr hagain)] at hout
        refine hf.event hout.symm ?_ nofun
        have hpace : nowMs + 500 - reconnectBackoffMs 0 = nowMs := Int.add_sub_cancel ..
        simp [history, ReconnectHistory.after, ReconnectHistory.dropped, hpace, t]
        rfl
    next hno =>
      split
      next hretrying =>
        have hretry : s.history.retry.isSome = true := by
          have hon : s.reconnecting = true := hretrying
          simp [history, hon]
        have hsession : s.history.session = none := by
          by_contra hsome
          have hsound := hf.sound
          rw [← hf.history] at hsound
          obtain ⟨hnone, _⟩ := hsound.session (Option.isSome_iff_ne_none.mpr hsome)
          simp [hnone] at hretry
        have hout : s.history.outcome nowMs = .failedAttempt := by
          simp [ReconnectHistory.outcome, hleft, hsession, hretry]
        refine hf.event hout.symm ?_ nofun
        have hpace : ∀ k, nowMs + reconnectBackoffMs k - reconnectBackoffMs k = nowMs :=
          fun k => Int.add_sub_cancel ..
        have hon : s.reconnecting = true := hretrying
        simp [history, ReconnectHistory.after, ReconnectHistory.dropped, ReconnectHistory.failed, t,
          hon, hpace]
      next hidle =>
        have hretry : s.history.retry = none := if_neg hidle
        have hout : s.history.outcome nowMs = .nothing := by
          rw [ReconnectHistory.outcome, hleft]
          cases hsession : s.history.session with
          | none => simp [hretry]
          | some since =>
            have hup : s.authenticated = true := by
              by_contra hdown
              simp [history, hdown] at hsession
            have hunknown : s.history.known = false := by
              simpa [wasAuthenticated, hup, history, t] using hno
            simp [hunknown]
        exact hf.event hout.symm rfl nofun

theorem accounted_pollConnecting (hf : s.Follows h) (nowMs : Int) :
    Accounted h (s.pollConnecting nowMs) := by
  unfold pollConnecting
  split
  · simp only
    split
    next hretrying =>
      have hpace : ∀ k, nowMs + reconnectBackoffMs k - reconnectBackoffMs k = nowMs :=
        fun k => Int.add_sub_cancel ..
      refine hf.event (by simp [ReconnectHistory.Allowed, history, hretrying]) ?_ hf.joining
      simp [history, ReconnectHistory.after, ReconnectHistory.failed, hretrying, hpace]
    · exact hf.quiet rfl hf.joining
  split
  · exact accounted_finishConnect (hf.unseen rfl hf.joining)
  · exact hf.quiet rfl hf.joining

omit [DecidableEq F] in
theorem accounted_attemptReconnect (hf : s.Follows h) (hretrying : s.reconnecting = true)
    (hout : s.authenticated = false) {nowMs : Int} (hdue : s.reconnectNextAttemptMs ≤ nowMs)
    (outcome : StartOutcome) : Accounted h (s.attemptReconnect outcome nowMs) := by
  have hleft : s.intentionalDisconnect = false := by
    by_contra hgone
    have hsound := hf.sound
    rw [← hf.history] at hsound
    have hnone := hsound.left (Bool.eq_true_of_not_eq_false hgone)
    simp [history, hretrying] at hnone
  unfold attemptReconnect
  split
  · exact hf.event trivial rfl hf.joining
  next server hserver =>
    extract_lets username t
    have hdial := follows_dial (s := t) (hf.unseen rfl hf.joining) outcome
    split
    next s' hs' =>
      rw [hs'] at hdial
      have hsame : s'.history = s.history := hdial.history.trans hf.history.symm
      have hallowed : s.history.Due nowMs := by
        refine ⟨hleft, if_neg (by simp [hout]), _, _, if_pos hretrying, ?_⟩
        rwa [Int.sub_add_cancel]
      exact hdial.event (by rwa [hsame]) rfl hdial.joining
    next s' hs' =>
      rw [hs'] at hdial
      have hon : s'.reconnecting = true :=
        (congrArg (fun r => r.1.reconnecting) hs').symm.trans hretrying
      have hpace : ∀ k, nowMs + reconnectBackoffMs k - reconnectBackoffMs k = nowMs :=
        fun k => Int.add_sub_cancel ..
      refine hdial.event (by simp [ReconnectHistory.Allowed, history, hon]) ?_ hdial.joining
      simp [history, ReconnectHistory.after, ReconnectHistory.failed, hon, hpace]

omit [DecidableEq F] in
theorem follows_saveTicket (hf : s.Follows h) : s.saveTicket.Follows h := by
  unfold saveTicket
  split
  · exact hf
  · exact hf.unseen rfl hf.joining

theorem accounted_tickStep (hf : s.Follows h) (outcome : StartOutcome) (nowMs : Int) :
    Accounted h (s.tickStep outcome nowMs) := by
  unfold tickStep
  split
  · split
    · exact hf.quiet rfl hf.joining
    · exact hf.quiet rfl hf.joining
  · have hread := accounted_processServerMessages hf nowMs
    exact (hread.append fun _ hf' => accounted_onDisconnectCleanup hf' nowMs).moved .polling
  · have hticket := follows_saveTicket hf
    simp only
    split
    · exact (accounted_pollConnecting hticket nowMs).moved .reconnecting
    · exact hticket.quiet rfl hticket.joining
  · simp only
    split
    next hdue =>
      simp only [Bool.and_eq_true, Bool.not_eq_true', decide_eq_true_eq] at hdue
      obtain ⟨⟨⟨hretrying, _⟩, hout⟩, hnow⟩ := hdue
      exact (accounted_attemptReconnect hf hretrying hout hnow outcome).moved .reading
    · exact hf.quiet rfl hf.joining
  · exact (accounted_processServerMessages hf nowMs).moved .outside

/-! ### Runs -/

omit [DecidableEq F] in
theorem accounted_onLink (hf : s.Follows h) {event : Link F → Connection F}
    (hevent : ∀ link, (event link).Follows h) : Accounted h (s.onLink event, []) := by
  unfold onLink
  split
  · exact hf.quiet rfl hf.joining
  next link hlink =>
    split
    · exact hf.quiet rfl hf.joining
    · exact EventLog.Accounts.quiet (hevent link)

theorem accounted_step (hf : s.Follows h) (op : ConnectionOp F) : Accounted h (s.step op) := by
  have huser : Accounted h (if s.tickPhase = .outside then s.userStep op else (s, [])) := by
    split
    · exact accounted_userStep hf op
    · exact hf.quiet rfl hf.joining
  cases op with
  | tick outcome nowMs => exact accounted_tickStep hf outcome nowMs
  | certificate fp =>
    refine accounted_onLink hf fun link => ?_
    split
    · exact hf.unseen rfl hf.joining
    · exact hf
  | connected controlStream =>
    refine accounted_onLink hf fun link => ?_
    split
    · exact hf.unseen rfl hf.joining
    · exact hf
  | resumptionTicket ticket => exact accounted_onLink hf fun _ => hf.unseen rfl hf.joining
  | message msg => exact accounted_onLink hf fun _ => hf.unseen rfl hf.joining
  | shutdownInitiated => exact accounted_onLink hf fun _ => hf.unseen rfl hf.joining
  | shutdownComplete => exact accounted_onLink hf fun _ => hf.unseen rfl hf.joining
  | _ => exact huser

omit [DecidableEq F] in
theorem follows_new (settings : ConnectionSettings F) (hasIdentity : Bool) (globalName : Bytes) :
    (new settings hasIdentity globalName).Follows {} where
  history := rfl
  sound := ⟨nofun, nofun, fun _ => rfl⟩
  joining := nofun

theorem accounted_run (settings : ConnectionSettings F) (hasIdentity : Bool) (globalName : Bytes)
    (ops : List (ConnectionOp F)) : Accounted {} (run settings hasIdentity globalName ops) :=
  EventLog.run_accounts (fun _ _ op hf => accounted_step hf op)
    (follows_new settings hasIdentity globalName) ops

/-- The application is one with the history of its events at any time, and does only what the policy
asks for. -/
theorem reconnects_by_history (settings : ConnectionSettings F) (hasIdentity : Bool)
    (globalName : Bytes) (ops : List (ConnectionOp F)) :
    let r := run settings hasIdentity globalName ops
    r.1.history = Machine.run ReconnectHistory.after {} r.2 ∧
      Machine.AllSteps ReconnectHistory.after ReconnectHistory.Allowed {} r.2 := by
  have hrun := accounted_run settings hasIdentity globalName ops
  exact ⟨hrun.2.history, hrun.1⟩

/-! ### Automatic attempts -/

end Connection

/-- What ends a reconnect for good. -/
def ConnectionEvent.GivesUp : ConnectionEvent F → Prop
  | .userConnect | .leaving | .serverGone | .authenticated _ _ => True
  | .dropped _ .intentional | .dropped _ .gaveUp => True
  | _ => False

/-- The drop of a session that is made again. -/
def ConnectionEvent.Arms : ConnectionEvent F → Prop
  | .dropped _ (.armed _ _) => True
  | _ => False

namespace ReconnectHistory

variable {h : ReconnectHistory}

theorem retry_of_givesUp {e : ConnectionEvent F} (he : e.GivesUp) : (h.after e).retry = none := by
  cases e with
  | dropped nowMs outcome => cases outcome <;> first | rfl | exact he.elim
  | userConnect => rfl
  | leaving => rfl
  | serverGone => rfl
  | authenticated nowMs rejoined => rfl
  | _ => exact he.elim

/-- Nothing but the loss of a session starts a reconnect. -/
theorem retry_after {e : ConnectionEvent F} (hnone : h.retry = none) (he : ¬ e.Arms) :
    (h.after e).retry = none := by
  cases e with
  | dropped nowMs outcome =>
    cases outcome with
    | armed short channel => exact absurd trivial he
    | failedAttempt => simp [ReconnectHistory.after, dropped, failed, hnone]
    | _ => first | rfl | exact hnone
  | attemptFailed nowMs => simp [ReconnectHistory.after, failed, hnone]
  | dialed address automatic nowMs => cases automatic <;> exact hnone
  | _ => first | rfl | exact hnone

theorem retry_run {log : List (ConnectionEvent F)} (hnone : h.retry = none)
    (hlog : ∀ e ∈ log, ¬ e.Arms) : (Machine.run ReconnectHistory.after h log).retry = none := by
  induction log generalizing h with
  | nil => exact hnone
  | cons e log ih =>
    obtain ⟨he, hrest⟩ := List.forall_mem_cons.mp hlog
    exact ih (retry_after hnone he) hrest

end ReconnectHistory

namespace Connection

variable [DecidableEq F]

/-- Once the user has left or connected himself, the application has given up or the server has let
the user in, there is no automatic attempt before another session is lost. -/
theorem armed_before_dialed (settings : ConnectionSettings F) (hasIdentity : Bool)
    (globalName : Bytes) (ops : List (ConnectionOp F)) {front mid back : List (ConnectionEvent F)}
    {e : ConnectionEvent F} {address : ServerAddress} {nowMs : Int}
    (hlog : (run settings hasIdentity globalName ops).2 =
      front ++ e :: (mid ++ .dialed address true nowMs :: back)) (he : e.GivesUp) :
    ∃ lost ∈ mid, lost.Arms := by
  have hallowed := (accounted_run settings hasIdentity globalName ops).1
  rw [hlog] at hallowed
  obtain ⟨_, _, hmid⟩ := Machine.allSteps_append.mp hallowed
  obtain ⟨_, ⟨_, _, since, failures, hretry, _⟩, _⟩ := Machine.allSteps_append.mp hmid
  by_contra hno
  have hnone := ReconnectHistory.retry_run
    (ReconnectHistory.retry_of_givesUp (h := Machine.run ReconnectHistory.after {} front) he)
    fun lost hlost harms => hno ⟨lost, hlost, harms⟩
  rw [hnone] at hretry
  cases hretry

/-- One server is saved and was not met before. -/
def homeServer : ConnectionSettings Nat where
  tofuCerts := fun _ => none
  savedServers := [⟨1, [97], [97], 7800, none, [110], []⟩]
  nextServerId := 2
  resumptionTickets := fun _ => none
  nextServerId_pos := by decide
  ids_pos := by decide
  ids_lt := by decide

/-- A session of 9 s that is lost, and the first attempt to make it again. -/
def lostSession : List (ConnectionOp Nat) :=
  [.connectServer 1 true .started 0, .certificate 5, .connected true, .tick .started 10,
    .tick .started 10, .message (.authResponse [104]), .tick .started 10, .tick .started 10,
    .shutdownComplete, .tick .started 9000, .tick .started 9000, .tick .started 9000,
    .tick .started 9000, .tick .started 9000, .tick .started 9600, .tick .started 9600,
    .tick .started 9600]

theorem lostSession_log : (run homeServer true [] lostSession).2 =
    [.selected 1, .userConnect, .dialed ⟨[97], 7800⟩ false 0, .trusted ⟨[97], 7800⟩ 5 false,
      .authIdentity ⟨⟨[97], 7800⟩, some 5, false⟩ [110] []] ++
    .authenticated 10 0 :: ([.dropped 9000 (.armed false 0)] ++
      .dialed ⟨[97], 7800⟩ true 9600 :: []) := rfl

theorem armed_before_dialed_lost :
    ∃ lost ∈ [ConnectionEvent.dropped 9000 (.armed false 0)], (lost : ConnectionEvent Nat).Arms :=
  armed_before_dialed homeServer true [] lostSession lostSession_log trivial

end Connection

end Parties.Client

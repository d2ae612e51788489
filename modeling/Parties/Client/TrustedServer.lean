import Parties.Client.Connection

/-!
# To whom the client authenticates

The identity goes out over a connection that has shown a certificate only while the store
trusts this very fingerprint for the address the connection was made to; and an entry of the
store is replaced only behind a warning the user has accepted. The flow compares with the
address that is selected, not with the one that was dialed: so no server may be selected while
a connection is up or being made, and no handshake may complete before the drop in front of it
is cleaned up.
-/

namespace Parties.Client

variable {F : Type}

/-! ### The law -/

/-- The store behind an event. -/
def ConnectionEvent.store (certs : ServerAddress → Option F) :
    ConnectionEvent F → ServerAddress → Option F
  | .trusted address fp _ => Function.update certs address (some fp)
  | _ => certs

/-- The store behind the events of a log. -/
def trustOf (certs : ServerAddress → Option F) (log : List (ConnectionEvent F)) :
    ServerAddress → Option F :=
  log.foldl ConnectionEvent.store certs

/-- What holds of trust and authentication, given the events in front. -/
def TrustsServer (certs : ServerAddress → Option F) (front : List (ConnectionEvent F)) :
    ConnectionEvent F → Prop
  | .authIdentity link _ _ => ∀ fp ∈ link.cert, trustOf certs front link.address = some fp
  | .trusted address _ false => trustOf certs front address = none
  | .trusted address fp true => .warned address fp ∈ front
  | _ => True

variable {certs : ServerAddress → Option F} {log events : List (ConnectionEvent F)}

theorem trustOf_concat (certs : ServerAddress → Option F) (log : List (ConnectionEvent F))
    (e : ConnectionEvent F) : trustOf certs (log ++ [e]) = e.store (trustOf certs log) := by
  rw [trustOf, List.foldl_append]
  rfl

/-- An event that is neither about the store nor about the identity. -/
def ConnectionEvent.Aside : ConnectionEvent F → Prop
  | .authIdentity _ _ _ | .trusted _ _ _ => False
  | _ => True

theorem trustsServer_of_aside {e : ConnectionEvent F} (h : e.Aside) : TrustsServer certs log e := by
  cases e <;> first | exact h.elim | trivial

theorem store_of_aside {e : ConnectionEvent F} (h : e.Aside) : e.store certs = certs := by
  cases e <;> first | exact h.elim | rfl

/-! ### The conditions -/

/-- No server is selected while there is a connection or a warning, and no handshake overtakes
the cleanup of a drop. -/
def Orderly (s : Connection F) : ConnectionOp F → Prop
  | .connectServer _ _ _ _ =>
    s.net.connected = false ∧ s.net.connecting = false ∧ s.tofuPending = false
  | .connected _ => s.disconnectPending = false ∧ s.tickPhase ≠ .cleaning
  | _ => True

instance Orderly.decidable (s : Connection F) (op : ConnectionOp F) : Decidable (Orderly s op) :=
  match op with
  | .connectServer _ _ _ _ => inferInstanceAs (Decidable (_ ∧ _ ∧ _))
  | .connected _ => inferInstanceAs (Decidable (_ ∧ _))
  | .editLogin _ _ | .doConnect _ _ | .cancelLogin | .tofuAccept | .tofuReject | .disconnectServer
  | .saveServer _ _ _ _ | .deleteServer _ | .saveIdentity | .tick _ _ | .certificate _
  | .resumptionTicket _ | .message _ | .shutdownInitiated | .shutdownComplete | .joinChannel _
  | .leaveChannel =>
    isTrue trivial

/-! ### What the check depends on -/

structure TrustView (F : Type) where
  connected : Bool
  connecting : Bool
  link : Option (Link F)
  fingerprint : Option F
  address : ServerAddress
  certs : ServerAddress → Option F
  pending : Bool
  pendingFingerprint : Option F
  /-- A drop is not cleaned up yet. -/
  dropPending : Bool
  /-- Where the server to connect to is, by its record. -/
  savedAddress : Option ServerAddress
  idUsed : Bool

def Connection.trustView (s : Connection F) : TrustView F where
  connected := s.net.connected
  connecting := s.net.connecting
  link := s.net.link
  fingerprint := s.net.serverFingerprint
  address := s.serverAddress
  certs := s.settings.tofuCerts
  pending := s.tofuPending
  pendingFingerprint := s.tofuPendingFingerprint
  dropPending := s.disconnectPending || decide (s.tickPhase = .cleaning)
  savedAddress := (s.settings.savedServer s.connectingServerId).map SavedServer.address
  idUsed := decide (s.connectingServerId < s.settings.nextServerId)

/-- The warning is about the certificate of the connection there is. -/
def TrustView.Warned (v : TrustView F) (fp : F) : Prop :=
  v.connecting = false ∧ ∃ link, v.link = some link ∧ link.shutdown = false ∧
    ∀ shown ∈ link.cert, shown = fp

structure Trusting (certs : ServerAddress → Option F) (v : TrustView F)
    (log : List (ConnectionEvent F)) : Prop where
  law : EventLog.Law (TrustsServer certs) log
  store : v.certs = trustOf certs log
  aligned : v.connected = true ∨ v.connecting = true →
    ∃ link, v.link = some link ∧ link.address = v.address ∧ link.shutdown = false
  shown : ∀ link ∈ v.link, ∀ fp ∈ link.cert, v.fingerprint = some fp
  settled : v.connected = true → v.connecting = false ∧ v.dropPending = false
  selected : ∀ address ∈ v.savedAddress, address = v.address
  idUsed : v.idUsed = true
  pending : v.pending = true → ∃ fp, v.pendingFingerprint = some fp ∧
    .warned v.address fp ∈ log ∧ (v.dropPending = false → v.Warned fp)

/-! ### The store of servers -/

namespace ConnectionSettings

variable (t : ConnectionSettings F)

/-- A server the user may have selected keeps its address when another one is saved. -/
theorem savedServer_saveServer {name host lastUsername password : Bytes} {port id : Nat}
    {fingerprint : Option F} (hid : id < t.nextServerId) :
    ((t.saveServer name host port fingerprint lastUsername password).savedServer id).map
      SavedServer.address = (t.savedServer id).map SavedServer.address := by
  unfold saveServer
  split
  · simp only [savedServer, List.find?_map, Option.map_map]
    have hsame : ((fun server : SavedServer F => decide (server.id = id)) ∘
        resave name host port fingerprint lastUsername password) =
        fun server => decide (server.id = id) := by
      funext server
      simp
    have haddress : (SavedServer.address ∘
        resave (F := F) name host port fingerprint lastUsername password) =
        SavedServer.address := by
      funext server
      simp
    rw [hsame, haddress]
  · have hnew : ¬ t.nextServerId = id := fun h => by omega
    simp [savedServer, List.find?_append, hnew]

/-- A deleted server is gone, every other one is found as before. -/
theorem savedServer_deleteServer {id other : Nat} {server : SavedServer F}
    (h : (t.deleteServer other).savedServer id = some server) : t.savedServer id = some server := by
  have hkept := List.find?_some h
  have hother : ¬ server.id = other := by
    have hmem := List.mem_of_find?_eq_some h
    simpa using (List.mem_filter.mp hmem).2
  simp only [decide_eq_true_eq] at hkept
  rw [savedServer, deleteServer, List.find?_filter] at h
  have hpred : (fun candidate : SavedServer F =>
      decide (decide (candidate.id ≠ other) = true ∧ decide (candidate.id = id) = true)) =
      fun candidate => decide (candidate.id = id) := by
    funext candidate
    by_cases hid : candidate.id = id
    · have hcandidate : ¬ candidate.id = other := by rwa [hid, ← hkept]
      simp [hid, ← hkept, hother]
    · simp [hid]
  rwa [hpred] at h

theorem nextServerId_le_saveServer (name host : Bytes) (port : Nat) (fingerprint : Option F)
    (lastUsername password : Bytes) : t.nextServerId ≤
      (t.saveServer name host port fingerprint lastUsername password).nextServerId := by
  unfold saveServer
  split
  · exact le_rfl
  · exact Nat.le_succ _

@[simp] theorem tofuCerts_saveServer {name host lastUsername password : Bytes} {port : Nat}
    {fingerprint : Option F} :
    (t.saveServer name host port fingerprint lastUsername password).tofuCerts = t.tofuCerts := by
  unfold saveServer
  split <;> rfl

end ConnectionSettings

/-- The invariant of the application and its log. -/
def Trusts (certs : ServerAddress → Option F) (r : Connection F × List (ConnectionEvent F)) : Prop :=
  Trusting certs r.1.trustView r.2

namespace Trusting

variable {v v' : TrustView F}

theorem quiet (h : Trusting certs v log) : Trusting certs v (log ++ []) := by
  rwa [List.append_nil]

theorem event (h : Trusting certs v log) {e : ConnectionEvent F} (hlaw : TrustsServer certs log e) :
    Trusting certs { v with certs := e.store v.certs } (log ++ [e]) where
  law := EventLog.law_concat.mpr ⟨h.law, hlaw⟩
  store := by rw [trustOf_concat, ← h.store]
  aligned := h.aligned
  shown := h.shown
  settled := h.settled
  selected := h.selected
  idUsed := h.idUsed
  pending := fun hpending => by
    obtain ⟨fp, hfp, hwarned, hrest⟩ := h.pending hpending
    exact ⟨fp, hfp, List.mem_append_left _ hwarned, hrest⟩

theorem aside (h : Trusting certs v log) (haside : ∀ e ∈ events, e.Aside) :
    Trusting certs v (log ++ events) := by
  induction events generalizing log with
  | nil => simpa using h
  | cons e events ih =>
    obtain ⟨he, hrest⟩ := List.forall_mem_cons.mp haside
    have hnext : Trusting certs v (log ++ [e]) := by
      simpa only [store_of_aside he] using h.event (trustsServer_of_aside he)
    have hall := ih hnext hrest
    rwa [List.append_assoc] at hall

/-- A step of the state in which nothing new is up, and a drop stays to be cleaned up. -/
theorem closed (h : Trusting certs v log) (hconnected : v'.connected = false)
    (hconnecting : v'.connecting = false) (hcerts : v'.certs = v.certs)
    (haddress : v'.address = v.address) (hsaved : v'.savedAddress = v.savedAddress)
    (hidUsed : v'.idUsed = v.idUsed)
    (hshown : ∀ link ∈ v'.link, ∀ fp ∈ link.cert, v'.fingerprint = some fp)
    (hpending : v'.pending = true → v.pending = true ∧ v'.pendingFingerprint = v.pendingFingerprint ∧
      (v'.dropPending = false → v.dropPending = false ∧ ∀ fp, v.Warned fp → v'.Warned fp)) :
    Trusting certs v' log where
  law := h.law
  store := hcerts.trans h.store
  aligned := fun hup => by simp [hconnected, hconnecting] at hup
  shown := hshown
  settled := fun hup => by simp [hconnected] at hup
  selected := by rw [haddress, hsaved]; exact h.selected
  idUsed := hidUsed.trans h.idUsed
  pending := fun hp => by
    obtain ⟨hold, hfingerprint, hwarn⟩ := hpending hp
    obtain ⟨fp, hfp, hwarned, hlive⟩ := h.pending hold
    refine ⟨fp, hfingerprint.trans hfp, haddress ▸ hwarned, fun hdrop => ?_⟩
    obtain ⟨hdropOld, hkeep⟩ := hwarn hdrop
    exact hkeep fp (hlive hdropOld)

/-- The address that is selected is dialed. -/
theorem dialed (h : Trusting certs v log) (hdown : v.connected = false) (hlink : v.link = none) :
    Trusting certs { v with connecting := true, link := some { address := v.address } } log where
  law := h.law
  store := h.store
  aligned := fun _ => ⟨_, rfl, rfl, rfl⟩
  shown := by simp
  settled := fun hup => absurd (hdown.symm.trans hup) Bool.false_ne_true
  selected := h.selected
  idUsed := h.idUsed
  pending := fun hpending => by
    obtain ⟨fp, hfp, hwarned, hlive⟩ := h.pending hpending
    refine ⟨fp, hfp, hwarned, fun hdrop => ?_⟩
    obtain ⟨_, link, hsome, _⟩ := hlive hdrop
    rw [hlink] at hsome
    cases hsome

/-- The record of the selected server is the same, or gone. -/
theorem records (h : Trusting certs v log) {savedAddress : Option ServerAddress} {idUsed : Bool}
    (hsaved : ∀ address ∈ savedAddress, address ∈ v.savedAddress) (hidUsed : idUsed = true) :
    Trusting certs { v with savedAddress := savedAddress, idUsed := idUsed } log :=
  ⟨h.law, h.store, h.aligned, h.shown, h.settled,
    fun address h' => h.selected address (hsaved address h'), hidUsed, h.pending⟩

/-- The pending warning is settled or dropped with its connection. -/
theorem unpend (h : Trusting certs v log) : Trusting certs { v with pending := false } log :=
  ⟨h.law, h.store, h.aligned, h.shown, h.settled, h.selected, h.idUsed, nofun⟩

/-- The drop in front is cleaned up, so nothing is up and nothing is pending. -/
theorem cleaned (h : Trusting certs v log) (hdrop : v.dropPending = true) (dropPending : Bool) :
    Trusting certs { v with pending := false, dropPending := dropPending } log where
  law := h.law
  store := h.store
  aligned := h.aligned
  shown := h.shown
  settled := fun hup => by
    obtain ⟨_, hclean⟩ := h.settled hup
    exact absurd (hclean.symm.trans hdrop) Bool.false_ne_true
  selected := h.selected
  idUsed := h.idUsed
  pending := nofun

end Trusting

/-! ### The transport -/

namespace Connection

variable {s : Connection F}

theorem closeReports_of_warned {fp : F} (h : s.trustView.Warned fp) : s.net.closeReports = true := by
  obtain ⟨_, link, hlink, hshutdown, _⟩ := h
  have : s.net.link = some link := hlink
  simp [NetClient.closeReports, this, hshutdown]

theorem trusting_disconnect (h : Trusting certs s.trustView log) :
    Trusting certs ({ s with
      net := s.net.disconnect.1
      disconnectPending := s.disconnectPending || s.net.disconnect.2 } : Connection F).trustView
      log := by
  unfold NetClient.disconnect
  split
  · simpa [trustView] using h
  · refine h.closed rfl rfl rfl rfl rfl rfl nofun fun hpending => ⟨hpending, rfl, fun hdrop => ?_⟩
    simp only [trustView, Bool.or_eq_false_iff] at hdrop ⊢
    obtain ⟨⟨hold, hreported⟩, hphase⟩ := hdrop
    refine ⟨⟨hold, hphase⟩, fun fp hwarned => ?_⟩
    rw [closeReports_of_warned hwarned] at hreported
    cases hreported

/-- A new connection is made only where the old one is gone. -/
theorem connect_eq (h : Trusting certs s.trustView log) (hdown : s.net.connected = false)
    (address : ServerAddress) (outcome : StartOutcome) : ∃ failed, s.net.connect address outcome =
      match outcome with
      | .started => ({ s.net with connecting := true, connectFailed := false, link := some { address } },
          true, s.net.closeReports)
      | _ => ({ s.net with connecting := false, connectFailed := failed, link := none }, false,
          s.net.closeReports) := by
  have hidle : s.net.closeReports = false → s.net.connecting = false := by
    intro hreports
    by_contra hconnecting
    obtain ⟨link, hlink, _, hshutdown⟩ := h.aligned (Or.inr (Bool.eq_true_of_not_eq_false hconnecting))
    have : s.net.link = some link := hlink
    simp [NetClient.closeReports, this, hshutdown] at hreports
  unfold NetClient.connect
  rw [if_neg (by simp [hdown])]
  cases hreports : s.net.closeReports with
  | true => cases outcome <;> simp [NetClient.shutdownFlags, hdown]
  | false => cases outcome <;> simp [hidle hreports]

theorem trusting_dial (h : Trusting certs s.trustView log) (outcome : StartOutcome) :
    Trusting certs (s.dial outcome).1.trustView log := by
  cases hup : s.net.connected with
  | true => simpa [dial, NetClient.connect, hup, trustView] using h
  | false =>
    obtain ⟨failed, hconnect⟩ := connect_eq h hup s.serverAddress outcome
    have hclosed : Trusting certs { s.trustView with
        connecting := false, link := none
        dropPending := s.trustView.dropPending || s.net.closeReports } log := by
      refine h.closed hup rfl rfl rfl rfl rfl nofun fun hpending => ⟨hpending, rfl, fun hdrop => ?_⟩
      obtain ⟨hold, hreported⟩ := Bool.or_eq_false_iff.mp hdrop
      refine ⟨hold, fun fp hwarned => ?_⟩
      rw [closeReports_of_warned hwarned] at hreported
      cases hreported
    cases outcome with
    | notOpened => simpa [dial, hconnect, trustView, Bool.or_right_comm] using hclosed
    | notStarted => simpa [dial, hconnect, trustView, Bool.or_right_comm] using hclosed
    | started =>
      have hdialed := hclosed.dialed hup rfl
      simpa [dial, hconnect, trustView, Bool.or_right_comm] using hdialed

theorem trusting_disconnectIntentionally (h : Trusting certs s.trustView log) :
    Trusting certs s.disconnectIntentionally.1.trustView (log ++ s.disconnectIntentionally.2) :=
  (trusting_disconnect h).event (e := .leaving) trivial

/-! ### The saved servers -/

theorem trusting_saveServer (h : Trusting certs s.trustView log) (name host : Bytes) (port : Nat)
    (fingerprint : Option F) (username password : Bytes) : Trusting certs ({ s with
      settings := s.settings.saveServer name host port fingerprint username password }
        : Connection F).trustView log := by
  have hused : s.connectingServerId < s.settings.nextServerId := of_decide_eq_true h.idUsed
  have hlater := hused.trans_le
    (s.settings.nextServerId_le_saveServer name host port fingerprint username password)
  have hrecords := h.records (fun address h' => h') (decide_eq_true hlater)
  simp only [trustView, ConnectionSettings.tofuCerts_saveServer,
    s.settings.savedServer_saveServer hused]
  exact hrecords

theorem trusting_deleteServer (h : Trusting certs s.trustView log) (id : Nat) : Trusting certs
    ({ s with settings := s.settings.deleteServer id } : Connection F).trustView log := by
  refine h.records (fun address haddress => ?_) h.idUsed
  obtain ⟨server, hserver, hat⟩ := Option.map_eq_some_iff.mp haddress
  exact Option.map_eq_some_iff.mpr ⟨server, s.settings.savedServer_deleteServer hserver, hat⟩

/-! ### Voice channels -/

theorem joinChannel_view (id : ChannelId) : (s.joinChannel id).trustView = s.trustView := by
  unfold joinChannel
  split <;> rfl

theorem trusting_leaveChannel (h : Trusting certs s.trustView log) :
    Trusting certs s.leaveChannel.1.trustView (log ++ s.leaveChannel.2) := by
  unfold leaveChannel
  split
  · exact h.quiet
  · exact h.event (e := .moved 0) trivial

/-! ### Authentication -/

/-- The identity goes out where the certificate shown is the one in the store. -/
theorem trusting_sendAuthIdentity (h : Trusting certs s.trustView log)
    (htrusted : s.net.connected = true → ∀ link ∈ s.net.link, ∀ fp ∈ link.cert,
      s.settings.tofuCerts link.address = some fp) :
    Trusting certs s.sendAuthIdentity.1.trustView (log ++ s.sendAuthIdentity.2) := by
  unfold sendAuthIdentity
  split
  · simpa using h
  cases hlink : s.net.link with
  | none => simpa [trustView] using h
  | some link =>
    cases hup : s.net.connected with
    | false => simpa [trustView] using h
    | true =>
      have hlaw : TrustsServer certs log (.authIdentity link s.username s.serverPassword) := by
        intro fp hfp
        rw [← h.store]
        exact htrusted hup link hlink fp hfp
      simpa [trustView, ConnectionEvent.store, hup, hlink] using h.event hlaw

/-- The fingerprint of the connection is trusted, and the identity goes out. -/
theorem trusting_trusted {s' : Connection F} (h : Trusting certs s.trustView log) {fp : F}
    {accepted : Bool} (hlaw : TrustsServer certs log (.trusted s.serverAddress fp accepted))
    (hshown : s.net.connected = true →
      ∀ link ∈ s.net.link, link.address = s.serverAddress ∧ ∀ shown ∈ link.cert, shown = fp)
    (hview : s'.trustView = { s.trustView with
      certs := Function.update s.settings.tofuCerts s.serverAddress (some fp) }) :
    Trusting certs s'.sendAuthIdentity.1.trustView
      (log ++ .trusted s.serverAddress fp accepted :: s'.sendAuthIdentity.2) := by
  have htrusted : Trusting certs s'.trustView (log ++ [.trusted s.serverAddress fp accepted]) := by
    rw [hview]
    exact h.event hlaw
  rw [List.append_cons]
  refine trusting_sendAuthIdentity htrusted fun hup link hlink shown hcert => ?_
  have hup' : s.net.connected = true := (congrArg TrustView.connected hview).symm.trans hup
  have hlink' : s.net.link = some link := (congrArg TrustView.link hview).symm.trans hlink
  have hcerts : s'.settings.tofuCerts = _ := congrArg TrustView.certs hview
  obtain ⟨haddress, hsame⟩ := hshown hup' link hlink'
  rw [hcerts, haddress, hsame shown hcert]
  exact Function.update_self ..

theorem trusting_tofuAccept (h : Trusting certs s.trustView log) :
    Trusting certs s.tofuAccept.1.trustView (log ++ s.tofuAccept.2) := by
  unfold tofuAccept
  cases hpending : s.tofuPending with
  | false => simpa using h
  | true =>
    obtain ⟨fp, hfp, hwarned, hlive⟩ := h.pending hpending
    rw [if_neg (by simp)]
    split
    next hnone => exact absurd (hnone.symm.trans hfp) nofun
    next shown hshown =>
      obtain rfl : shown = fp := Option.some_inj.mp (hshown.symm.trans hfp)
      refine trusting_trusted (s := { s with tofuPending := false }) h.unpend hwarned ?_ rfl
      intro hup link hlink
      obtain ⟨_, hdrop⟩ := h.settled hup
      obtain ⟨_, alive, halive, _, hcert⟩ := hlive hdrop
      obtain ⟨dialed, hdialed, haddress, _⟩ := h.aligned (Or.inl hup)
      obtain rfl : alive = link := Option.some_inj.mp (halive.symm.trans hlink)
      obtain rfl : dialed = alive := Option.some_inj.mp (hdialed.symm.trans hlink)
      exact ⟨haddress, hcert⟩

variable [DecidableEq F]

theorem trusting_finishConnect (h : Trusting certs s.trustView log)
    (hup : s.net.connected = true) :
    Trusting certs s.finishConnect.1.trustView (log ++ s.finishConnect.2) := by
  obtain ⟨hconnecting, hdrop⟩ := h.settled hup
  obtain ⟨link, hlink, haddress, hshutdown⟩ := h.aligned (Or.inl hup)
  unfold finishConnect
  cases hprint : s.net.serverFingerprint with
  | none =>
    -- a resumed session has shown no certificate
    refine trusting_sendAuthIdentity h fun _ l hl fp hfp => ?_
    have hshown := h.shown l hl fp hfp
    exact absurd (hprint.symm.trans hshown) nofun
  | some fp =>
    have hshown : ∀ l ∈ s.net.link, l.address = s.serverAddress ∧ ∀ shown ∈ l.cert, shown = fp := by
      intro l hl
      obtain rfl : link = l := Option.some_inj.mp (hlink.symm.trans hl)
      refine ⟨haddress, fun shown hcert => ?_⟩
      have hsome := h.shown link hl shown hcert
      exact Option.some_inj.mp (hsome.symm.trans hprint)
    simp only [ConnectionSettings.checkFingerprint]
    cases hstored : s.settings.tofuCerts s.serverAddress with
    | none =>
      refine trusting_trusted h ?_ (fun _ => hshown) rfl
      exact (congrFun h.store.symm _).trans hstored
    | some stored =>
      by_cases hsame : stored = fp
      · simp only [hsame, if_true]
        refine trusting_sendAuthIdentity h fun _ l hl shown hcert => ?_
        obtain ⟨hl', hcert'⟩ := hshown l hl
        rw [hl', hcert' shown hcert, hstored, hsame]
      · simp only [hsame, if_false]
        have hwarned := h.event (e := .warned s.serverAddress fp) trivial
        refine ⟨hwarned.law, hwarned.store, hwarned.aligned, hwarned.shown, hwarned.settled,
          hwarned.selected, hwarned.idUsed, fun _ =>
            ⟨fp, rfl, List.mem_append_right _ (List.mem_singleton_self _), fun _ => ?_⟩⟩
        exact ⟨hconnecting, link, hlink, hshutdown, (hshown link hlink).2⟩

/-! ### The user -/

theorem trusting_doConnect (h : Trusting certs s.trustView log) (outcome : StartOutcome)
    (nowMs : Int) : Trusting certs (s.doConnect outcome nowMs).1.trustView
      (log ++ (s.doConnect outcome nowMs).2) := by
  have hasked := h.event (e := .userConnect) trivial
  unfold doConnect
  split
  · exact h.quiet
  extract_lets t username u
  split
  · exact hasked
  next w _ =>
    split
    next hup =>
      have hfinish := trusting_finishConnect (s := w) hasked hup
      rwa [List.append_assoc] at hfinish
    split
    · exact hasked
    have hdial := trusting_dial (s := w) hasked outcome
    split
    next s' hs' =>
      rw [hs'] at hdial
      have hdialed := hdial.event (e := .dialed s'.serverAddress false nowMs) trivial
      rwa [List.append_assoc] at hdialed
    next s' hs' =>
      rw [hs'] at hdial
      exact hdial

theorem trusting_connectServer (h : Trusting certs s.trustView log) {id : Nat} {passwordless : Bool}
    {outcome : StartOutcome} {nowMs : Int}
    (horderly : Orderly s (.connectServer id passwordless outcome nowMs)) :
    Trusting certs (s.connectServer id passwordless outcome nowMs).1.trustView
      (log ++ (s.connectServer id passwordless outcome nowMs).2) := by
  obtain ⟨hdown, hidle, hsettled⟩ := horderly
  unfold connectServer
  split
  · exact h.quiet
  split
  · exact h.quiet
  split
  · exact h.quiet
  split
  · exact h.quiet
  next server hserver =>
    extract_lets nickname t
    have hselected : Trusting certs t.trustView log := by
      refine ⟨h.law, h.store, fun hup => ?_, h.shown, h.settled, fun address hsaved => ?_, ?_,
        fun hpending => ?_⟩
      · obtain hup | hup := hup
        · exact absurd (hdown.symm.trans hup) Bool.false_ne_true
        · exact absurd (hidle.symm.trans hup) Bool.false_ne_true
      · have hsome : (s.settings.savedServer id).map SavedServer.address = some address := hsaved
        rw [hserver] at hsome
        exact (Option.some_inj.mp hsome).symm
      · have hfound : server.id = id := by simpa using List.find?_some hserver
        have hlt := s.settings.ids_lt server (List.mem_of_find?_eq_some hserver)
        exact decide_eq_true (by rwa [hfound] at hlt)
      · exact absurd (hsettled.symm.trans hpending) Bool.false_ne_true
    have hlogged := hselected.event (e := .selected id) trivial
    split
    · have hconnect := trusting_doConnect hlogged outcome nowMs
      rwa [List.append_assoc] at hconnect
    · exact hlogged

theorem trusting_userStep (h : Trusting certs s.trustView log) {op : ConnectionOp F}
    (horderly : Orderly s op) :
    Trusting certs (s.userStep op).1.trustView (log ++ (s.userStep op).2) := by
  cases op with
  | connectServer id passwordless outcome nowMs => exact trusting_connectServer h horderly
  | doConnect outcome nowMs => exact trusting_doConnect h outcome nowMs
  | cancelLogin => exact trusting_disconnectIntentionally h
  | tofuAccept => exact trusting_tofuAccept h
  | tofuReject => exact trusting_disconnectIntentionally (s := { s with tofuPending := false }) h.unpend
  | disconnectServer => exact trusting_disconnectIntentionally h
  | saveServer name host port username => exact (trusting_saveServer h ..).quiet
  | deleteServer id => exact (trusting_deleteServer h id).quiet
  | joinChannel id => exact (joinChannel_view id ▸ h).quiet
  | leaveChannel => exact trusting_leaveChannel h
  | _ => exact h.quiet

/-! ### The messages of the server -/

omit [DecidableEq F] in
/-- An error changes what the login shows, and whether the end of the session is meant. -/
theorem onServerError_fst (code : BitVec 16) (msg : Bytes) :
    ∃ intentional shown error, (s.onServerError code msg).1 = { s with
      intentionalDisconnect := intentional
      showLogin := shown
      loginError := error } := by
  unfold onServerError
  dsimp only
  cases s.authenticated && decide (code = SERVER_ERROR_KICKED ∨ code = SERVER_ERROR_REPLACED) with
  | true =>
    rw [if_pos rfl]
    split
    · exact ⟨_, _, _, rfl⟩
    · exact ⟨_, _, _, rfl⟩
  | false =>
    rw [if_neg Bool.false_ne_true]
    split
    · exact ⟨_, _, _, rfl⟩
    · exact ⟨_, _, _, rfl⟩

omit [DecidableEq F] in
theorem onServerError_view (code : BitVec 16) (msg : Bytes) :
    (s.onServerError code msg).1.trustView = s.trustView := by
  obtain ⟨_, _, _, hfst⟩ := s.onServerError_fst code msg
  rw [hfst]
  rfl

omit [DecidableEq F] in
theorem trusting_handleServerMessage (h : Trusting certs s.trustView log) (nowMs : Int)
    (msg : SessionMessage) : Trusting certs (s.handleServerMessage nowMs msg).1.trustView
      (log ++ (s.handleServerMessage nowMs msg).2) := by
  cases msg with
  | other => exact h.quiet
  | leftChannel => exact trusting_leaveChannel h
  | channelUserList channel =>
    simp only [handleServerMessage, onChannelUserList]
    split
    · exact h.event (e := .moved channel) trivial
    · exact h.quiet
  | serverError code msg =>
    simp only [handleServerMessage, onServerError_view]
    refine h.aside fun e he => ?_
    simp only [onServerError] at he
    split at he
    · obtain rfl := List.mem_singleton.mp he
      trivial
    · cases he
  | authResponse serverName =>
    have hsaved := trusting_saveServer h serverName s.serverAddress.host s.serverAddress.port.toNat
      s.net.serverFingerprint s.username s.serverPassword
    simp only [handleServerMessage, onAuthResponse]
    split
    · rw [joinChannel_view]
      exact hsaved.event (e := .authenticated nowMs s.reconnectChannel) trivial
    · exact hsaved.event (e := .authenticated nowMs 0) trivial

omit [DecidableEq F] in
theorem trusting_handleServerMessages (h : Trusting certs s.trustView log) (nowMs : Int)
    (messages : List SessionMessage) :
    Trusting certs (s.handleServerMessages nowMs messages).1.trustView
      (log ++ (s.handleServerMessages nowMs messages).2) := by
  induction messages generalizing s log with
  | nil => exact h.quiet
  | cons msg messages ih =>
    have hrest := ih (trusting_handleServerMessage h nowMs msg)
    rwa [List.append_assoc] at hrest

/-! ### `tick` -/

omit [DecidableEq F] in
theorem trusting_processServerMessages (h : Trusting certs s.trustView log) (nowMs : Int) :
    Trusting certs (s.processServerMessages nowMs).1.trustView
      (log ++ (s.processServerMessages nowMs).2) :=
  trusting_handleServerMessages (s := { s with net := { s.net with incoming := [] } }) h nowMs _

omit [DecidableEq F] in
/-- What the cleanup does to the connection. -/
theorem onDisconnectCleanup_spec (nowMs : Int) :
    (s.onDisconnectCleanup nowMs).1.trustView = { s.trustView with pending := false } ∧
      (s.onDisconnectCleanup nowMs).1.disconnectPending = s.disconnectPending ∧
      ∃ outcome, (s.onDisconnectCleanup nowMs).2 = [.dropped nowMs outcome] := by
  unfold onDisconnectCleanup
  extract_lets wasAuthenticated previousChannel t
  split
  · exact ⟨rfl, rfl, _, rfl⟩
  split
  · split
    · exact ⟨rfl, rfl, _, rfl⟩
    · exact ⟨rfl, rfl, _, rfl⟩
  split
  · exact ⟨rfl, rfl, _, rfl⟩
  · exact ⟨rfl, rfl, _, rfl⟩

theorem trusting_pollConnecting (h : Trusting certs s.trustView log) (nowMs : Int) :
    Trusting certs (s.pollConnecting nowMs).1.trustView (log ++ (s.pollConnecting nowMs).2) := by
  have hclosed := trusting_disconnect h
  unfold pollConnecting
  split
  · simp only
    split
    · exact hclosed.event (e := .attemptFailed nowMs) trivial
    · exact hclosed.quiet
  split
  next hup => exact trusting_finishConnect (s := { s with awaitingConnection := false }) h hup
  · exact h.quiet

omit [DecidableEq F] in
theorem trusting_attemptReconnect (h : Trusting certs s.trustView log) (outcome : StartOutcome)
    (nowMs : Int) : Trusting certs (s.attemptReconnect outcome nowMs).1.trustView
      (log ++ (s.attemptReconnect outcome nowMs).2) := by
  unfold attemptReconnect
  split
  · exact h.event (e := .serverGone) trivial
  next server hserver =>
    extract_lets username t
    -- the record of the server is where the address came from
    have haddress : server.address = s.serverAddress :=
      h.selected server.address (by simp [trustView, hserver])
    have hview : t.trustView = s.trustView := by
      simp [t, trustView, haddress]
    have hdial := trusting_dial (s := t) (by rwa [hview]) outcome
    split
    next s' hs' =>
      rw [hs'] at hdial
      exact hdial.event (e := .dialed s'.serverAddress true nowMs) trivial
    next s' hs' =>
      rw [hs'] at hdial
      exact hdial.event (e := .attemptFailed nowMs) trivial

omit [DecidableEq F] in
theorem saveTicket_view : s.saveTicket.trustView = s.trustView := by
  unfold saveTicket
  split
  · rfl
  · split <;> rfl

/-! The parts of `tick` do not know where it is. -/

omit [DecidableEq F] in
@[simp] theorem sendAuthIdentity_tickPhase : s.sendAuthIdentity.1.tickPhase = s.tickPhase := by
  unfold sendAuthIdentity
  split <;> rfl

@[simp] theorem finishConnect_tickPhase : s.finishConnect.1.tickPhase = s.tickPhase := by
  unfold finishConnect
  split
  · exact sendAuthIdentity_tickPhase
  split
  · rfl
  · exact sendAuthIdentity_tickPhase
  · exact sendAuthIdentity_tickPhase

@[simp] theorem pollConnecting_tickPhase (nowMs : Int) :
    (s.pollConnecting nowMs).1.tickPhase = s.tickPhase := by
  unfold pollConnecting
  split
  · simp only
    split <;> rfl
  split
  · exact finishConnect_tickPhase
  · rfl

omit [DecidableEq F] in
@[simp] theorem attemptReconnect_tickPhase (outcome : StartOutcome) (nowMs : Int) :
    (s.attemptReconnect outcome nowMs).1.tickPhase = s.tickPhase := by
  unfold attemptReconnect
  split
  · rfl
  · simp only
    split
    next s' hs' => exact congrArg (fun r => r.1.tickPhase) hs'.symm
    next s' hs' => exact congrArg (fun r => r.1.tickPhase) hs'.symm

omit [DecidableEq F] in
@[simp] theorem joinChannel_tickPhase (id : ChannelId) :
    (s.joinChannel id).tickPhase = s.tickPhase := by
  unfold joinChannel
  split <;> rfl

omit [DecidableEq F] in
@[simp] theorem handleServerMessage_tickPhase (nowMs : Int) (msg : SessionMessage) :
    (s.handleServerMessage nowMs msg).1.tickPhase = s.tickPhase := by
  cases msg with
  | other => rfl
  | leftChannel =>
    simp only [handleServerMessage, leaveChannel]
    split <;> rfl
  | channelUserList channel =>
    simp only [handleServerMessage, onChannelUserList]
    split <;> rfl
  | serverError code msg =>
    obtain ⟨_, _, _, hfst⟩ := s.onServerError_fst code msg
    rw [handleServerMessage, hfst]
  | authResponse serverName =>
    simp only [handleServerMessage, onAuthResponse]
    split
    · exact joinChannel_tickPhase _
    · rfl

omit [DecidableEq F] in
@[simp] theorem handleServerMessages_tickPhase (nowMs : Int) (messages : List SessionMessage) :
    (s.handleServerMessages nowMs messages).1.tickPhase = s.tickPhase := by
  induction messages generalizing s with
  | nil => rfl
  | cons msg messages ih =>
    exact (ih (s := (s.handleServerMessage nowMs msg).1)).trans (handleServerMessage_tickPhase ..)

omit [DecidableEq F] in
@[simp] theorem saveTicket_tickPhase : s.saveTicket.tickPhase = s.tickPhase := by
  unfold saveTicket
  split <;> rfl

omit [DecidableEq F] in
/-- `tick` goes from one part that is not the cleanup to another. -/
theorem moved_view {phase : TickPhase} (hfrom : s.tickPhase ≠ .cleaning) (hto : phase ≠ .cleaning) :
    ({ s with tickPhase := phase } : Connection F).trustView = s.trustView := by
  simp [trustView, hfrom, hto]

theorem trusting_tickStep (h : Trusting certs s.trustView log) (outcome : StartOutcome)
    (nowMs : Int) : Trusting certs (s.tickStep outcome nowMs).1.trustView
      (log ++ (s.tickStep outcome nowMs).2) := by
  unfold tickStep
  split
  next hphase =>
    split
    next hpending =>
      have hview : ({ s with disconnectPending := false, tickPhase := .cleaning }
          : Connection F).trustView = s.trustView := by
        simp [trustView, hpending]
      rw [hview]
      exact h.quiet
    next hpending =>
      rw [moved_view (by simp [hphase]) (by simp)]
      exact h.quiet
  next hphase =>
    have hread := trusting_processServerMessages h nowMs
    obtain ⟨hview, hlater, outcome, hdropped⟩ :=
      onDisconnectCleanup_spec (s := (s.processServerMessages nowMs).1) nowMs
    have hcleaning : (s.processServerMessages nowMs).1.trustView.dropPending = true := by
      simp [trustView, processServerMessages, hphase]
    have hcleaned := (hread.cleaned hcleaning
      (s.processServerMessages nowMs).1.disconnectPending).event (e := .dropped nowMs outcome) trivial
    have hpolling : ({ ((s.processServerMessages nowMs).1.onDisconnectCleanup nowMs).1 with
        tickPhase := .polling } : Connection F).trustView =
        { ((s.processServerMessages nowMs).1.onDisconnectCleanup nowMs).1.trustView with
          dropPending := (s.processServerMessages nowMs).1.disconnectPending } := by
      simp [trustView, hlater]
    simp only [hdropped, hpolling, hview]
    rwa [List.append_assoc] at hcleaned
  next hphase =>
    simp only
    split
    · have hpoll := trusting_pollConnecting (s := s.saveTicket) (by rwa [saveTicket_view]) nowMs
      rwa [moved_view (by simp [hphase]) (by simp)]
    · rw [moved_view (by simp [hphase]) (by simp), saveTicket_view]
      exact h.quiet
  next hphase =>
    simp only
    split
    · rw [moved_view (by simp [hphase]) (by simp)]
      exact trusting_attemptReconnect h outcome nowMs
    · rw [moved_view (by simp [hphase]) (by simp)]
      exact h.quiet
  next hphase =>
    have hread := trusting_processServerMessages h nowMs
    simp only
    rwa [moved_view (by simp [processServerMessages, hphase]) (by simp)]

/-! ### The worker thread -/

omit [DecidableEq F] in
theorem onLink_cases (event : Link F → Connection F) : s.onLink event = s ∨
    ∃ link, s.net.link = some link ∧ link.shutdown = false ∧ s.onLink event = event link := by
  unfold onLink
  split
  · exact Or.inl rfl
  next link hlink =>
    split
    · exact Or.inl rfl
    next hshutdown => exact Or.inr ⟨link, hlink, Bool.eq_false_of_not_eq_true hshutdown, rfl⟩

omit [DecidableEq F] in
/-- While a connection is being made, a warning is left from one that is not cleaned up. -/
theorem dropPending_of_connecting (h : Trusting certs s.trustView log)
    (hconnecting : s.net.connecting = true) (hpending : s.tofuPending = true) :
    s.trustView.dropPending = true := by
  obtain ⟨fp, _, _, hlive⟩ := h.pending hpending
  by_contra hdrop
  obtain ⟨hidle, _⟩ := hlive (Bool.eq_false_of_not_eq_true hdrop)
  exact Bool.false_ne_true (hidle.symm.trans hconnecting)

omit [DecidableEq F] in
theorem trusting_onCertificate (h : Trusting certs s.trustView log) (fp : F) :
    Trusting certs (s.onCertificate fp).trustView log := by
  obtain hsame | ⟨link, hlink, hshutdown, hevent⟩ := s.onLink_cases fun link =>
    if s.net.connecting && link.cert.isNone then
      { s with net := { s.net with link := some { link with cert := some fp },
                                   serverFingerprint := some fp } }
    else s
  · rw [onCertificate, hsame]
    exact h
  rw [onCertificate, hevent]
  split
  next hfresh =>
    obtain ⟨hconnecting, hcert⟩ := Bool.and_eq_true_iff.mp hfresh
    refine ⟨h.law, h.store, fun hup => ?_, fun l hl shown hshown => ?_, h.settled, h.selected, h.idUsed,
      fun hpending => ?_⟩
    · obtain ⟨dialed, hdialed, haddress, halive⟩ := h.aligned hup
      obtain rfl : link = dialed := Option.some_inj.mp (hlink.symm.trans hdialed)
      exact ⟨_, rfl, haddress, halive⟩
    · obtain rfl := Option.some_inj.mp hl
      exact hshown
    · obtain ⟨warned, hwarnedFp, hwarned, _⟩ := h.pending hpending
      refine ⟨warned, hwarnedFp, hwarned, fun hclean => ?_⟩
      have hdrop := dropPending_of_connecting h hconnecting hpending
      exact absurd (hclean.symm.trans hdrop) Bool.false_ne_true
  · exact h

omit [DecidableEq F] in
theorem trusting_onConnected (h : Trusting certs s.trustView log) {controlStream : Bool}
    (horderly : Orderly s (.connected controlStream)) :
    Trusting certs (s.onConnected controlStream).trustView log := by
  obtain ⟨hclean, hphase⟩ := horderly
  have hdrop : s.trustView.dropPending = false := by simp [trustView, hclean, hphase]
  obtain hsame | ⟨link, hlink, hshutdown, hevent⟩ := s.onLink_cases fun _ =>
    if s.net.connecting then
      { s with net := { s.net with connecting := false, connected := controlStream } }
    else s
  · rw [onConnected, hsame]
    exact h
  rw [onConnected, hevent]
  split
  next hconnecting =>
    refine ⟨h.law, h.store, fun _ => h.aligned (Or.inr hconnecting), h.shown, fun _ => ⟨rfl, hdrop⟩,
      h.selected, h.idUsed, fun hpending => ?_⟩
    exact absurd (hdrop.symm.trans (dropPending_of_connecting h hconnecting hpending))
      Bool.false_ne_true
  · exact h

omit [DecidableEq F] in
theorem trusting_onShutdownInitiated (h : Trusting certs s.trustView log) :
    Trusting certs s.onShutdownInitiated.trustView log := by
  obtain hsame | ⟨link, hlink, hshutdown, hevent⟩ :=
    s.onLink_cases fun _ => { s with net := s.net.shutdownFlags }
  · rw [onShutdownInitiated, hsame]
    exact h
  rw [onShutdownInitiated, hevent]
  refine h.closed rfl rfl rfl rfl rfl rfl h.shown fun hpending => ⟨hpending, rfl, fun hdrop => ?_⟩
  refine ⟨hdrop, fun fp hwarned => ?_⟩
  obtain ⟨_, hlive⟩ := hwarned
  exact ⟨rfl, hlive⟩

omit [DecidableEq F] in
theorem trusting_onShutdownComplete (h : Trusting certs s.trustView log) :
    Trusting certs s.onShutdownComplete.trustView log := by
  obtain hsame | ⟨link, hlink, hshutdown, hevent⟩ := s.onLink_cases fun link =>
    { s with net := { s.net.shutdownFlags with link := some { link with shutdown := true } }
             disconnectPending := true }
  · rw [onShutdownComplete, hsame]
    exact h
  rw [onShutdownComplete, hevent]
  refine h.closed rfl rfl rfl rfl rfl rfl (fun l hl fp hfp => ?_) fun hpending =>
    ⟨hpending, rfl, nofun⟩
  obtain rfl := Option.some_inj.mp hl
  exact h.shown link hlink fp hfp

theorem trusting_step (h : Trusting certs s.trustView log) {op : ConnectionOp F}
    (horderly : Orderly s op) :
    Trusting certs (s.step op).1.trustView (log ++ (s.step op).2) := by
  have huser : ∀ r : Connection F × List (ConnectionEvent F),
      r = (if s.tickPhase = .outside then s.userStep op else (s, [])) →
      Trusting certs r.1.trustView (log ++ r.2) := by
    rintro r rfl
    split
    · exact trusting_userStep h horderly
    · exact h.quiet
  cases op with
  | tick outcome nowMs => exact trusting_tickStep h outcome nowMs
  | certificate fp => exact (trusting_onCertificate h fp).quiet
  | connected controlStream => exact (trusting_onConnected h horderly).quiet
  | shutdownInitiated => exact (trusting_onShutdownInitiated h).quiet
  | shutdownComplete => exact (trusting_onShutdownComplete h).quiet
  | resumptionTicket ticket =>
    obtain hsame | ⟨link, _, _, hevent⟩ :=
      s.onLink_cases fun _ => { s with pendingTicket := some ticket }
    · simpa [step, hsame] using h
    · simpa [step, hevent, trustView] using h
  | message msg =>
    obtain hsame | ⟨link, _, _, hevent⟩ := s.onLink_cases fun _ =>
      { s with net := { s.net with incoming := s.net.incoming ++ [msg] } }
    · simpa [step, hsame] using h
    · simpa [step, hevent, trustView] using h
  | _ => exact huser _ rfl

omit [DecidableEq F] in
theorem trusting_new (settings : ConnectionSettings F) (hasIdentity : Bool) (globalName : Bytes) :
    Trusting settings.tofuCerts (new settings hasIdentity globalName).trustView [] := by
  have hnone : settings.savedServer 0 = none := by
    refine List.find?_eq_none.mpr fun server hserver => ?_
    have hpos := settings.ids_pos server hserver
    simp only [decide_eq_true_eq]
    omega
  refine ⟨EventLog.law_nil, rfl, fun hup => ?_, nofun, nofun, fun address haddress => ?_,
    decide_eq_true settings.nextServerId_pos, nofun⟩
  · simp [new, trustView] at hup
  · simp [new, trustView, hnone] at haddress

/-- The identity never goes out over a connection whose certificate is not the one the store has
for the address that was dialed, and the store forgets a fingerprint only behind a warning the user
has accepted. -/
theorem authenticates_trusted (settings : ConnectionSettings F) (hasIdentity : Bool)
    (globalName : Bytes) (ops : List (ConnectionOp F))
    (hsteps : Machine.AllSteps (Machine.logged step) (fun r op => Orderly r.1 op)
      (new settings hasIdentity globalName, []) ops) :
    EventLog.Law (TrustsServer settings.tofuCerts) (run settings hasIdentity globalName ops).2 := by
  have hrun : Trusts settings.tofuCerts (run settings hasIdentity globalName ops) :=
    Machine.run_invariant (fun _ _ h horderly => trusting_step h horderly)
      (trusting_new settings hasIdentity globalName) hsteps
  exact hrun.law

/-- Two saved servers, of which one has been met. -/
def twoServers : ConnectionSettings Nat where
  tofuCerts := fun address => if address = ⟨[97], 7800⟩ then some 1 else none
  savedServers := [⟨1, [97], [97], 7800, none, [110], []⟩, ⟨2, [98], [98], 7800, none, [110], []⟩]
  nextServerId := 3
  resumptionTickets := fun _ => none
  nextServerId_pos := by decide
  ids_pos := by decide
  ids_lt := by decide

theorem authenticates_trusted_first :
    let ops := [.connectServer 2 true .started 0, .certificate 5, .connected true, .tick .started 10,
      .tick .started 10]
    (run twoServers true [] ops).2.length = 5 ∧
      EventLog.Law (TrustsServer twoServers.tofuCerts) (run twoServers true [] ops).2 :=
  ⟨by decide, authenticates_trusted twoServers true [] _ (by decide)⟩

/-- Where another server is selected behind a warning, the identity goes to the server the warning
is about. -/
example : ¬ EventLog.Law (TrustsServer twoServers.tofuCerts) (run twoServers true []
    [.connectServer 1 true .started 0, .certificate 5, .connected true, .tick .started 10,
      .tick .started 10, .tick .started 10, .tick .started 10, .connectServer 2 true .started 20]).2 := by
  intro h
  have hfront : EventLog.Law (TrustsServer twoServers.tofuCerts)
      ([.selected 1, .userConnect, .dialed ⟨[97], 7800⟩ false 0, .warned ⟨[97], 7800⟩ 5, .selected 2,
        .userConnect, .trusted ⟨[98], 7800⟩ 5 false] ++
          [.authIdentity ⟨⟨[97], 7800⟩, some 5, false⟩ [110] []]) := h
  obtain ⟨_, hsent⟩ := EventLog.law_concat.mp hfront
  exact absurd (hsent 5 rfl) (by decide)

end Connection

end Parties.Client

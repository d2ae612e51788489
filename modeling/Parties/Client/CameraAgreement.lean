import Parties.Client.CameraEffects

/-!
# The camera agreement

What the client waits for is on its way: the stops it counts and the camera it has on are
matched by the starts the server has yet to take, the listing, and the notices of a stop that
are under way. The one exception is a camera whose start was dropped, while the notice that
takes the client out of its channel is under way.
-/

namespace Parties

open Parties.Video CameraHop

/-! ### Orders -/

/-- The starts on their way that the client stands by. -/
def live : List CameraOrder → Bool → Nat
  | [], _ => 0
  | .start :: behind, announced => (if Upheld behind announced then 1 else 0) + live behind announced
  | .stop :: behind, announced => live behind announced

theorem upheld_append_start (w : List CameraOrder) :
    Upheld (w ++ [.start]) true ↔ Upheld w false := by
  cases w with
  | nil =>
      constructor
      · intro h
        cases h
      · intro h
        cases h
  | cons order rest => exact Iff.rfl

theorem upheld_append_stop (w : List CameraOrder) :
    Upheld (w ++ [.stop]) false ↔ Upheld w true := by
  cases w with
  | nil => exact ⟨fun _ => rfl, fun _ => rfl⟩
  | cons order rest => exact Iff.rfl

theorem upheld_mono {w : List CameraOrder} (h : Upheld w false) : Upheld w true := by
  cases w with
  | nil => rfl
  | cons order rest => exact h

theorem upheld_of_ne_nil {w : List CameraOrder} (h : w ≠ []) :
    Upheld w true ↔ Upheld w false := by
  cases w with
  | nil => exact absurd rfl h
  | cons order rest => exact Iff.rfl

theorem live_append_start (w : List CameraOrder) : live (w ++ [.start]) true = live w false + 1 := by
  induction w with
  | nil => rfl
  | cons order rest ih =>
      cases order with
      | start =>
          rw [List.cons_append, live, live, ih]
          simp only [upheld_append_start]
          omega
      | stop => exact ih

theorem live_append_stop (w : List CameraOrder) : live (w ++ [.stop]) false = live w true := by
  induction w with
  | nil => rfl
  | cons order rest ih =>
      cases order with
      | start =>
          rw [List.cons_append, live, live, ih]
          simp only [upheld_append_stop]
      | stop => exact ih

theorem live_mono (w : List CameraOrder) : live w false ≤ live w true := by
  induction w with
  | nil => exact le_rfl
  | cons order rest ih =>
      cases order with
      | start =>
          rw [live, live]
          by_cases h : Upheld rest false
          · rw [if_pos h, if_pos (upheld_mono h)]
            omega
          · rw [if_neg h]
            omega
      | stop => exact ih

/-- The last start is the one of the camera that is on. -/
theorem live_of_getLast {w : List CameraOrder} (h : w.getLast? = some .start) :
    live w true = live w false + 1 := by
  obtain ⟨rest, rfl⟩ := List.getLast?_eq_some_iff.mp h
  rw [live_append_start]
  congr 1
  clear h
  induction rest with
  | nil => rfl
  | cons order rest ih =>
      cases order with
      | start =>
          have hupheld : Upheld (rest ++ [.start]) false ↔ Upheld rest false := by
            rw [← upheld_of_ne_nil (by simp), upheld_append_start]
          rw [List.cons_append, live, live, ih]
          simp only [hupheld]
      | stop => exact ih

/-! ### The balance -/

/-- The start of the camera that is on was dropped, and the client is about to leave the
channel. -/
structure Lost (k : AppCore) (ns : List Notice) (lists : Bool) : Prop where
  announced : k.announced = true
  orders : k.orders = []
  unlisted : lists = false
  leaving : .left k.currentChannel ∈ ns

/-- The client `k`, the notices on their way to it, and whether the server lists the camera. -/
structure Balanced (k : AppCore) (ns : List Notice) (lists : Bool) : Prop where
  balance : ∃ lost : Bool, k.cameraStopsInFlight + k.announced.toNat =
    ns.count .stopped + lists.toNat + live k.orders k.announced + lost.toNat ∧
      (lost = true → Lost k ns lists)
  listed : lists = true → Upheld k.orders k.announced
  place : k.announced = true → k.currentChannel ≠ 0
  opening : k.cameraStarting = true → k.isCameraOn = true
  preview : k.announced = true → k.cameraPreviewPending = true → k.orders = [] → lists = true →
    ∃ before behind, ns = before ++ .started :: behind ∧ .stopped ∉ behind

variable {k k' : AppCore} {ns news : List Notice} {lists : Bool}

namespace Balanced

/-- Nothing is on its way, and no capture is opening. -/
theorem atRest (h : Balanced k [] lists) (horders : k.orders = [])
    (hstarting : k.cameraStarting = false) :
    (k.isCameraOn = true ↔ lists = true) ∧ k.cameraStopsInFlight = 0 ∧
      (k.isCameraOn = true → k.cameraPreviewPending = false) := by
  have hon : k.announced = k.isCameraOn := by
    rw [AppCore.announced, hstarting, Bool.not_false, Bool.and_true]
  obtain ⟨lost, hbalance, hlost⟩ := h.balance
  have hlisted := h.listed
  have hpreview := h.preview
  rw [hon, horders] at hbalance hlisted hpreview
  cases lost with
  | true => cases (hlost rfl).leaving
  | false =>
      simp only [live, List.count_nil, Bool.toNat_false] at hbalance
      have hequal : lists = k.isCameraOn ∧ k.cameraStopsInFlight = 0 := by
        cases lists with
        | true =>
            have hupheld : k.isCameraOn = true := hlisted rfl
            rw [hupheld] at hbalance ⊢
            simp only [Bool.toNat_true] at hbalance
            exact ⟨rfl, by omega⟩
        | false =>
            cases hcamera : k.isCameraOn with
            | false => exact ⟨rfl, by simpa [hcamera] using hbalance⟩
            | true => simp [hcamera] at hbalance
      obtain ⟨rfl, hstops⟩ := hequal
      refine ⟨Iff.rfl, hstops, fun hcamera => ?_⟩
      rw [← Bool.not_eq_true]
      intro hpending
      obtain ⟨before, behind, heq, -⟩ := hpreview hcamera hpending rfl hcamera
      simp at heq

/-! ### Steps of the client -/

/-- An announced camera is in a channel, where its stop is sent. -/
theorem told (h : Balanced k ns lists) :
    (k.announced && decide (k.currentChannel ≠ 0)) = k.announced := by
  cases hannounced : k.announced with
  | false => rfl
  | true => exact decide_eq_true (h.place hannounced)

theorem sameCamera (h : Balanced k ns lists) (hsame : AppCore.SameCamera k k') :
    Balanced k' ns lists where
  balance := by
    obtain ⟨lost, hbalance, hlost⟩ := h.balance
    refine ⟨lost, ?_, fun heq => ?_⟩
    · rw [hsame.stops, hsame.announced, hsame.orders]
      exact hbalance
    · have hk := hlost heq
      exact ⟨hsame.announced.trans hk.announced, hsame.orders.trans hk.orders, hk.unlisted,
        hsame.channel.symm ▸ hk.leaving⟩
  listed := by
    rw [hsame.orders, hsame.announced]
    exact h.listed
  place := by
    rw [hsame.announced, hsame.channel]
    exact h.place
  opening := by
    rw [hsame.starting, hsame.on]
    exact h.opening
  preview hannounced hpending horders := by
    rw [hsame.announced] at hannounced
    rw [hsame.orders] at horders
    exact h.preview hannounced (hsame.preview hpending) horders

/-- With the camera off only the counts matter. -/
theorem ofOff {told : Bool} {channel : ChannelId} (hoff : AppCore.Off told channel k k')
    (hbalance : k'.cameraStopsInFlight = ns.count .stopped + lists.toNat + live k'.orders false)
    (hlisted : lists = true → Upheld k'.orders false) : Balanced k' ns lists where
  balance := by
    refine ⟨false, ?_, Bool.noConfusion⟩
    rw [hoff.announced]
    simpa using hbalance
  listed := by
    rw [hoff.announced]
    exact hlisted
  place h := by
    rw [hoff.announced] at h
    cases h
  opening h := by
    rw [hoff.starting] at h
    cases h
  preview h := by
    rw [hoff.announced] at h
    cases h

/-- The client switches the camera off and tells the server, unless the start was dropped. -/
theorem off {channel : ChannelId} (h : Balanced k ns lists)
    (hoff : AppCore.Off k.announced channel k k')
    (hnot : k.announced = true → k.orders = [] → lists = false →
      ns.count .stopped ≠ k.cameraStopsInFlight) : Balanced k' ns lists := by
  obtain ⟨lost, hbalance, hlost⟩ := h.balance
  have hlisted := h.listed
  have hstops := hoff.stops
  have horders := hoff.orders
  have hkept : lost = false := by
    rw [← Bool.not_eq_true]
    rintro rfl
    obtain ⟨hannounced, hnone, rfl, -⟩ := hlost rfl
    refine hnot hannounced hnone rfl ?_
    rw [hannounced, hnone] at hbalance
    simp only [live, Bool.toNat_true, Bool.toNat_false] at hbalance
    omega
  subst hkept
  cases hannounced : k.announced with
  | true =>
      rw [hannounced] at hbalance hlisted hstops horders
      rw [if_pos rfl] at horders
      refine ofOff hoff ?_ fun hl => ?_
      · rw [horders, live_append_stop, hstops, hbalance]
        rfl
      · rw [horders, upheld_append_stop]
        exact hlisted hl
  | false =>
      rw [hannounced] at hbalance hlisted hstops horders
      rw [if_neg Bool.false_ne_true, List.append_nil] at horders
      refine ofOff hoff ?_ fun hl => ?_
      · rw [horders, hstops]
        exact hbalance
      · rw [horders]
        exact hlisted hl

/-- The client is taken out of its channel and switches the camera off without a stop. -/
theorem taken {channel channel' : ChannelId} (h : Balanced k (.left channel :: ns) lists)
    (hoff : AppCore.Off false channel' k k')
    (hleft : k.announced = true → k.orders.getLast? = some .start ∨
      (k.orders = [] ∧ lists = false ∧ ns.count .stopped = k.cameraStopsInFlight)) :
    Balanced k' ns lists := by
  obtain ⟨lost, hbalance, hlost⟩ := h.balance
  have hlisted := h.listed
  have hstops : k'.cameraStopsInFlight = k.cameraStopsInFlight := hoff.stops
  have horders : k'.orders = k.orders := hoff.orders.trans (List.append_nil _)
  have hcount : (Notice.left channel :: ns).count .stopped = ns.count .stopped :=
    List.count_cons_of_ne (by simp)
  rw [hcount] at hbalance
  cases hannounced : k.announced with
  | false =>
      have hkept : lost = false := by
        rw [← Bool.not_eq_true]
        intro heq
        have hk := (hlost heq).announced
        rw [hannounced] at hk
        cases hk
      subst hkept
      rw [hannounced] at hbalance hlisted
      refine ofOff hoff ?_ fun hl => ?_
      · rw [horders, hstops]
        exact hbalance
      · rw [horders]
        exact hlisted hl
  | true =>
      rw [hannounced] at hbalance hlisted
      obtain hlast | ⟨hnone, rfl, hall⟩ := hleft hannounced
      · have hsome : k.orders ≠ [] := by
          intro hnone
          rw [hnone] at hlast
          cases hlast
        have hkept : lost = false := by
          rw [← Bool.not_eq_true]
          exact fun heq => hsome (hlost heq).orders
        subst hkept
        rw [live_of_getLast hlast] at hbalance
        refine ofOff hoff ?_ fun hl => ?_
        · rw [horders, hstops]
          simp only [Bool.toNat_true, Bool.toNat_false] at hbalance
          omega
        · rw [horders, ← upheld_of_ne_nil hsome]
          exact hlisted hl
      · refine ofOff hoff ?_ Bool.noConfusion
        rw [horders, hnone, hstops, ← hall]
        rfl

/-- The camera begins to open. -/
theorem opens (h : Balanced k ns lists) (hoff : k.isCameraOn = false) :
    Balanced { k with cameraStarting := true, isCameraOn := true } ns lists := by
  have hannounced : k.announced = false := by rw [AppCore.announced, hoff, Bool.false_and]
  obtain ⟨lost, hbalance, hlost⟩ := h.balance
  have hlisted := h.listed
  rw [hannounced] at hbalance hlisted
  refine ⟨⟨lost, hbalance, fun heq => ?_⟩, hlisted, Bool.noConfusion, fun _ => rfl,
    Bool.noConfusion⟩
  have hk := (hlost heq).announced
  rw [hannounced] at hk
  cases hk

/-- The camera is open, and the server is told. -/
theorem starts (h : Balanced k ns lists) (hstarting : k.cameraStarting = true)
    (hon : k.isCameraOn = true) (hplace : k.currentChannel ≠ 0) {message : ControlMessage}
    (hstart : message.order = some .start) (restart : Bool) :
    Balanced { k with
      cameraStarting := false
      cameraPreviewPending := true
      cameraRestartPending := restart
      outgoing := k.outgoing ++ [message] } ns lists := by
  have hannounced : k.announced = false := by
    rw [AppCore.announced, hstarting, Bool.not_true, Bool.and_false]
  obtain ⟨lost, hbalance, hlost⟩ := h.balance
  have hkept : lost = false := by
    rw [← Bool.not_eq_true]
    intro heq
    have hk := (hlost heq).announced
    rw [hannounced] at hk
    cases hk
  subst hkept
  have hlisted := h.listed
  rw [hannounced] at hbalance hlisted
  have horders := AppCore.orders_sendMessage k message
  rw [hstart] at horders
  generalize hk' : ({ k with
    cameraStarting := false
    cameraPreviewPending := true
    cameraRestartPending := restart
    outgoing := k.outgoing ++ [message] } : AppCore) = k'
  have horders' : k'.orders = k.orders ++ [.start] := by
    subst hk'
    exact horders
  have hannounced' : k'.announced = true := by
    subst hk'
    rw [AppCore.announced, hon]
    rfl
  have hstops : k'.cameraStopsInFlight = k.cameraStopsInFlight := by rw [← hk']
  refine ⟨⟨false, ?_, Bool.noConfusion⟩, fun hl => ?_, fun _ => ?_, fun h => ?_, fun _ _ h => ?_⟩
  · rw [hstops, hannounced', horders', live_append_start]
    simp only [Bool.toNat_true, Bool.toNat_false] at hbalance ⊢
    omega
  · rw [hannounced', horders', upheld_append_start]
    exact hlisted hl
  · rw [← hk']
    exact hplace
  · rw [← hk'] at h
    cases h
  · rw [horders'] at h
    simp at h

/-! ### Notices -/

/-- A notice that is no stop and not the one the client waits for is taken. -/
theorem passes {notice : Notice} (h : Balanced k (notice :: ns) lists)
    (hstopped : notice ≠ .stopped) (hleft : notice = .left k.currentChannel → k.announced = false)
    (hstarted : notice = .started → k.cameraPreviewPending = true → k.cameraStopsInFlight ≠ 0) :
    Balanced k ns lists := by
  obtain ⟨lost, hbalance, hlost⟩ := h.balance
  have hcount : (notice :: ns).count .stopped = ns.count .stopped :=
    List.count_cons_of_ne hstopped
  rw [hcount] at hbalance
  refine ⟨⟨lost, hbalance, fun heq => ?_⟩, h.listed, h.place, h.opening,
    fun hannounced hpending horders hl => ?_⟩
  · have hk := hlost heq
    obtain rfl | hbehind := List.mem_cons.mp hk.leaving
    · have hoff := hleft rfl
      rw [hk.announced] at hoff
      cases hoff
    · exact ⟨hk.announced, hk.orders, hk.unlisted, hbehind⟩
  · obtain ⟨before, behind, hsplit, hlast⟩ := h.preview hannounced hpending horders hl
    cases before with
    | nil =>
        obtain ⟨rfl, rfl⟩ := List.cons.inj hsplit
        -- the client waits for a stop, which would come behind the last start
        have hkept : lost = false := by
          rw [← Bool.not_eq_true]
          intro heq
          have hk := (hlost heq).unlisted
          rw [hl] at hk
          cases hk
        subst hkept
        have hwaits := hstarted rfl hpending
        rw [List.count_eq_zero_of_not_mem hlast, hannounced, hl, horders] at hbalance
        simp only [live, Bool.toNat_true, Bool.toNat_false] at hbalance
        omega
    | cons first before =>
        obtain ⟨rfl, rfl⟩ := List.cons.inj hsplit
        exact ⟨before, behind, rfl, hlast⟩

/-- The client waits for the stop that arrives, or the stop ends the camera it has on. -/
theorem stopped (h : Balanced k (.stopped :: ns) lists) :
    Balanced (if 0 < k.cameraStopsInFlight then
        { k with cameraStopsInFlight := k.cameraStopsInFlight - 1 }
      else if k.announced then { k with cameraPreviewPending := false, isCameraOn := false }
      else k) ns lists := by
  obtain ⟨lost, hbalance, hlost⟩ := h.balance
  have hcount : (Notice.stopped :: ns).count .stopped = ns.count .stopped + 1 :=
    List.count_cons_self
  rw [hcount] at hbalance
  by_cases hwaits : 0 < k.cameraStopsInFlight
  · rw [if_pos hwaits]
    refine ⟨⟨lost, ?_, fun heq => ?_⟩, h.listed, h.place, h.opening,
      fun hannounced hpending horders hl => ?_⟩
    · have hannounced : ({ k with cameraStopsInFlight := k.cameraStopsInFlight - 1 } :
          AppCore).announced = k.announced := rfl
      have horders : ({ k with cameraStopsInFlight := k.cameraStopsInFlight - 1 } :
          AppCore).orders = k.orders := rfl
      rw [hannounced, horders]
      dsimp only
      omega
    · have hk := hlost heq
      exact ⟨hk.announced, hk.orders, hk.unlisted, List.mem_of_ne_of_mem (by simp) hk.leaving⟩
    · obtain ⟨before, behind, hsplit, hlast⟩ := h.preview hannounced hpending horders hl
      cases before with
      | nil => cases hsplit
      | cons first before =>
          obtain ⟨rfl, rfl⟩ := List.cons.inj hsplit
          exact ⟨before, behind, rfl, hlast⟩
  · have hnone : k.cameraStopsInFlight = 0 := Nat.eq_zero_of_not_pos hwaits
    rw [if_neg hwaits]
    rw [hnone] at hbalance
    cases hannounced : k.announced with
    | false =>
        rw [hannounced] at hbalance
        simp only [Bool.toNat_false] at hbalance
        omega
    | true =>
        rw [hannounced, Bool.toNat_true] at hbalance
        rw [if_pos rfl]
        have hlive := live_mono k.orders
        have hunlisted : lists = false := by
          cases lists with
          | false => rfl
          | true =>
              rw [Bool.toNat_true] at hbalance
              omega
        subst hunlisted
        have horders : ({ k with cameraPreviewPending := false, isCameraOn := false } :
            AppCore).orders = k.orders := rfl
        refine ⟨⟨false, ?_, Bool.noConfusion⟩, Bool.noConfusion, Bool.noConfusion, fun hopening => ?_,
          Bool.noConfusion⟩
        · have hoff : ({ k with cameraPreviewPending := false, isCameraOn := false } :
              AppCore).announced = false := rfl
          rw [hoff, horders]
          dsimp only
          rw [hnone]
          simp only [Bool.toNat_false] at hbalance ⊢
          omega
        · have hstarted : k.cameraStarting = false := by
            rw [AppCore.announced, Bool.and_eq_true] at hannounced
            simpa using hannounced.2
          rw [← hopening, hstarted]

/-! ### Steps of the server -/

/-- The server sends notices and keeps or ends the listing of the camera. -/
theorem hears (h : Balanced k ns lists) {lists' : Bool} (hkept : Server.Kept lists' lists news) :
    Balanced k (ns ++ news) lists' := by
  obtain ⟨lost, hbalance, hlost⟩ := h.balance
  obtain ⟨rfl, hnone⟩ | ⟨rfl, hall⟩ := hkept
  · refine ⟨⟨lost, ?_, fun heq => ?_⟩, h.listed, h.place, h.opening,
      fun hannounced hpending horders hl => ?_⟩
    · rw [List.count_append, List.count_eq_zero_of_not_mem hnone]
      exact hbalance
    · have hk := hlost heq
      exact ⟨hk.announced, hk.orders, hk.unlisted, List.mem_append_left _ hk.leaving⟩
    · obtain ⟨before, behind, rfl, hlast⟩ := h.preview hannounced hpending horders hl
      refine ⟨before, behind ++ news, by simp, fun hin => ?_⟩
      exact (List.mem_append.mp hin).elim hlast hnone
  · refine ⟨⟨lost, ?_, fun heq => ?_⟩, Bool.noConfusion, h.place, h.opening,
      fun _ _ _ => Bool.noConfusion⟩
    · rw [List.count_append, hall, Bool.toNat_false]
      omega
    · have hk := hlost heq
      exact ⟨hk.announced, hk.orders, rfl, List.mem_append_left _ hk.leaving⟩

theorem lost_of_cons {lost : Bool} {order : CameraOrder} {rest : List CameraOrder}
    (horders : k.orders = order :: rest) (hlost : lost = true → Lost k ns lists) :
    lost = false := by
  rw [← Bool.not_eq_true]
  intro heq
  have hnone := (hlost heq).orders
  rw [horders] at hnone
  cases hnone

/-- The server takes a stop and ends the listing. -/
theorem takesStop (h : Balanced k ns lists) {outgoing : List ControlMessage}
    (horders : k.orders = .stop :: ({ k with outgoing := outgoing } : AppCore).orders) :
    Balanced { k with outgoing := outgoing } (ns ++ Server.endNotice lists) false := by
  obtain ⟨lost, hbalance, hlost⟩ := h.balance
  have hkept := lost_of_cons horders hlost
  subst hkept
  have hended : (Server.endNotice lists).count .stopped = lists.toNat := by
    cases lists <;> rfl
  rw [horders, live] at hbalance
  refine ⟨⟨false, ?_, Bool.noConfusion⟩, Bool.noConfusion, h.place, h.opening,
    fun _ _ _ => Bool.noConfusion⟩
  rw [List.count_append, hended, Bool.toNat_false, Nat.add_zero]
  exact hbalance

/-- The server takes a start in a channel. -/
theorem takesStart (h : Balanced k ns lists) {outgoing : List ControlMessage}
    (horders : k.orders = .start :: ({ k with outgoing := outgoing } : AppCore).orders)
    (hupheld : Upheld ({ k with outgoing := outgoing } : AppCore).orders k.announced) :
    Balanced { k with outgoing := outgoing } (ns ++ [.started]) true := by
  obtain ⟨lost, hbalance, hlost⟩ := h.balance
  have hkept := lost_of_cons horders hlost
  subst hkept
  have hunlisted : lists = false := by
    rw [← Bool.not_eq_true]
    intro hl
    have hlisted := h.listed hl
    rw [horders] at hlisted
    cases hlisted
  subst hunlisted
  rw [horders, live, if_pos hupheld] at hbalance
  refine ⟨⟨false, ?_, Bool.noConfusion⟩, fun _ => hupheld, h.place, h.opening,
    fun _ _ _ _ => ⟨ns, [], rfl, List.not_mem_nil⟩⟩
  have hnone : (ns ++ [Notice.started]).count Notice.stopped = ns.count .stopped := by
    rw [List.count_append]
    rfl
  rw [hnone, Bool.toNat_true, Nat.add_right_comm _ 1]
  rw [Bool.toNat_false, Nat.add_zero, Nat.add_comm 1, ← Nat.add_assoc] at hbalance
  exact hbalance

/-- The server drops a start, as the user is in no channel. -/
theorem dropsStart (h : Balanced k ns false) {outgoing : List ControlMessage}
    (horders : k.orders = .start :: ({ k with outgoing := outgoing } : AppCore).orders)
    (hdropped : Upheld ({ k with outgoing := outgoing } : AppCore).orders k.announced →
      ({ k with outgoing := outgoing } : AppCore).orders = [] ∧ .left k.currentChannel ∈ ns) :
    Balanced { k with outgoing := outgoing } ns false := by
  obtain ⟨lost, hbalance, hlost⟩ := h.balance
  have hkept := lost_of_cons horders hlost
  subst hkept
  rw [horders, live] at hbalance
  refine ⟨?_, Bool.noConfusion, h.place, h.opening, fun _ _ _ => Bool.noConfusion⟩
  by_cases hupheld : Upheld ({ k with outgoing := outgoing } : AppCore).orders k.announced
  · obtain ⟨hnone, hleft⟩ := hdropped hupheld
    have hannounced : k.announced = true := by
      rw [hnone] at hupheld
      exact hupheld
    refine ⟨true, ?_, fun _ => ⟨hannounced, hnone, rfl, hleft⟩⟩
    rw [if_pos hupheld, Nat.add_comm 1, ← Nat.add_assoc] at hbalance
    exact hbalance
  · refine ⟨false, ?_, Bool.noConfusion⟩
    rw [if_neg hupheld, Nat.zero_add] at hbalance
    exact hbalance

end Balanced

end Parties

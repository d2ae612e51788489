import Parties.Server.LobbyView

/-!
# Rosters under the changes of the lobby

Each change of the lobby, together with what it tells the sessions, keeps their rosters
with it: the session of a user comes and goes, enters and leaves channels, changes its voice
state, and the channels themselves change.
-/

namespace Parties

def Seat.moveTo (seat : Seat) (channel : ChannelId) (voice : VoiceState) : Seat :=
  { seat with channelId := channel, voice := voice }

namespace Lobby

/-- A session of a user is in a channel with a voice state. -/
structure At (l : Lobby) (sid : SessionId) (channel : ChannelId) (user : UserId)
    (voice : VoiceState) : Prop where
  nonzero : channel ≠ 0
  inTable : sid ∈ l.table
  authenticated : (l.seats sid).authenticated = true
  user : (l.seats sid).userId = user
  channel : (l.seats sid).channelId = channel
  voice : (l.seats sid).voice = voice

def attendance (l : Lobby) : Attendance ChannelId UserId VoiceState where
  rooms channel := channel ∈ l.channels
  here channel user voice := ∃ sid, l.At sid channel user voice
  leaving channel user := channel ≠ 0 ∧
    ∃ d ∈ l.disconnects, d.userId = user ∧ d.channelId = channel

/-- The part of the order of the registry the lobby rests on. -/
structure Sound (l : Lobby) : Prop where
  lt_next : ∀ sid ∈ l.table, sid < l.next
  home : ∀ sid ∈ l.table, (l.seats sid).authenticated = false → (l.seats sid).channelId = 0
  single : ∀ sid ∈ l.table, ∀ sid' ∈ l.table, (l.seats sid).authenticated = true →
    (l.seats sid').authenticated = true → (l.seats sid).userId = (l.seats sid').userId → sid = sid'
  zero : 0 ∉ l.channels

/-- The rosters of the sessions follow the lobby, each without its own user. A session that
never signed in was told nothing. -/
structure Told (l : Lobby) (R : SessionId → LobbyRoster) : Prop where
  nodup : l.table.Nodup
  housed : ∀ sid ∈ l.table, (l.seats sid).channelId ≠ 0 → (l.seats sid).channelId ∈ l.channels
  fresh : ∀ sid, l.next ≤ sid ∨ (l.seats sid).authenticated = false ∧ (l.seats sid).alive = true →
    R sid = {}
  follows : ∀ sid ∈ l.table, (l.seats sid).authenticated = true → (l.seats sid).alive = true →
    (R sid).Follows l.attendance fun user => user ≠ (l.seats sid).userId

def modify (l : Lobby) (sid : SessionId) (f : Seat → Seat) : Lobby :=
  { l with seats := Function.update l.seats sid (f (l.seats sid)) }

def connect (l : Lobby) : Lobby :=
  { l with
    table := l.table ++ [l.next]
    next := l.next + 1
    seats := Function.update l.seats l.next (Session.seat {}) }

/-- The transport drops a session, and leaves its departure to be worked off. -/
def drop (l : Lobby) (sid : SessionId) : Lobby :=
  { l with
    table := l.table.filter (· ≠ sid)
    disconnects := if (l.seats sid).authenticated then
        l.disconnects ++ [{
          sessionId := sid
          userId := (l.seats sid).userId
          channelId := (l.seats sid).channelId }]
      else l.disconnects }

def workOff (l : Lobby) (rest : List SessionDisconnect) : Lobby := { l with disconnects := rest }

/-- Sessions are taken out of a channel. -/
def evict (l : Lobby) (channel : ChannelId) (others : List SessionId) : Lobby :=
  { l with seats := fun x =>
      if x ∈ others ∧ (l.seats x).authenticated = true ∧ (l.seats x).channelId = channel then
        { l.seats x with channelId := 0 }
      else l.seats x }

/-- A session is told what concerns the others. -/
def Hears (l : Lobby) (sid v : SessionId) : Prop :=
  v ∈ l.table ∧ v ≠ sid ∧ (l.seats v).authenticated = true

instance (l : Lobby) (sid v : SessionId) : Decidable (l.Hears sid v) :=
  inferInstanceAs (Decidable (_ ∧ _ ∧ _))

/-- Who is in a channel. -/
def people (l : Lobby) (channel : ChannelId) : List (UserId × VoiceState) :=
  (l.table.map l.seats).filterMap fun seat =>
    if seat.authenticated && seat.channelId = channel then some (seat.userId, seat.voice) else none

variable {l l' : Lobby} {R R' : SessionId → LobbyRoster} {sid other v : SessionId}
  {channel c : ChannelId} {user p : UserId} {voice w : VoiceState} {f : Seat → Seat}

theorem seats_modify_self : (l.modify sid f).seats sid = f (l.seats sid) := Function.update_self ..

theorem seats_modify_of_ne (hne : other ≠ sid) :
    (l.modify sid f).seats other = l.seats other := Function.update_of_ne hne ..

theorem modify_modify {f' : Seat → Seat} : (l.modify sid f).modify sid f' = l.modify sid (f' ∘ f) := by
  simp only [modify, Function.update_self, Function.update_idem]
  rfl

theorem seats_connect_new : l.connect.seats l.next = Session.seat {} := Function.update_self ..

theorem seats_connect_of_ne (hne : other ≠ l.next) : l.connect.seats other = l.seats other :=
  Function.update_of_ne hne ..

theorem mem_disconnects_drop {d : SessionDisconnect} : d ∈ (l.drop sid).disconnects ↔
    d ∈ l.disconnects ∨ (l.seats sid).authenticated = true ∧
      d = ⟨sid, (l.seats sid).userId, (l.seats sid).channelId⟩ := by
  show d ∈ (if _ then _ else _) ↔ _
  split
  next hauth =>
    rw [List.mem_append, List.mem_singleton, and_iff_right hauth]
  next hauth =>
    rw [or_iff_left fun hboth => hauth hboth.1]

theorem hears_modify : (l.modify sid f).Hears sid v ↔ l.Hears sid v := by
  refine and_congr_right fun _ => and_congr_right fun hne => ?_
  rw [seats_modify_of_ne hne]

theorem Hears.not_fresh (h : l.Hears sid v) (hl : l.Sound) :
    ¬ (v = sid ∨ l.next ≤ v ∨ (l.seats v).authenticated = false) := by
  rintro (hself | hle | hauth)
  · exact h.2.1 hself
  · exact absurd hle (not_le_of_gt (hl.lt_next v h.1))
  · exact absurd h.2.2 (Bool.eq_false_iff.mp hauth)

/-! ### Who is where -/

namespace At

theorem congr (h : l.At sid channel user voice) (hin : sid ∈ l'.table)
    (hseat : l'.seats sid = l.seats sid) : l'.At sid channel user voice where
  nonzero := h.nonzero
  inTable := hin
  authenticated := hseat ▸ h.authenticated
  user := hseat ▸ h.user
  channel := hseat ▸ h.channel
  voice := hseat ▸ h.voice

theorem of_modify (h : (l.modify sid f).At other channel user voice) (hne : other ≠ sid) :
    l.At other channel user voice :=
  h.congr h.inTable (seats_modify_of_ne hne).symm

theorem modify (h : l.At other channel user voice) (hne : other ≠ sid) :
    (l.modify sid f).At other channel user voice :=
  h.congr h.inTable (seats_modify_of_ne hne)

/-- Where a session is after it has changed. -/
theorem modify_self (hin : sid ∈ l.table) (hauth : (f (l.seats sid)).authenticated = true)
    (hzero : (f (l.seats sid)).channelId ≠ 0) : (l.modify sid f).At sid (f (l.seats sid)).channelId
      (f (l.seats sid)).userId (f (l.seats sid)).voice := by
  have hseat : (l.modify sid f).seats sid = f (l.seats sid) := seats_modify_self
  refine ⟨hzero, hin, ?_, ?_, ?_, ?_⟩
  all_goals rw [hseat]
  exact hauth

theorem of_modify_self (h : (l.modify sid f).At sid channel user voice) :
    (f (l.seats sid)).channelId = channel ∧ (f (l.seats sid)).userId = user ∧
      (f (l.seats sid)).voice = voice := by
  have hseat : (l.modify sid f).seats sid = f (l.seats sid) := seats_modify_self
  exact hseat ▸ ⟨h.channel, h.user, h.voice⟩

/-- Another session is another user's. -/
theorem user_ne (h : l.At other channel p voice) (hl : l.Sound) (hin : sid ∈ l.table)
    (hauth : (l.seats sid).authenticated = true) (hne : other ≠ sid) : p ≠ (l.seats sid).userId := by
  rintro rfl
  exact hne (hl.single other h.inTable sid hin h.authenticated hauth h.user)

end At

theorem Sound.modify (hl : l.Sound) (hauth : (f (l.seats sid)).authenticated = (l.seats sid).authenticated)
    (huser : (f (l.seats sid)).userId = (l.seats sid).userId)
    (hhome : (l.seats sid).authenticated = false → (f (l.seats sid)).channelId = 0) :
    (l.modify sid f).Sound := by
  have hseat : ∀ x, ((l.modify sid f).seats x).authenticated = (l.seats x).authenticated ∧
      ((l.modify sid f).seats x).userId = (l.seats x).userId := by
    intro x
    by_cases hx : x = sid
    · subst hx
      rw [seats_modify_self]
      exact ⟨hauth, huser⟩
    · rw [seats_modify_of_ne hx]
      exact ⟨rfl, rfl⟩
  refine ⟨hl.lt_next, fun x hx hout => ?_, fun x hx y hy hx' hy' hsame => ?_, hl.zero⟩
  · rw [(hseat x).1] at hout
    by_cases hthis : x = sid
    · subst hthis
      rw [seats_modify_self]
      exact hhome hout
    · rw [seats_modify_of_ne hthis]
      exact hl.home x hx hout
  · rw [(hseat x).1] at hx'
    rw [(hseat y).1] at hy'
    rw [(hseat x).2, (hseat y).2] at hsame
    exact hl.single x hx y hy hx' hy' hsame

/-- The people of a channel are those who are there. -/
theorem at_of_looksOf (hne : Roster.looksOf user (l.people channel) ≠ []) (hzero : channel ≠ 0) :
    ∃ sid voice, l.At sid channel user voice := by
  obtain ⟨entry, hentry⟩ := List.exists_mem_of_ne_nil _ hne
  obtain ⟨pair, hpair, rfl⟩ := List.mem_map.mp hentry
  obtain ⟨hpeople, huser⟩ := List.mem_filter.mp hpair
  obtain ⟨seat, hseat, hthere⟩ := List.mem_filterMap.mp hpeople
  obtain ⟨sid, hin, rfl⟩ := List.mem_map.mp hseat
  split at hthere
  next hboth =>
    rw [Bool.and_eq_true, decide_eq_true_eq] at hboth
    obtain rfl := Option.some.inj hthere
    exact ⟨sid, _, hzero, hin, hboth.1, of_decide_eq_true huser, hboth.2, rfl⟩
  · cases hthere

/-- Everyone who is there is among them once. -/
theorem looksOf_people (h : l.At sid channel user voice) (hl : l.Sound) (hnodup : l.table.Nodup) :
    Roster.looksOf user (l.people channel) = [voice] := by
  obtain ⟨before, after, hsplit⟩ := List.append_of_mem h.inTable
  have hothers : ∀ table : List SessionId, (∀ x ∈ table, x ∈ l.table ∧ x ≠ sid) →
      Roster.looksOf user ((table.map l.seats).filterMap fun seat =>
        if seat.authenticated && seat.channelId = channel then some (seat.userId, seat.voice)
        else none) = [] := by
    intro table htable
    rw [Roster.looksOf, List.map_eq_nil_iff, List.filter_eq_nil_iff]
    intro entry hentry huser
    obtain ⟨seat, hseat, hthere⟩ := List.mem_filterMap.mp hentry
    obtain ⟨x, hx, rfl⟩ := List.mem_map.mp hseat
    obtain ⟨hin, hne⟩ := htable x hx
    split at hthere
    next hboth =>
      rw [Bool.and_eq_true, decide_eq_true_eq] at hboth
      obtain rfl := Option.some.inj hthere
      exact hne (hl.single x hin sid h.inTable hboth.1 h.authenticated
        ((of_decide_eq_true huser).trans h.user.symm))
    · cases hthere
  rw [hsplit] at hnodup
  obtain ⟨hout, _⟩ := List.nodup_cons.mp (List.nodup_middle.mp hnodup)
  rw [List.mem_append, not_or] at hout
  have hbefore := hothers before fun x hx =>
    ⟨hsplit ▸ List.mem_append_left _ hx, fun hsame => hout.1 (hsame ▸ hx)⟩
  have hafter := hothers after fun x hx =>
    ⟨hsplit ▸ List.mem_append_right _ (List.mem_cons_of_mem _ hx), fun hsame => hout.2 (hsame ▸ hx)⟩
  have hthere : ((l.seats sid).authenticated && (l.seats sid).channelId = channel) = true := by
    rw [h.authenticated, h.channel, decide_eq_true rfl, Bool.and_self]
  rw [people, hsplit, List.map_append, List.filterMap_append, List.map_cons, List.filterMap_cons,
    if_pos hthere, h.user, h.voice, Roster.looksOf, List.filter_append, List.map_append]
  rw [Roster.looksOf] at hbefore hafter
  rw [hbefore]
  dsimp only
  rw [List.nil_append, List.filter_cons, if_pos (decide_eq_true rfl), List.map_cons, hafter]

/-! ### Sessions come and go -/

namespace Told

/-- The rosters stay, and so does whoever is known. -/
theorem silent (h : l.Told R) (hnodup : l'.table.Nodup)
    (hhoused : ∀ sid ∈ l'.table, (l'.seats sid).channelId ≠ 0 →
      (l'.seats sid).channelId ∈ l'.channels)
    (hfresh : ∀ sid, l'.next ≤ sid ∨
      (l'.seats sid).authenticated = false ∧ (l'.seats sid).alive = true →
        l.next ≤ sid ∨ (l.seats sid).authenticated = false ∧ (l.seats sid).alive = true)
    (hviewers : ∀ sid ∈ l'.table, (l'.seats sid).authenticated = true →
      (l'.seats sid).alive = true → sid ∈ l.table ∧ (l.seats sid).authenticated = true ∧
        (l.seats sid).alive = true ∧ (l'.seats sid).userId = (l.seats sid).userId)
    (hrooms : ∀ c, c ∈ l'.channels ↔ c ∈ l.channels)
    (hhere : ∀ sid c p w, l'.At sid c p w → l.At sid c p w)
    (hknows : ∀ c p, l.attendance.Knows c p → l'.attendance.Knows c p) : l'.Told R where
  nodup := hnodup
  housed := hhoused
  fresh sid hsid := h.fresh sid (hfresh sid hsid)
  follows v hin hauth halive := by
    obtain ⟨hold, hauth', halive', huser⟩ := hviewers v hin hauth halive
    rw [huser]
    refine (h.follows v hold hauth' halive').silent hrooms (fun c p w _ hat => ?_) fun c p _ =>
      hknows c p
    obtain ⟨sid, hsid⟩ := hat
    exact ⟨sid, hhere sid c p w hsid⟩

theorem connect (h : l.Told R) (hl : l.Sound) : l.connect.Told R := by
  have hout : ∀ sid ∈ l.table, sid ≠ l.next := fun sid hin => (hl.lt_next sid hin).ne
  have hcases : ∀ sid ∈ l.connect.table, sid ∈ l.table ∨ sid = l.next := by
    intro sid hin
    exact (List.mem_append.mp hin).imp_right List.mem_singleton.mp
  have hnew : ∀ sid ∈ l.connect.table, (l.connect.seats sid).authenticated = true → sid ∈ l.table := by
    intro sid hin hauth
    rcases hcases sid hin with hin | rfl
    · exact hin
    · rw [seats_connect_new] at hauth
      cases hauth
  refine h.silent ?_ ?_ ?_ ?_ (fun _ => Iff.rfl) ?_ ?_
  · refine List.nodup_append.mpr ⟨h.nodup, List.nodup_singleton _, ?_⟩
    rintro sid hin other hother rfl
    exact hout sid hin (List.mem_singleton.mp hother)
  · intro sid hin
    rcases hcases sid hin with hin | rfl
    · rw [seats_connect_of_ne (hout sid hin)]
      exact h.housed sid hin
    · rw [seats_connect_new]
      exact fun hne => absurd rfl hne
  · intro sid hsid
    by_cases hthis : sid = l.next
    · exact .inl hthis.ge
    · rw [seats_connect_of_ne hthis] at hsid
      exact hsid.imp_left Nat.le_of_succ_le
  · intro sid hin hauth halive
    have hold := hnew sid hin hauth
    rw [seats_connect_of_ne (hout sid hold)] at hauth halive ⊢
    exact ⟨hold, hauth, halive, rfl⟩
  · intro sid c p w hat
    have hold := hnew sid hat.inTable hat.authenticated
    exact hat.congr hold (seats_connect_of_ne (hout sid hold)).symm
  · rintro c p (⟨w, sid, hat⟩ | hleaving)
    · exact .inl ⟨w, sid, hat.congr (List.mem_append_left _ hat.inTable)
        (seats_connect_of_ne (hout sid hat.inTable))⟩
    · exact .inr hleaving

/-- A connection starts to shut down. -/
theorem retire (h : l.Told R) (sid : SessionId) :
    (l.modify sid fun seat => { seat with alive := false }).Told R := by
  have hseat : ∀ x, ∃ alive, ((l.modify sid fun seat => { seat with alive := false }).seats x) =
      { l.seats x with alive := alive } ∧ (alive = true → (l.seats x).alive = true) := by
    intro x
    by_cases hx : x = sid
    · subst hx
      exact ⟨false, seats_modify_self, Bool.noConfusion⟩
    · exact ⟨(l.seats x).alive, seats_modify_of_ne hx, id⟩
  refine h.silent h.nodup ?_ ?_ ?_ (fun _ => Iff.rfl) ?_ ?_
  · intro x hin
    obtain ⟨alive, hx, _⟩ := hseat x
    rw [hx]
    exact h.housed x hin
  · intro x hfresh
    obtain ⟨alive, hx, halive⟩ := hseat x
    rw [hx] at hfresh
    exact hfresh.imp_right fun hboth => ⟨hboth.1, halive hboth.2⟩
  · intro x hin hauth halive'
    obtain ⟨alive, hx, halive⟩ := hseat x
    rw [hx] at hauth halive' ⊢
    exact ⟨hin, hauth, halive halive', rfl⟩
  · intro x c p w hat
    obtain ⟨alive, hx, _⟩ := hseat x
    have hauth := hat.authenticated
    have huser := hat.user
    have hchannel := hat.channel
    have hvoice := hat.voice
    rw [hx] at hauth huser hchannel hvoice
    exact ⟨hat.nonzero, hat.inTable, hauth, huser, hchannel, hvoice⟩
  · rintro c p (⟨w, x, hat⟩ | hleaving)
    · obtain ⟨alive, hx, _⟩ := hseat x
      refine .inl ⟨w, x, hat.nonzero, hat.inTable, ?_, ?_, ?_, ?_⟩
      · rw [hx]
        exact hat.authenticated
      · rw [hx]
        exact hat.user
      · rw [hx]
        exact hat.channel
      · rw [hx]
        exact hat.voice
    · exact .inr hleaving

/-- Nobody is told yet. -/
theorem drop (h : l.Told R) (sid : SessionId) : (l.drop sid).Told R := by
  have hold : ∀ x ∈ l.table.filter (· ≠ sid), x ∈ l.table := fun x => List.mem_of_mem_filter
  refine h.silent (h.nodup.filter _) (fun x hin => h.housed x (hold x hin)) (fun _ => id)
    (fun x hin hauth halive => ⟨hold x hin, hauth, halive, rfl⟩) (fun _ => Iff.rfl)
    (fun x c p w hat => hat.congr (hold x hat.inTable) rfl) ?_
  rintro c p (⟨w, x, hat⟩ | ⟨hzero, d, hd, hwho⟩)
  · by_cases hx : x = sid
    · subst hx
      exact .inr ⟨hat.nonzero, _, mem_disconnects_drop.mpr (.inr ⟨hat.authenticated, rfl⟩),
        hat.user, hat.channel⟩
    · exact .inl ⟨w, x, hat.congr (List.mem_filter.mpr ⟨hat.inTable, decide_eq_true hx⟩) rfl⟩
  · exact .inr ⟨hzero, d, mem_disconnects_drop.mpr (.inl hd), hwho⟩

/-- A departure is worked off: its user is still there, or the others are told. -/
theorem workOff (h : l.Told R) {d : SessionDisconnect} {rest : List SessionDisconnect}
    (hd : l.disconnects = d :: rest)
    (hrosters : ∀ v ∈ l.table, (l.seats v).authenticated = true →
      R' v = R v ∧ (d.channelId = 0 ∨ ∃ w, l.attendance.here d.channelId d.userId w) ∨
      R' v = (R v).hear (.left d.channelId d.userId) ∧
        ∀ w, ¬ l.attendance.here d.channelId d.userId w)
    (hothers : ∀ v, l.next ≤ v ∨ (l.seats v).authenticated = false → R' v = R v) :
    (l.workOff rest).Told R' := by
  have hhere : ∀ c p w, (l.workOff rest).attendance.here c p w ↔
      l.attendance.here c p w := by
    intro c p w
    exact ⟨fun ⟨x, hat⟩ => ⟨x, hat.congr hat.inTable rfl⟩,
      fun ⟨x, hat⟩ => ⟨x, hat.congr hat.inTable rfl⟩⟩
  have hleaving : ∀ c p, l.attendance.leaving c p → ¬ (c = d.channelId ∧ p = d.userId) →
      (l.workOff rest).attendance.leaving c p := by
    rintro c p ⟨hzero, event, hevent, hp, hc⟩ hnot
    rcases List.mem_cons.mp (hd ▸ hevent) with rfl | hrest
    · exact absurd ⟨hc.symm, hp.symm⟩ hnot
    · exact ⟨hzero, event, hrest, hp, hc⟩
  refine ⟨h.nodup, h.housed, fun x hx => ?_, fun v hin hauth halive => ?_⟩
  · rw [hothers x (hx.imp_right And.left)]
    exact h.fresh x hx
  · have hv := h.follows v hin hauth halive
    rcases hrosters v hin hauth with ⟨hsame, hstays⟩ | ⟨hheard, hgone⟩
    · rw [hsame]
      refine hv.silent (fun _ => Iff.rfl) (fun c p w _ => (hhere c p w).mp) ?_
      rintro c p _ (⟨w, hw⟩ | hleft)
      · exact .inl ⟨w, (hhere c p w).mpr hw⟩
      · by_cases hthis : c = d.channelId ∧ p = d.userId
        · rcases hstays with hzero | ⟨w, hw⟩
          · exact absurd (hthis.1.trans hzero) hleft.1
          · exact .inl ⟨w, (hhere c p w).mpr (hthis.1 ▸ hthis.2 ▸ hw)⟩
        · exact .inr (hleaving c p hleft hthis)
    · rw [hheard]
      refine hv.left (fun _ => Iff.rfl) (fun c p w _ hw => ?_) ?_
      · have hw' := (hhere c p w).mp hw
        exact ⟨hw', fun hthis => hgone w (hthis.1 ▸ hthis.2 ▸ hw')⟩
      · rintro c p _ (⟨w, hw⟩ | hleft) hnot
        · exact .inl ⟨w, (hhere c p w).mpr hw⟩
        · exact .inr (hleaving c p hleft hnot)

/-! ### A session moves -/

/-- A session leaves its channel, and may sign out with that; the others are told. -/
theorem quit (h : l.Told R) (hl : l.Sound) (hin : sid ∈ l.table)
    (hauth : (l.seats sid).authenticated = true) (hchannel : (f (l.seats sid)).channelId = 0)
    (hstays : (f (l.seats sid)).authenticated = true →
      (f (l.seats sid)).userId = (l.seats sid).userId ∧
        ((f (l.seats sid)).alive = true → (l.seats sid).alive = true))
    (hgoes : (f (l.seats sid)).authenticated = false → (f (l.seats sid)).alive = false)
    (hothers : ∀ v ∈ l.table, v ≠ sid → (l.seats v).authenticated = true →
      R' v = (R v).hear (.left (l.seats sid).channelId (l.seats sid).userId) ∨
        (l.seats sid).channelId = 0 ∧ R' v = R v)
    (hsame : ∀ v, v = sid ∨ l.next ≤ v ∨ (l.seats v).authenticated = false → R' v = R v) :
    (l.modify sid f).Told R' := by
  have hseat : ∀ {x}, x ≠ sid → (l.modify sid f).seats x = l.seats x := seats_modify_of_ne
  have hbefore : ∀ {x c p w}, (l.modify sid f).At x c p w → x ≠ sid ∧ l.At x c p w := by
    intro x c p w hat
    have hx : x ≠ sid := by
      rintro rfl
      exact hat.nonzero (hat.of_modify_self.1.symm.trans hchannel)
    exact ⟨hx, hat.of_modify hx⟩
  have hknows : ∀ c p, ¬ (c = (l.seats sid).channelId ∧ p = (l.seats sid).userId) →
      l.attendance.Knows c p → (l.modify sid f).attendance.Knows c p := by
    rintro c p hnot (⟨w, x, hat⟩ | hleaving)
    · have hx : x ≠ sid := by
        rintro rfl
        exact hnot ⟨hat.channel.symm, hat.user.symm⟩
      exact .inl ⟨w, x, hat.modify hx⟩
    · exact .inr hleaving
  refine ⟨h.nodup, fun x hx hne => ?_, fun x hx => ?_, fun v hv hauth' halive' => ?_⟩
  · by_cases hthis : x = sid
    · subst hthis
      rw [seats_modify_self] at hne
      exact absurd hchannel hne
    · rw [hseat hthis] at hne ⊢
      exact h.housed x hx hne
  · by_cases hthis : x = sid
    · subst hthis
      rw [hsame x (.inl rfl)]
      refine h.fresh x (hx.imp_right fun hboth => ?_)
      rw [seats_modify_self] at hboth
      exact absurd hboth.2 (Bool.eq_false_iff.mp (hgoes hboth.1))
    · rw [hseat hthis] at hx
      rw [hsame x (.inr (hx.imp_right And.left))]
      exact h.fresh x hx
  · by_cases hthis : v = sid
    · subst hthis
      rw [seats_modify_self] at hauth' halive' ⊢
      obtain ⟨huser, halive⟩ := hstays hauth'
      rw [hsame v (.inl rfl), huser]
      refine (h.follows v hin hauth (halive halive')).silent (fun _ => Iff.rfl) ?_ ?_
      · rintro c p w _ ⟨x, hat⟩
        exact ⟨x, (hbefore hat).2⟩
      · exact fun c p hp => hknows c p fun hboth => hp hboth.2
    · rw [hseat hthis] at hauth' halive' ⊢
      have hview := h.follows v hv hauth' halive'
      rcases hothers v hv hthis hauth' with hheard | ⟨hzero, hsilent⟩
      · rw [hheard]
        refine hview.left (fun _ => Iff.rfl) ?_ fun c p _ hold hnot => hknows c p hnot hold
        rintro c p w _ ⟨x, hat⟩
        obtain ⟨hx, hat'⟩ := hbefore hat
        exact ⟨⟨x, hat'⟩, fun hboth => hat'.user_ne hl hin hauth hx hboth.2⟩
      · rw [hsilent]
        refine hview.silent (fun _ => Iff.rfl) ?_ ?_
        · rintro c p w _ ⟨x, hat⟩
          exact ⟨x, (hbefore hat).2⟩
        · rintro c p _ (⟨w, x, hat⟩ | hleaving)
          · have hx : x ≠ sid := by
              rintro rfl
              exact hat.nonzero (hat.channel.symm.trans hzero)
            exact .inl ⟨w, x, hat.modify hx⟩
          · exact .inr hleaving

/-- A session changes, but not in who it is. -/
theorem modify (h : l.Told R) (hauth : (f (l.seats sid)).authenticated = (l.seats sid).authenticated)
    (huser : (f (l.seats sid)).userId = (l.seats sid).userId)
    (halive : (f (l.seats sid)).alive = (l.seats sid).alive)
    (hhoused : sid ∈ l.table → (f (l.seats sid)).channelId ≠ 0 →
      (f (l.seats sid)).channelId ∈ l.channels)
    (hsame : ∀ v, l.next ≤ v ∨ (l.seats v).authenticated = false → R' v = R v)
    (hfollows : ∀ v ∈ l.table, (l.seats v).authenticated = true →
      (R v).Follows l.attendance (fun user => user ≠ (l.seats v).userId) →
      (R' v).Follows (l.modify sid f).attendance fun user => user ≠ (l.seats v).userId) :
    (l.modify sid f).Told R' := by
  have hseat : ∀ x, ((l.modify sid f).seats x).authenticated = (l.seats x).authenticated ∧
      ((l.modify sid f).seats x).userId = (l.seats x).userId ∧
      ((l.modify sid f).seats x).alive = (l.seats x).alive := by
    intro x
    by_cases hx : x = sid
    · subst hx
      rw [seats_modify_self]
      exact ⟨hauth, huser, halive⟩
    · rw [seats_modify_of_ne hx]
      exact ⟨rfl, rfl, rfl⟩
  refine ⟨h.nodup, fun x hx hne => ?_, fun x hx => ?_, fun v hv hauth' halive' => ?_⟩
  · by_cases hthis : x = sid
    · subst hthis
      rw [seats_modify_self] at hne ⊢
      exact hhoused hx hne
    · rw [seats_modify_of_ne hthis] at hne ⊢
      exact h.housed x hx hne
  · rw [(hseat x).1, (hseat x).2.2] at hx
    rw [hsame x (hx.imp_right And.left)]
    exact h.fresh x hx
  · rw [(hseat v).1] at hauth'
    rw [(hseat v).2.2] at halive'
    rw [(hseat v).2.1]
    exact hfollows v hv hauth' (h.follows v hv hauth' halive')

/-- A session that is not in the table any more. -/
theorem modify_of_not_mem (h : l.Told R) (hout : sid ∉ l.table)
    (hauth : (f (l.seats sid)).authenticated = (l.seats sid).authenticated)
    (huser : (f (l.seats sid)).userId = (l.seats sid).userId)
    (halive : (f (l.seats sid)).alive = (l.seats sid).alive) : (l.modify sid f).Told R := by
  have hne : ∀ x ∈ l.table, x ≠ sid := by
    rintro x hx rfl
    exact hout hx
  refine h.modify hauth huser halive (fun hin => absurd hin hout) (fun _ _ => rfl)
    fun v _ _ hview => hview.silent (fun _ => Iff.rfl) ?_ ?_
  · rintro c p w _ ⟨x, hat⟩
    exact ⟨x, hat.of_modify (hne x hat.inTable)⟩
  · rintro c p _ (⟨w, x, hat⟩ | hleaving)
    · exact .inl ⟨w, x, hat.modify (hne x hat.inTable)⟩
    · exact .inr hleaving

/-- A session comes to a channel, from none or from this one. It hears who is there; the
others hear that it comes, and may hear its voice state once more. -/
theorem enter (h : l.Told R) (hl : l.Sound) (hin : sid ∈ l.table)
    (hauth : (l.seats sid).authenticated = true)
    (hold : (l.seats sid).channelId = 0 ∨ (l.seats sid).channelId = channel)
    (hroom : channel ∈ l.channels) (hl' : (l.modify sid (·.moveTo channel voice)).Sound)
    (hself : R' sid =
      (R sid).hear (.present channel ((l.modify sid (·.moveTo channel voice)).people channel)))
    (hothers : ∀ v ∈ l.table, v ≠ sid → (l.seats v).authenticated = true →
      R' v = (R v).hear (.joined channel (l.seats sid).userId voice) ∨
        R' v = ((R v).hear (.joined channel (l.seats sid).userId voice)).hear
          (.changed (l.seats sid).userId voice))
    (hsame : ∀ v, l.next ≤ v ∨ (l.seats v).authenticated = false → R' v = R v) :
    (l.modify sid (·.moveTo channel voice)).Told R' := by
  have hzero : channel ≠ 0 := by
    rintro rfl
    exact hl.zero hroom
  have hnew : (l.modify sid (·.moveTo channel voice)).At sid channel (l.seats sid).userId voice :=
    At.modify_self hin hauth hzero
  have hknows : ∀ c p, l.attendance.Knows c p →
      (l.modify sid (·.moveTo channel voice)).attendance.Knows c p := by
    rintro c p (⟨w, x, hat⟩ | hleaving)
    · by_cases hx : x = sid
      · subst hx
        have hc : c = channel := by
          rcases hold with hnowhere | hhere
          · exact absurd (hat.channel.symm.trans hnowhere) hat.nonzero
          · exact hat.channel.symm.trans hhere
        obtain rfl := hat.user
        subst hc
        exact .inl ⟨voice, x, hnew⟩
      · exact .inl ⟨w, x, hat.modify hx⟩
    · exact .inr hleaving
  have hwho : ∀ {x c p w}, (l.modify sid (·.moveTo channel voice)).At x c p w →
      c = channel ∧ p = (l.seats sid).userId ∧ w = voice ∨
        p ≠ (l.seats sid).userId ∧ l.At x c p w := by
    intro x c p w hat
    by_cases hx : x = sid
    · subst hx
      obtain ⟨hchannel, hwho, hvoice⟩ := hat.of_modify_self
      exact .inl ⟨hchannel.symm, hwho.symm, hvoice.symm⟩
    · have hat' := hat.of_modify hx
      exact .inr ⟨hat'.user_ne hl hin hauth hx, hat'⟩
  refine h.modify rfl rfl rfl (fun _ _ => hroom) hsame fun v hv hauth' hview => ?_
  by_cases hthis : v = sid
  · subst hthis
    rw [hself]
    refine hview.present hroom ?_ ?_ ?_ ?_
    · exact fun _ => Iff.rfl
    · rintro c p w hp ⟨x, hat⟩
      by_cases hc : c = channel
      · subst hc
        exact .inl ⟨rfl, looksOf_people hat hl' h.nodup⟩
      · rcases hwho hat with ⟨hc', _⟩ | ⟨_, hat'⟩
        · exact absurd hc' hc
        · exact .inr ⟨hc, x, hat'⟩
    · exact fun c p _ _ => hknows c p
    · intro p _ hlook
      obtain ⟨x, w, hat⟩ := at_of_looksOf hlook hzero
      exact .inl ⟨w, x, hat⟩
  · have hjoined : ((R v).hear (.joined channel (l.seats sid).userId voice)).Follows
        (l.modify sid (·.moveTo channel voice)).attendance
        fun user => user ≠ (l.seats v).userId := by
      refine hview.joined hroom (fun _ => Iff.rfl) ?_ (fun c p _ => hknows c p)
        fun _ => .inl ⟨voice, sid, hnew⟩
      rintro c p w _ ⟨x, hat⟩
      exact (hwho hat).imp_right fun hboth => ⟨fun hthis => hboth.1 hthis.2, x, hboth.2⟩
    rcases hothers v hv hthis hauth' with hheard | hheard
    · rw [hheard]
      exact hjoined
    · rw [hheard]
      refine hjoined.changed (fun _ => Iff.rfl) ?_ fun _ _ _ => id
      rintro c p w _ ⟨x, hat⟩
      rcases hwho hat with ⟨_, hp, hw⟩ | ⟨hp, _⟩
      · exact .inl ⟨hp, hw, w, x, hat⟩
      · exact .inr ⟨hp, x, hat⟩

/-- A session in a channel changes its voice state, and the others hear it. -/
theorem changeVoice (h : l.Told R) (hl : l.Sound) (hin : sid ∈ l.table)
    (hauth : (l.seats sid).authenticated = true)
    (hothers : ∀ v ∈ l.table, v ≠ sid → (l.seats v).authenticated = true →
      R' v = (R v).hear (.changed (l.seats sid).userId voice))
    (hsame : ∀ v, v = sid ∨ l.next ≤ v ∨ (l.seats v).authenticated = false → R' v = R v) :
    (l.modify sid fun seat => seat.moveTo seat.channelId voice).Told R' := by
  have hwho : ∀ {x c p w}, (l.modify sid fun seat => seat.moveTo seat.channelId voice).At x c p w →
      p = (l.seats sid).userId ∧ w = voice ∧ (∃ old, l.At sid c p old) ∨
        p ≠ (l.seats sid).userId ∧ l.At x c p w := by
    intro x c p w hat
    by_cases hx : x = sid
    · subst hx
      obtain ⟨hchannel, hwho, hvoice⟩ := hat.of_modify_self
      exact .inl ⟨hwho.symm, hvoice.symm, _, hat.nonzero, hin, hauth, hwho, hchannel, rfl⟩
    · have hat' := hat.of_modify hx
      exact .inr ⟨hat'.user_ne hl hin hauth hx, hat'⟩
  have hknows : ∀ c p, l.attendance.Knows c p →
      (l.modify sid fun seat => seat.moveTo seat.channelId voice).attendance.Knows c p := by
    rintro c p (⟨w, x, hat⟩ | hleaving)
    · by_cases hx : x = sid
      · subst hx
        obtain rfl := hat.user
        obtain rfl := hat.channel
        exact .inl ⟨voice, x, At.modify_self hin hauth hat.nonzero⟩
      · exact .inl ⟨w, x, hat.modify hx⟩
    · exact .inr hleaving
  refine h.modify rfl rfl rfl (fun hin hne => h.housed sid hin hne) (fun v hv => hsame v (.inr hv))
    fun v hv hauth' hview => ?_
  by_cases hthis : v = sid
  · subst hthis
    rw [hsame v (.inl rfl)]
    refine hview.silent (fun _ => Iff.rfl) ?_ fun c p _ => hknows c p
    rintro c p w hp ⟨x, hat⟩
    rcases hwho hat with ⟨hp', _⟩ | ⟨_, hat'⟩
    · exact absurd hp' hp
    · exact ⟨x, hat'⟩
  · rw [hothers v hv hthis hauth']
    refine hview.changed (fun _ => Iff.rfl) ?_ fun c p _ => hknows c p
    rintro c p w _ ⟨x, hat⟩
    rcases hwho hat with ⟨hp, hw, old, hat'⟩ | ⟨hp, hat'⟩
    · exact .inl ⟨hp, hw, old, sid, hat'⟩
    · exact .inr ⟨hp, x, hat'⟩

/-- A session signs in. It is in no channel, and hears who is where. -/
theorem signIn (h : l.Told R) (hl : l.Sound) (hin : sid ∈ l.table)
    (hout : (l.seats sid).authenticated = false) {rooms : List ChannelId}
    (hrooms : ∀ c, c ∈ rooms ↔ c ∈ l.channels)
    (hl' : (l.modify sid fun seat => { seat with authenticated := true, userId := user }).Sound)
    (hself : R' sid = (R sid).welcome rooms
      (l.modify sid fun seat => { seat with authenticated := true, userId := user }).people)
    (hsame : ∀ v, v ≠ sid → R' v = R v) :
    (l.modify sid fun seat => { seat with authenticated := true, userId := user }).Told R' := by
  have hzero : (l.seats sid).channelId = 0 := hl.home sid hin hout
  have hwho : ∀ {x c p w}, (l.modify sid fun seat =>
      { seat with authenticated := true, userId := user }).At x c p w ↔ l.At x c p w := by
    intro x c p w
    by_cases hx : x = sid
    · subst hx
      refine iff_of_false (fun hat => ?_) fun hat => ?_
      · exact hat.nonzero (hat.of_modify_self.1.symm.trans hzero)
      · exact hat.nonzero (hat.channel.symm.trans hzero)
    · exact ⟨fun hat => hat.of_modify hx, fun hat => hat.modify hx⟩
  have hhere : ∀ c p w, (l.modify sid fun seat =>
      { seat with authenticated := true, userId := user }).attendance.here c p w ↔
        l.attendance.here c p w := fun c p w => exists_congr fun x => hwho
  refine ⟨h.nodup, fun x hx hne => ?_, fun x hx => ?_, fun v hv hauth' halive' => ?_⟩
  · by_cases hthis : x = sid
    · subst hthis
      rw [seats_modify_self] at hne
      exact absurd hzero hne
    · rw [seats_modify_of_ne hthis] at hne ⊢
      exact h.housed x hx hne
  · have hne : x ≠ sid := by
      rintro rfl
      rcases hx with hle | ⟨hnot, _⟩
      · exact absurd hle (not_le_of_gt (hl.lt_next x hin))
      · rw [seats_modify_self] at hnot
        cases hnot
    rw [seats_modify_of_ne hne] at hx
    rw [hsame x hne]
    exact h.fresh x hx
  · by_cases hthis : v = sid
    · subst hthis
      rw [seats_modify_self] at halive' ⊢
      rw [hself, h.fresh v (.inr ⟨hout, halive'⟩)]
      have hroom : ∀ {c}, c ∈ rooms → c ≠ 0 := by
        rintro c hc rfl
        exact hl.zero ((hrooms 0).mp hc)
      refine Roster.follows_welcome (fun c => (hrooms c).symm) ?_ ?_
      · rintro c p w _ ⟨x, hat⟩
        have hat' := hwho.mp hat
        have hc := h.housed x hat'.inTable (hat'.channel ▸ hat'.nonzero)
        exact ⟨(hrooms c).mpr (hat'.channel ▸ hc), looksOf_people hat hl' h.nodup⟩
      · intro c hc p _ hlook
        obtain ⟨x, w, hat⟩ := at_of_looksOf hlook (hroom hc)
        exact .inl ⟨w, x, hat⟩
    · rw [seats_modify_of_ne hthis] at hauth' halive' ⊢
      rw [hsame v hthis]
      refine (h.follows v hv hauth' halive').silent (fun _ => Iff.rfl)
        (fun c p w _ => (hhere c p w).mp) ?_
      rintro c p _ (⟨w, hw⟩ | hleaving)
      · exact .inl ⟨w, (hhere c p w).mpr hw⟩
      · exact .inr hleaving

/-- A join is heard of someone who has gone from this very channel; that was not told yet. -/
theorem hearDeparted (h : l.Told R) (hroom : channel ∈ l.channels)
    (hleaving : l.attendance.leaving channel user)
    (hgone : ∀ x ∈ l.table, (l.seats x).authenticated = true → (l.seats x).userId ≠ user)
    (hheard : ∀ v ∈ l.table, (l.seats v).authenticated = true →
      R' v = (R v).hear (.joined channel user voice) ∨
        R' v = ((R v).hear (.joined channel user voice)).hear (.changed user voice))
    (hsame : ∀ v, l.next ≤ v ∨ (l.seats v).authenticated = false → R' v = R v) : l.Told R' := by
  have hnobody : ∀ c p w, l.attendance.here c p w → p ≠ user := by
    rintro c p w ⟨x, hat⟩ rfl
    exact hgone x hat.inTable hat.authenticated hat.user
  refine ⟨h.nodup, h.housed, fun x hx => ?_, fun v hv hauth halive => ?_⟩
  · rw [hsame x (hx.imp_right And.left)]
    exact h.fresh x hx
  · have hjoined : ((R v).hear (.joined channel user voice)).Follows l.attendance
        fun user => user ≠ (l.seats v).userId :=
      (h.follows v hv hauth halive).joined hroom (fun _ => Iff.rfl)
        (fun c p w _ hw => .inr ⟨fun hthis => hnobody c p w hw hthis.2, hw⟩) (fun _ _ _ => id)
        fun _ => .inr hleaving
    rcases hheard v hv hauth with hheard | hheard
    · rw [hheard]
      exact hjoined
    · rw [hheard]
      exact hjoined.changed (fun _ => Iff.rfl) (fun c p w _ hw => .inr ⟨hnobody c p w hw, hw⟩)
        fun _ _ _ => id

/-- The channels change. Those who were in a channel that is gone are in none, and the
channels are listed again; before that some hear a departure of their own user. -/
theorem relist (h : l.Told R) (l' : Lobby) (htable : l'.table = l.table) (hnext : l'.next = l.next)
    (hdisconnects : l'.disconnects = l.disconnects)
    (hseats : ∀ x, l'.seats x = l.seats x ∨ (l.seats x).channelId ∉ l'.channels ∧
      l'.seats x = { l.seats x with channelId := 0 })
    (hkept : ∀ x ∈ l.table, (l'.seats x).channelId ∈ l.channels →
      (l'.seats x).channelId ∈ l'.channels)
    {rooms : List ChannelId} (hrooms : ∀ c, c ∈ rooms ↔ c ∈ l'.channels)
    (hheard : ∀ v ∈ l.table, (l.seats v).authenticated = true →
      R' v = (R v).hear (.rooms rooms) ∨
        ∃ c, R' v = ((R v).hear (.left c (l.seats v).userId)).hear (.rooms rooms))
    (hsame : ∀ v, l.next ≤ v ∨ (l.seats v).authenticated = false → R' v = R v) : l'.Told R' := by
  have hseat : ∀ x, (l'.seats x).authenticated = (l.seats x).authenticated ∧
      (l'.seats x).userId = (l.seats x).userId ∧ (l'.seats x).alive = (l.seats x).alive := by
    intro x
    rcases hseats x with hx | ⟨_, hx⟩ <;> rw [hx] <;> exact ⟨rfl, rfl, rfl⟩
  have hhoused : ∀ x ∈ l.table, (l'.seats x).channelId ≠ 0 →
      l'.seats x = l.seats x ∧ (l'.seats x).channelId ∈ l'.channels := by
    intro x hx hne
    rcases hseats x with hold | ⟨_, hmoved⟩
    · exact ⟨hold, hkept x hx (hold ▸ h.housed x hx (hold ▸ hne))⟩
    · rw [hmoved] at hne
      exact absurd rfl hne
  refine ⟨htable ▸ h.nodup, fun x hx hne => (hhoused x (htable ▸ hx) hne).2, fun x hx => ?_,
    fun v hv hauth halive => ?_⟩
  · rw [hnext, (hseat x).1, (hseat x).2.2] at hx
    rw [hsame x (hx.imp_right And.left)]
    exact h.fresh x hx
  · rw [htable] at hv
    rw [(hseat v).1] at hauth
    rw [(hseat v).2.2] at halive
    rw [(hseat v).2.1]
    have hlisted : ∀ {r : LobbyRoster}, r.Follows l.attendance (fun p => p ≠ (l.seats v).userId) →
        (r.hear (.rooms rooms)).Follows l'.attendance fun p => p ≠ (l.seats v).userId := by
      intro r hview
      refine hview.rooms_told (fun c => (hrooms c).symm) ?_ ?_
      · rintro c p w _ ⟨x, hat⟩
        have hx : x ∈ l.table := htable ▸ hat.inTable
        obtain ⟨hold, hc⟩ := hhoused x hx (hat.channel ▸ hat.nonzero)
        exact ⟨(hrooms c).mpr (hat.channel ▸ hc), x, hat.congr hx hold.symm⟩
      · rintro c p _ hc (⟨w, x, hat⟩ | ⟨hzero, d, hd, hwho⟩)
        · rcases hseats x with hold | ⟨hgone, _⟩
          · exact .inl ⟨w, x, hat.congr (htable ▸ hat.inTable) hold⟩
          · exact absurd ((hrooms c).mp hc) (hat.channel ▸ hgone)
        · exact .inr ⟨hzero, d, hdisconnects ▸ hd, hwho⟩
    have hview := h.follows v hv hauth halive
    rcases hheard v hv hauth with hheard | ⟨c, hheard⟩
    · rw [hheard]
      exact hlisted hview
    · rw [hheard]
      exact hlisted (hview.unseen fun hp => hp rfl)

end Told

end Lobby

end Parties

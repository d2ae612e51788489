import Parties.Server.LobbyActs

/-!
# What the sessions hear

A part of a handler is taken for what its messages do to the rosters of the sessions, and for
what it does to the lobby; it informs if the rosters stay with the lobby.
-/

namespace Parties

open Parties.Video LobbyServer

/-! ### What a session is told -/

section

variable {v : SessionId} {told told' : List (SessionId × LobbyMessage)}

theorem toldTo_append : toldTo v (told ++ told') = toldTo v told ++ toldTo v told' :=
  List.filterMap_append ..

/-- Some sessions are told something each. -/
theorem toldTo_broadcast {picked : List SessionId} (hnodup : picked.Nodup)
    (along : SessionId → List LobbyMessage) :
    toldTo v (picked.flatMap fun x => (along x).map fun message => (x, message)) =
      if v ∈ picked then along v else [] := by
  have hself : ∀ x, toldTo v ((along x).map fun message => (x, message)) =
      if x = v then along x else [] := by
    intro x
    rw [toldTo, List.filterMap_map]
    by_cases hx : x = v
    · simp [hx]
    · simp [hx]
  induction picked with
  | nil => rfl
  | cons x rest ih =>
      obtain ⟨hout, hrest⟩ := List.nodup_cons.mp hnodup
      rw [List.flatMap_cons, toldTo_append, hself, ih hrest]
      by_cases hx : x = v
      · subst hx
        rw [if_pos rfl, if_neg hout, if_pos List.mem_cons_self, List.append_nil]
      · have hmem : v ∈ x :: rest ↔ v ∈ rest := by
          rw [List.mem_cons, or_iff_right (Ne.symm hx)]
        rw [if_neg hx, List.nil_append, if_congr hmem rfl rfl]

/-- Some sessions are told the same. -/
theorem toldTo_map {picked : List SessionId} (hnodup : picked.Nodup) (message : LobbyMessage) :
    toldTo v (picked.map fun x => (x, message)) = if v ∈ picked then [message] else [] := by
  rw [← toldTo_broadcast hnodup fun _ => [message], List.map_eq_flatMap]
  rfl

end

namespace Server

/-! ### Rosters after what is sent -/

/-- From `s` to `s'` the messages do `g` to rosters, with all that goes along with them at
the end of the step, in `t`. -/
def Speaks (t : Server) (relists : Bool) (s s' : Server)
    (g : SessionId → LobbyRoster → LobbyRoster) : Prop :=
  ∃ added, s'.sent = s.sent ++ added ∧
    ∀ v r, (toldTo v (added.flatMap (t.alongside relists))).foldl hearMessage r = g v r

/-- The rosters stay with the lobby from `s` to `s'`. -/
def Informs (t : Server) (relists : Bool) (s s' : Server) : Prop :=
  ∀ R, s.lobby.Told R → ∃ g, Speaks t relists s s' g ∧ s'.lobby.Told fun v => g v (R v)

variable {t s s' s'' : Server} {relists : Bool} {g g' : SessionId → LobbyRoster → LobbyRoster}
  {sid : SessionId} {user : UserId} {channel : ChannelId}

namespace Speaks

theorem of_sent (h : s'.sent = s.sent) : Speaks t relists s s' fun _ r => r :=
  ⟨[], by rw [h, List.append_nil], fun _ _ => rfl⟩

theorem congr (h : Speaks t relists s s' g) (hg : ∀ v r, g v r = g' v r) :
    Speaks t relists s s' g' := by
  obtain rfl : g = g' := funext fun v => funext fun r => hg v r
  exact h

theorem trans (h : Speaks t relists s s' g) (h' : Speaks t relists s' s'' g') :
    Speaks t relists s s'' fun v r => g' v (g v r) := by
  obtain ⟨added, hsent, hheard⟩ := h
  obtain ⟨more, hsent', hheard'⟩ := h'
  refine ⟨added ++ more, by rw [hsent', hsent, List.append_assoc], fun v r => ?_⟩
  rw [List.flatMap_append, toldTo_append, List.foldl_append, hheard, hheard']

end Speaks

theorem alongside_of_quiet (t : Server) (relists : Bool) {m : SessionId × ServerMessage}
    (hquiet : m.2.Quiet) :
    t.alongside relists m = [(m.1, .server m.2)] ∧ LobbyMessage.news (.server m.2) = none := by
  obtain ⟨x, message⟩ := m
  cases message with
  | channelUserList | userJoinedChannel | userLeftChannel | authResponse | adminResult => cases hquiet
  | serverError | screenShareStarted | screenShareStopped | screenShareViewer | userRoleChanged =>
      exact ⟨rfl, rfl⟩

theorem Still.speaks (h : Still s s') : Speaks t relists s s' fun _ r => r := by
  obtain ⟨added, hsent, hquiet⟩ := h.told
  refine ⟨added, hsent, fun v r => ?_⟩
  clear hsent
  induction added with
  | nil => rfl
  | cons m rest ih =>
      obtain ⟨halong, hnews⟩ := alongside_of_quiet t relists
        (hquiet m List.mem_cons_self)
      rw [List.flatMap_cons, halong, toldTo_append, List.foldl_append,
        ← ih fun m' hm' => hquiet m' (List.mem_cons_of_mem _ hm')]
      congr 1
      by_cases hv : m.1 = v
      · simp [toldTo, hv, hearMessage, hnews]
      · simp [toldTo, hv]

theorem speaks_sendTo (s : Server) (x : SessionId) {message : ServerMessage}
    (along : List LobbyMessage)
    (halong : t.alongside relists (x, message) = along.map fun m => (x, m)) :
    Speaks t relists s (s.sendTo x message) fun v r =>
      if v = x then along.foldl hearMessage r else r := by
  refine ⟨[(x, message)], rfl, fun v r => ?_⟩
  have htold := toldTo_broadcast (v := v) (List.nodup_singleton x) fun _ => along
  rw [List.flatMap_singleton] at htold
  rw [List.flatMap_singleton, halong, htold]
  dsimp only
  by_cases hv : v = x
  · rw [if_pos (List.mem_singleton.mpr hv), if_pos hv]
  · rw [if_neg fun hin => hv (List.mem_singleton.mp hin), if_neg hv]
    rfl

theorem speaks_sendToAll (s : Server) (hnodup : s.sessionTable.Nodup)
    (picks : SessionId → Session → Bool) {message : ServerMessage}
    (along : SessionId → List LobbyMessage)
    (halong : ∀ x, t.alongside relists (x, message) = (along x).map fun m => (x, m)) :
    Speaks t relists s (s.sendToAll picks message) fun v r =>
      if v ∈ s.sessionTable ∧ picks v (s.sessions v) = true then (along v).foldl hearMessage r
      else r := by
  refine ⟨_, rfl, fun v r => ?_⟩
  rw [List.flatMap_map]
  simp only [halong]
  rw [toldTo_broadcast (hnodup.filter _)]
  by_cases hv : v ∈ s.sessionTable ∧ picks v (s.sessions v) = true
  · rw [if_pos hv, if_pos (List.mem_filter.mpr hv)]
  · rw [if_neg hv, if_neg fun hin => hv (List.mem_filter.mp hin)]
    rfl

theorem Still.informs (h : Still s s') : Informs t relists s s' := by
  intro R hR
  refine ⟨_, h.speaks, ?_⟩
  rw [h.lobby]
  exact hR

theorem Informs.trans (h : Informs t relists s s') (h' : Informs t relists s' s'') :
    Informs t relists s s'' := by
  intro R hR
  obtain ⟨g, hspeaks, htold⟩ := h R hR
  obtain ⟨g', hspeaks', htold'⟩ := h' _ htold
  exact ⟨_, hspeaks.trans hspeaks', htold'⟩

theorem still_sendError (s : Server) (sid : SessionId) (text : String) (code : ServerErrorCode) :
    Still s (s.sendError sid text code) :=
  .sendTo s sid (show ServerMessage.Quiet (.serverError code text) from trivial)

/-- The others hear a message that nothing goes along with but what `along` says. -/
theorem speaks_others (s : Server) (hnodup : s.sessionTable.Nodup) (sid : SessionId)
    {message : ServerMessage} (along : SessionId → List LobbyMessage)
    (halong : ∀ x, t.alongside relists (x, message) = (along x).map fun m => (x, m)) :
    Speaks t relists s
      (s.sendToAll (fun other session => other ≠ sid && session.authenticated) message) fun v r =>
        if s.lobby.Hears sid v then (along v).foldl hearMessage r else r := by
  refine (speaks_sendToAll s hnodup _ along halong).congr fun v r => if_congr ?_ rfl rfl
  rw [Bool.and_eq_true, decide_eq_true_eq]
  rfl

/-! ### The lobby of a server -/

theorem lobby_modifySession {f : Session → Session} {f' : Seat → Seat}
    (hseat : (f (s.sessions sid)).seat = f' (s.lobby.seats sid)) :
    (s.modifySession sid f).lobby = s.lobby.modify sid f' := by
  simp only [lobby, modifySession, Lobby.modify]
  congr 1
  funext x
  by_cases hx : x = sid
  · subst hx
    rw [Function.update_self, Function.update_self]
    exact hseat
  · rw [Function.update_of_ne hx, Function.update_of_ne hx]

theorem sound_lobby (h : s.registry.InOrder) : s.lobby.Sound where
  lt_next := h.consistent.lt_next
  home := h.consistent.home
  single x hin x' hin' hauth hauth' hsame := by
    have hindex := (h.consistent.authed x hin (h.marked x hin hauth)).2.1
    have hindex' := (h.consistent.authed x' hin' (h.marked x' hin' hauth')).2.1
    have huser : (s.registry.members x).userId = (s.registry.members x').userId := hsame
    rw [huser, hindex'] at hindex
    exact (Option.some.inj hindex).symm
  zero hin := by
    obtain ⟨row, hrow, hid⟩ := List.mem_map.mp hin
    exact (h.consistent.db.channels row hrow).1 hid

/-- The people of a channel are those the server lists there. -/
theorem entries_channelUsers (s : Server) (channel : ChannelId) :
    (s.channelUsers channel).map ChannelUser.entry = s.lobby.people channel := by
  rw [channelUsers, List.map_filterMap, Lobby.people, List.filterMap_map, lobby, List.filterMap_map]
  congr 1
  funext x
  simp only [Function.comp_def, Session.seat]
  split <;> rfl

theorem map_id_listedChannels (s : Server) :
    s.listedChannels.map ListedChannel.id = s.db.getAllChannels.map ChannelRow.id := by
  rw [listedChannels, ChatServer.listedChannels, List.map_map]
  rfl

theorem mem_rooms (db : Database) {c : ChannelId} :
    c ∈ db.getAllChannels.map ChannelRow.id ↔ c ∈ db.channels.map ChannelRow.id :=
  ((List.perm_insertionSort _ db.channels).map ChannelRow.id).mem_iff

end Server

end Parties

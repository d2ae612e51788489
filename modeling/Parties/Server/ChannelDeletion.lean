import Parties.Server.LobbyLists
import Parties.Server.QuietSteps

/-!
# Deleting a channel

`ADMIN_DELETE_CHANNEL` takes everyone out of the channel before it asks the database. So a
request that deletes nothing leaves the sessions and the streams alone only if nobody was in
the channel, and that is also how a deletion of channel 0, where everyone is who is in no
channel, or of one that does not exist can be noticed by others. A `DELETE` that finds no row
succeeds too, and then everyone is sent the list of the channels, of which each client rebuilds
its own.
-/

namespace Parties

open Parties.Video Parties.Wire Parties.Wire.BinaryReader

namespace Server

/-- `ADMIN_DELETE_CHANNEL` with its payload, which is read behind the permission. -/
def deleteChannelRequest (s : Server) (sid : SessionId) (payload : Bytes) (dbOk : Bool) : Server :=
  if !(s.sessions sid).authenticated then s
  else if !hasPermission (s.sessions sid).role Permissions.DELETE_CHANNEL none then
    s.sendError sid "Permission denied"
  else
    match parse readU32 payload with
    | none => s
    | some (channel, _) => s.adminDeleteChannel sid channel dbOk

/-! ### What a request may do that deletes nothing -/

/-- The request ends with its channel removed from the database. -/
def Removes (s : Server) (sid : SessionId) (payload : Bytes) (dbOk : Bool) : Prop :=
  ∃ channel reader, parse readU32 payload = some (channel, reader) ∧
    s.db.getChannel channel ≠ none ∧
    (s.deleteChannelRequest sid payload dbOk).db.getChannel channel = none

/-- From `s` to `s'` the sessions, with their channels and subscriptions, and the streams
stay as they are, and only `sid` is told: of an error, a result or the channels. -/
structure Untouched (sid : SessionId) (s s' : Server) : Prop where
  sessions : s'.sessions = s.sessions
  table : s'.sessionTable = s.sessionTable
  streams : s'.channelVideoStreams = s.channelVideoStreams
  ingress : s'.videoIngress = s.videoIngress
  sharers : s'.sharerVideoState = s.sharerVideoState
  answered : ∀ m ∈ s.toldBetween s' true, m.1 = sid ∧
    ((∃ code text, m.2 = .server (.serverError code text)) ∨
      (∃ text, m.2 = .server (.adminResult text)) ∨ ∃ rows, m.2 = .channelList rows)

def AllOrNothing (s : Server) (sid : SessionId) (payload : Bytes) (dbOk : Bool) : Prop :=
  ¬ s.Removes sid payload dbOk → Untouched sid s (s.deleteChannelRequest sid payload dbOk)

/-- Somebody is in the channel. -/
def Occupied (s : Server) (channel : ChannelId) : Prop :=
  ∃ sid ∈ s.sessionTable, (s.sessions sid).authenticated = true ∧ (s.sessions sid).channelId = channel

/-- Nobody else is logged in. -/
def Alone (s : Server) (sid : SessionId) : Prop :=
  ∀ other ∈ s.sessionTable, (s.sessions other).authenticated = true → other = sid

variable {s s' : Server} {sid : SessionId} {channel : ChannelId}

theorem Untouched.refl (sid : SessionId) (s : Server) : Untouched sid s s where
  sessions := rfl
  table := rfl
  streams := rfl
  ingress := rfl
  sharers := rfl
  answered m hm := by
    rw [toldBetween, List.drop_length] at hm
    cases hm

theorem untouched_sendError (s : Server) (sid : SessionId) (text : String) (code : ServerErrorCode) :
    Untouched sid s (s.sendError sid text code) := by
  refine ⟨rfl, rfl, rfl, rfl, rfl, fun m hm => ?_⟩
  have hsent : (s.sendError sid text code).sent = s.sent ++ [(sid, .serverError code text)] := rfl
  rw [toldBetween_of_sent hsent] at hm
  rw [List.mem_singleton.mp hm]
  exact ⟨rfl, .inl ⟨code, text, rfl⟩⟩

/-- What is told of a deletion: the channels to everyone, and the result. -/
theorem told_deleted (s : Server) (sid : SessionId) (db : Database) (text : String) :
    s.toldBetween ({ s with db := db }.sendTo sid (.adminResult text)) true =
      ({ s with db := db }.sendTo sid (.adminResult text)).relistChannels ++
        [(sid, .server (.adminResult text))] := by
  have hsent : ({ s with db := db }.sendTo sid (.adminResult text)).sent =
      s.sent ++ [(sid, .adminResult text)] := rfl
  rw [toldBetween_of_sent hsent]
  exact List.flatMap_singleton ..

/-- The deletion itself and its answer, if there is nobody else to tell. -/
theorem untouched_deleted (halone : s.Alone sid) (db : Database) (text : String) :
    Untouched sid s ({ s with db := db }.sendTo sid (.adminResult text)) := by
  refine ⟨rfl, rfl, rfl, rfl, rfl, fun m hm => ?_⟩
  rw [told_deleted] at hm
  rcases List.mem_append.mp hm with hlist | hresult
  · obtain ⟨other, hother, rfl⟩ := List.mem_map.mp hlist
    obtain ⟨hin, hauth⟩ := List.mem_filter.mp hother
    exact ⟨halone other hin hauth, .inr (.inr ⟨_, rfl⟩)⟩
  · rw [List.mem_singleton.mp hresult]
    exact ⟨rfl, .inr (.inl ⟨text, rfl⟩)⟩

/-- Everyone who is logged in hears of a deletion. -/
theorem alone_of_untouched {db : Database} {text : String}
    (h : Untouched sid s ({ s with db := db }.sendTo sid (.adminResult text))) : s.Alone sid := by
  intro other hin hauth
  have htold := h.answered
  rw [told_deleted] at htold
  have hlisted : (other, LobbyMessage.channelList
      ({ s with db := db }.sendTo sid (.adminResult text)).listedChannels) ∈
        ({ s with db := db }.sendTo sid (.adminResult text)).relistChannels := by
    have hmem : other ∈ s.sessionTable.filter fun sid => (s.sessions sid).authenticated :=
      List.mem_filter.mpr ⟨hin, hauth⟩
    exact List.mem_map.mpr ⟨other, hmem, rfl⟩
  exact (htold _ (List.mem_append_left _ hlisted)).1

/-! ### The loops -/

/-- The first loop changes neither the database nor who is where. -/
theorem evictStreams_frame (s : Server) (channel : ChannelId) :
    (s.evictStreams channel).registry.db = s.registry.db ∧
      (s.evictStreams channel).registry.table = s.registry.table ∧
      (s.evictStreams channel).registry.members = s.registry.members := by
  unfold evictStreams
  refine @Machine.run_preserves _ _ _ (fun s' : Server => s'.registry.db = s.registry.db ∧
    s'.registry.table = s.registry.table ∧ s'.registry.members = s.registry.members)
    (fun s' other hs' => ?_) _ ⟨rfl, rfl, rfl⟩ _
  split
  · rw [registry_clearViewerSubscriptions, registry_stopAllVideoStreams]
    exact hs'
  · exact hs'

theorem db_evictUsers (s : Server) (channel : ChannelId) : (s.evictUsers channel).db = s.db := by
  unfold evictUsers
  refine @Machine.run_preserves _ _ _ (fun s' : Server => s'.db = s.db)
    (fun s' other hs' => ?_) _ rfl _
  split <;> exact hs'

theorem db_evicted (s : Server) (channel : ChannelId) :
    ((s.evictStreams channel).evictUsers channel).db = s.db :=
  (db_evictUsers _ _).trans (evictStreams_frame s channel).1

theorem Occupied.evictStreams (h : s.Occupied channel) : (s.evictStreams channel).Occupied channel := by
  obtain ⟨_, htable, hmembers⟩ := evictStreams_frame s channel
  obtain ⟨other, hin, hauth, hchannel⟩ := h
  have hmember := congrFun hmembers other
  refine ⟨other, ?_, ?_, ?_⟩
  · exact (show (s.evictStreams channel).sessionTable = s.sessionTable from htable) ▸ hin
  · exact (congrArg Member.authenticated hmember).trans hauth
  · exact (congrArg Member.channelId hmember).trans hchannel

/-- The loops do nothing in a channel without sessions. -/
theorem foldl_there {f : Server → SessionId → Server} {l : List SessionId}
    (hempty : ∀ other ∈ l, ¬ ((s.sessions other).authenticated = true ∧
      (s.sessions other).channelId = channel)) :
    l.foldl (fun s sid => if (s.sessions sid).authenticated ∧ (s.sessions sid).channelId = channel
      then f s sid else s) s = s := by
  induction l with
  | nil => rfl
  | cons other rest ih =>
      rw [List.foldl_cons, if_neg (hempty other List.mem_cons_self)]
      exact ih fun other' hin => hempty other' (List.mem_cons_of_mem _ hin)

theorem evicted_of_empty (h : ¬ s.Occupied channel) :
    (s.evictStreams channel).evictUsers channel = s := by
  have hempty : ∀ other ∈ s.sessionTable, ¬ ((s.sessions other).authenticated = true ∧
      (s.sessions other).channelId = channel) :=
    fun other hin hthere => h ⟨other, hin, hthere⟩
  have hstreams : s.evictStreams channel = s := foldl_there hempty
  rw [hstreams]
  exact foldl_there hempty

/-- The body of the second loop. -/
def evictUser (channel : ChannelId) (s : Server) (sid : SessionId) : Server :=
  if (s.sessions sid).authenticated ∧ (s.sessions sid).channelId = channel then
    (s.modifySession sid fun session => { session with channelId := 0 }).sendTo sid
      (.userLeftChannel (s.sessions sid).userId channel)
  else s

theorem announced_any : Announced fun _ => True :=
  ⟨fun _ _ => trivial, fun _ _ _ _ _ => trivial, fun _ => trivial, fun _ _ => trivial⟩

theorem sent_evictUser (channel : ChannelId) (l : List SessionId) (s : Server) :
    ∃ added, (l.foldl (evictUser channel) s).sent = s.sent ++ added := by
  have hbody : ∀ s' other, Quiet (fun _ => True) s s' →
      Quiet (fun _ => True) s (evictUser channel s' other) := by
    intro s' other hs'
    unfold evictUser
    split
    · refine (hs'.modifySession other ?_ ?_).sendTo other trivial
      · exact fun _ => rfl
      · exact fun _ hauth => ⟨hauth, rfl⟩
    · exact hs'
  obtain ⟨added, hsent, _⟩ := ((Quiet.refl _ s).foldl hbody l).sent
  exact ⟨added, hsent⟩

/-- Whoever is taken out of the channel is told. -/
theorem evictUsers_tells (h : s.Occupied channel) :
    ∃ added, (s.evictUsers channel).sent = s.sent ++ added ∧
      ∃ m ∈ added, ∃ user, m.2 = .userLeftChannel user channel := by
  have hloop : ∀ l : List SessionId, (∃ other ∈ l, (s.sessions other).authenticated = true ∧
      (s.sessions other).channelId = channel) →
      ∃ added, (l.foldl (evictUser channel) s).sent = s.sent ++ added ∧
        ∃ m ∈ added, ∃ user, m.2 = .userLeftChannel user channel := by
    intro l hthere
    induction l with
    | nil =>
        obtain ⟨other, hin, _⟩ := hthere
        cases hin
    | cons first rest ih =>
        rw [List.foldl_cons]
        by_cases hfirst : (s.sessions first).authenticated = true ∧
            (s.sessions first).channelId = channel
        · -- the message to the first is there, and the others only add to it
          rw [evictUser, if_pos hfirst]
          obtain ⟨added, hsent⟩ := sent_evictUser channel rest
            ((s.modifySession first fun session => { session with channelId := 0 }).sendTo first
              (.userLeftChannel (s.sessions first).userId channel))
          refine ⟨(first, .userLeftChannel (s.sessions first).userId channel) :: added, ?_,
            _, List.mem_cons_self, _, rfl⟩
          rw [hsent, Server.sendTo, List.append_assoc, List.singleton_append]
          rfl
        · rw [evictUser, if_neg hfirst]
          apply ih
          obtain ⟨other, hin, hother⟩ := hthere
          rcases List.mem_cons.mp hin with rfl | hrest
          · exact absurd hother hfirst
          · exact ⟨other, hrest, hother⟩
  exact hloop s.sessionTable h

/-! ### The request -/

theorem getChannel_deleteChannel (db : Database) (channel : ChannelId) :
    (db.deleteChannel channel).getChannel channel = none := by
  rw [Database.getChannel, Database.deleteChannel, List.find?_filter, List.find?_eq_none]
  intro row _
  simp

/-- A request that gets as far as the loops. -/
def Executes (s : Server) (sid : SessionId) (payload : Bytes) (channel : ChannelId) : Prop :=
  (s.sessions sid).authenticated = true ∧
    hasPermission (s.sessions sid).role Permissions.DELETE_CHANNEL none = true ∧
    ∃ reader, parse readU32 payload = some (channel, reader)

theorem deleteChannelRequest_of_executes {payload : Bytes} (h : s.Executes sid payload channel)
    (dbOk : Bool) : s.deleteChannelRequest sid payload dbOk =
      if dbOk then
        { (s.evictStreams channel).evictUsers channel with db := s.db.deleteChannel channel }.sendTo
          sid (.adminResult "Channel deleted")
      else ((s.evictStreams channel).evictUsers channel).sendError sid
        "Failed to delete channel" := by
  obtain ⟨hauth, hmay, reader, hparse⟩ := h
  rw [deleteChannelRequest, hauth, hmay, hparse]
  simp only [Bool.not_true, Bool.false_eq_true, if_false]
  rw [adminDeleteChannel, hauth, hmay]
  simp only [Bool.not_true, Bool.false_eq_true, if_false]
  rw [db_evicted]
  cases dbOk <;> rfl

theorem untouched_of_not_executes {payload : Bytes} (h : ∀ channel, ¬ s.Executes sid payload channel)
    (dbOk : Bool) : Untouched sid s (s.deleteChannelRequest sid payload dbOk) := by
  unfold deleteChannelRequest
  split
  · exact .refl sid s
  next hauth =>
    split
    · exact untouched_sendError _ _ _ _
    next hmay =>
      split
      · exact .refl sid s
      next channel reader hparse =>
        exact absurd ⟨by simpa using hauth, by simpa using hmay, reader, hparse⟩ (h channel)

/-- A deletion that is carried out in an occupied channel is noticed. -/
theorem not_untouched (h : s.Occupied channel) {payload : Bytes} {dbOk : Bool}
    (hexec : s.Executes sid payload channel) :
    ¬ Untouched sid s (s.deleteChannelRequest sid payload dbOk) := by
  intro huntouched
  obtain ⟨before, hbefore, _⟩ := ((Quiet.refl _ s).evictStreams announced_any channel).sent
  obtain ⟨added, hadded, m, hm, user, hleft⟩ := evictUsers_tells h.evictStreams
  have hsent : ∃ answer, (s.deleteChannelRequest sid payload dbOk).sent =
      s.sent ++ (before ++ added ++ [answer]) := by
    rw [deleteChannelRequest_of_executes hexec]
    cases dbOk
    · refine ⟨(sid, .serverError .generic "Failed to delete channel"), ?_⟩
      rw [← List.append_assoc, ← List.append_assoc, ← hbefore, ← hadded]
      rfl
    · refine ⟨(sid, .adminResult "Channel deleted"), ?_⟩
      rw [← List.append_assoc, ← List.append_assoc, ← hbefore, ← hadded]
      rfl
  obtain ⟨answer, hsent⟩ := hsent
  have hin : (m.1, LobbyMessage.server (.userLeftChannel user channel)) ∈
      s.toldBetween (s.deleteChannelRequest sid payload dbOk) true := by
    rw [toldBetween_of_sent hsent, List.mem_flatMap]
    refine ⟨m, List.mem_append_left _ (List.mem_append_right _ hm), ?_⟩
    have hm' : m = (m.1, .userLeftChannel user channel) := Prod.ext rfl hleft
    rw [hm']
    exact List.mem_singleton.mpr rfl
  rcases (huntouched.answered _ hin).2 with ⟨code, text, herror⟩ | ⟨text, hresult⟩ | ⟨rows, hrows⟩
  · cases herror
  · cases hresult
  · cases hrows

/-- A deletion is all or nothing exactly when it is not carried out, or the channel exists and the
database deletes it, or nobody is in the channel and the database fails or nobody else is logged
in. -/
theorem deleteChannel_allOrNothing_iff (s : Server) (sid : SessionId) (payload : Bytes)
    (dbOk : Bool) : s.AllOrNothing sid payload dbOk ↔
      ∀ channel, s.Executes sid payload channel →
        (s.db.getChannel channel ≠ none ∧ dbOk = true) ∨
          ¬ s.Occupied channel ∧ (dbOk = true → s.Alone sid) := by
  constructor
  · intro hall channel hexec
    by_cases hcarried : s.db.getChannel channel ≠ none ∧ dbOk = true
    · exact .inl hcarried
    · have hkept : ¬ s.Removes sid payload dbOk := by
        rintro ⟨channel', reader', hparse', hknown, hgone⟩
        obtain ⟨_, _, reader, hparse⟩ := id hexec
        rw [hparse] at hparse'
        obtain ⟨rfl, rfl⟩ := Prod.mk.inj (Option.some.inj hparse')
        have hdbFails : dbOk = false := by
          rw [← Bool.not_eq_true]
          exact fun hok => hcarried ⟨hknown, hok⟩
        rw [deleteChannelRequest_of_executes hexec, hdbFails] at hgone
        have hdb : (((s.evictStreams channel).evictUsers channel).sendError sid
            "Failed to delete channel").db = s.db := db_evicted s channel
        rw [if_neg (by decide), hdb] at hgone
        exact hknown hgone
      have huntouched := hall hkept
      have hempty : ¬ s.Occupied channel := fun hoccupied =>
        not_untouched hoccupied hexec huntouched
      refine .inr ⟨hempty, ?_⟩
      rintro rfl
      rw [deleteChannelRequest_of_executes hexec, evicted_of_empty hempty, if_pos rfl] at huntouched
      exact alone_of_untouched huntouched
  · intro hcondition hkept
    by_cases hexec : ∃ channel, s.Executes sid payload channel
    · obtain ⟨channel, hexec⟩ := hexec
      rcases hcondition channel hexec with ⟨hknown, rfl⟩ | ⟨hempty, halone⟩
      · obtain ⟨_, _, reader, hparse⟩ := id hexec
        refine absurd ⟨channel, reader, hparse, hknown, ?_⟩ hkept
        rw [deleteChannelRequest_of_executes hexec, if_pos rfl]
        exact getChannel_deleteChannel s.db channel
      · rw [deleteChannelRequest_of_executes hexec, evicted_of_empty hempty]
        split
        · next hok => exact untouched_deleted (halone hok) _ _
        · exact untouched_sendError _ _ _ _
    · exact untouched_of_not_executes (not_exists.mp hexec) dbOk

/-- The root shares the screen in channel 1 and asks to delete it, and the database fails:
the channel stays and its stream is gone. -/
theorem not_deleteChannel_allOrNothing : ¬ ∀ (s : Server) (sid : SessionId) (payload : Bytes)
    (dbOk : Bool), s.AllOrNothing sid payload dbOk := by
  intro hall
  have hkept : ¬ (run Config.small (Environment.ticking 1) rootShares).Removes 1 (writeU32 1)
      false := by
    rintro ⟨channel, reader, hparse, hknown, hgone⟩
    obtain ⟨rfl, rfl⟩ := Prod.mk.inj (Option.some.inj hparse)
    revert hgone
    decide
  have hstreams := congrFun (hall _ 1 _ false hkept).streams 1
  revert hstreams
  decide

end Server

end Parties

import Parties.Client.AppCore
import Parties.Lib.Attendance
import Parties.Lib.Machine

/-!
# The entries of a client

The channels of `AppCore` with the voice states in them are a roster, for all users but the
own one: each handler of a server message hears its news, and what the user of the client
does in between touches the own entry only.
-/

namespace Parties

open ChannelInfo

/-- Muted and deafened. -/
abbrev VoiceState := Bool × Bool

abbrev LobbyNews := News ChannelId UserId VoiceState
abbrev LobbyRoster := Roster ChannelId UserId VoiceState

def ChannelUser.voice (user : ChannelUser) : VoiceState := (user.muted, user.deafened)

def ChannelUser.entry (user : ChannelUser) : UserId × VoiceState := (user.userId, user.voice)

/-- What a message says about who is where. -/
def LobbyMessage.news : LobbyMessage → Option LobbyNews
  | .channelList rows => some (.rooms (rows.map ListedChannel.id))
  | .userVoiceState user muted deafened => some (.changed user (muted, deafened))
  | .server (.channelUserList channel users) => some (.present channel (users.map ChannelUser.entry))
  | .server (.userJoinedChannel user channel) => some (.joined channel user.userId user.voice)
  | .server (.userLeftChannel user channel) => some (.left channel user)
  | .server _ => none

/-- A channel is listed once. -/
def LobbyMessage.WellFormed : LobbyMessage → Prop
  | .channelList rows => (rows.map ListedChannel.id).Nodup
  | _ => True

/-- The roster after a message. -/
def hearMessage (r : LobbyRoster) (message : LobbyMessage) : LobbyRoster :=
  message.news.elim r r.hear

theorem hearMessage_of_none {r : LobbyRoster} {message : LobbyMessage} (h : message.news = none) :
    hearMessage r message = r := by
  rw [hearMessage, h]
  rfl

/-- What happens to a client. -/
inductive LobbyEvent where
  | receive (message : LobbyMessage)
  | joinChannel (channel : ChannelId)
  | leaveChannel
  | toggleMute
  | toggleDeafen

def LobbyEvent.received : LobbyEvent → Option LobbyMessage
  | .receive message => some message
  | _ => none

namespace AppCore

/-- `on_toggle_mute`, without the `VOICE_STATE_UPDATE` it sends. -/
def toggleMute (k : AppCore) : AppCore :=
  { k.modifyUser k.userId fun u => { u with muted := !k.isMuted } with isMuted := !k.isMuted }

def toggleDeafen (k : AppCore) : AppCore :=
  { k.modifyUser k.userId fun u => { u with deafened := !k.isDeafened } with
    isDeafened := !k.isDeafened }

def lobbyStep (k : AppCore) : LobbyEvent → AppCore
  | .receive message => k.handle message
  | .joinChannel channel => k.joinChannel channel
  | .leaveChannel => k.leaveChannel true
  | .toggleMute => k.toggleMute
  | .toggleDeafen => k.toggleDeafen

end AppCore

/-- The voice states of the entries of a user in a channel. -/
def ChannelInfo.voicesOf (ch : ChannelInfo) (user : UserId) : List VoiceState :=
  (ch.users.filter fun u => u.userId = user).map ChannelUser.voice

/-- All entries of a user, each with its channel. -/
def AppCore.entriesOf (k : AppCore) (user : UserId) : List (ChannelId × VoiceState) :=
  k.channels.flatMap fun ch => (ch.voicesOf user).map fun voice => (ch.id, voice)

/-! ### Channels -/

namespace ChannelInfo

variable {channel : ChannelId} {f : ChannelInfo → ChannelInfo} {channels : List ChannelInfo}

theorem map_id_modifyFirst (hf : ∀ ch, (f ch).id = ch.id) :
    (modifyFirst channel f channels).map ChannelInfo.id = channels.map ChannelInfo.id := by
  induction channels with
  | nil => rfl
  | cons ch rest ih =>
      rw [modifyFirst]
      split
      · rw [List.map_cons, List.map_cons, hf]
      · rw [List.map_cons, List.map_cons, ih]

/-- Ids are unique, so only one channel changes. -/
theorem mem_modifyFirst (hnodup : (channels.map ChannelInfo.id).Nodup) {ch' : ChannelInfo}
    (hin : ch' ∈ modifyFirst channel f channels) :
    (∃ ch ∈ channels, ch.id = channel ∧ ch' = f ch) ∨ ch' ∈ channels ∧ ch'.id ≠ channel := by
  induction channels with
  | nil => cases hin
  | cons ch rest ih =>
      rw [List.map_cons, List.nodup_cons] at hnodup
      rw [modifyFirst] at hin
      split at hin
      next hid =>
        rcases List.mem_cons.mp hin with rfl | hrest
        · exact .inl ⟨ch, List.mem_cons_self, hid, rfl⟩
        · refine .inr ⟨List.mem_cons_of_mem _ hrest, fun hsame => hnodup.1 ?_⟩
          rw [hid, ← hsame]
          exact List.mem_map_of_mem hrest
      next hid =>
        rcases List.mem_cons.mp hin with rfl | hrest
        · exact .inr ⟨List.mem_cons_self, hid⟩
        · rcases ih hnodup.2 hrest with ⟨old, hold, hthis⟩ | ⟨hold, hne⟩
          · exact .inl ⟨old, List.mem_cons_of_mem _ hold, hthis⟩
          · exact .inr ⟨List.mem_cons_of_mem _ hold, hne⟩

variable {user other : UserId}

theorem voicesOf_setUsers (ch : ChannelInfo) (users : List ChannelUser) :
    (ch.setUsers users).voicesOf user = Roster.looksOf user (users.map ChannelUser.entry) := by
  rw [voicesOf, Roster.looksOf, List.filter_map, List.map_map]
  rfl

theorem voicesOf_eraseUser (ch : ChannelInfo) :
    (ch.eraseUser other).voicesOf user = if user = other then [] else ch.voicesOf user := by
  show ((ch.users.filter fun u => u.userId ≠ other).filter fun u => u.userId = user).map _ = _
  rw [List.filter_filter]
  split
  next hsame =>
    rw [List.filter_eq_nil_iff.mpr, List.map_nil]
    intro u _ hboth
    simp [hsame] at hboth
  next hne =>
    rw [voicesOf]
    congr 1
    apply List.filter_congr
    intro u _
    by_cases hu : u.userId = user
    · simp [hu, hne]
    · simp [hu]

/-- The entry of a user is renewed. -/
theorem voicesOf_renew (ch : ChannelInfo) (u : ChannelUser) :
    (ch.setUsers ((ch.users.filter fun old => old.userId ≠ u.userId) ++ [u])).voicesOf user =
      if user = u.userId then [u.voice] else ch.voicesOf user := by
  have herased : (ch.eraseUser u.userId).voicesOf user =
      if user = u.userId then [] else ch.voicesOf user := voicesOf_eraseUser ch
  show (((ch.users.filter fun old => old.userId ≠ u.userId) ++ [u]).filter
    fun old => old.userId = user).map _ = _
  rw [List.filter_append, List.map_append]
  change (ch.eraseUser u.userId).voicesOf user ++ _ = _
  rw [herased]
  split
  next hsame =>
    simp [hsame]
  next hne =>
    simp [Ne.symm hne]

theorem voicesOf_modifyUsers (ch : ChannelInfo) {g : ChannelUser → ChannelUser}
    (hg : ∀ u, (g u).userId = u.userId) :
    (ch.modifyUsers g).voicesOf user =
      (ch.users.filter fun u => u.userId = user).map fun u => (g u).voice := by
  show ((ch.users.map g).filter fun u => u.userId = user).map _ = _
  rw [List.filter_map, List.map_map]
  simp only [Function.comp_def, hg]

/-- The entries of the others stay. -/
theorem voicesOf_modifyUsers_of_ne (ch : ChannelInfo) {g : ChannelUser → ChannelUser}
    (hne : user ≠ other) (hother : ∀ u, u.userId ≠ other → g u = u)
    (hg : ∀ u, (g u).userId = u.userId) :
    (ch.modifyUsers g).voicesOf user = ch.voicesOf user := by
  rw [voicesOf_modifyUsers ch hg, voicesOf]
  apply List.map_congr_left
  intro u hu
  have huser : u.userId = user := of_decide_eq_true (List.mem_filter.mp hu).2
  rw [hother u (huser ▸ hne)]

end ChannelInfo

/-! ### A client that shows a roster -/

namespace AppCore

/-- The client of a user shows a roster, as far as the others are concerned. -/
structure Shows (k : AppCore) (own : UserId) (r : LobbyRoster) : Prop where
  owner : k.userId = own
  nodup : (k.channels.map ChannelInfo.id).Nodup
  rooms : ∀ channel, r.rooms channel = true ↔ channel ∈ k.channels.map ChannelInfo.id
  entries : ∀ ch ∈ k.channels, ∀ user ≠ own, ch.voicesOf user = r.entries ch.id user

variable {k k' k'' : AppCore} {r : LobbyRoster} {channel : ChannelId} {own user : UserId}

/-- The channels stay as they are. -/
structure SameLobby (k k' : AppCore) : Prop where
  channels : k'.channels = k.channels
  user : k'.userId = k.userId

theorem SameLobby.trans (h : SameLobby k k') (h' : SameLobby k' k'') : SameLobby k k'' :=
  ⟨h'.channels.trans h.channels, h'.user.trans h.user⟩

namespace Shows

theorem same (h : k.Shows own r) (hsame : SameLobby k k') : k'.Shows own r := by
  refine ⟨hsame.user.trans h.owner, ?_, ?_, ?_⟩
  · rw [hsame.channels]
    exact h.nodup
  · rw [hsame.channels]
    exact h.rooms
  · rw [hsame.channels]
    exact h.entries

/-- The entries in one channel are written, in the client as in the roster. -/
theorem write (h : k.Shows own r) (channel : ChannelId) {f : ChannelInfo → ChannelInfo}
    {entries : UserId → List VoiceState}
    (hf : ∀ ch, (f ch).id = ch.id)
    (hentries : ∀ ch ∈ k.channels, ch.id = channel → ∀ user ≠ own,
      (f ch).voicesOf user = entries user) :
    { k with channels := modifyFirst channel f k.channels }.Shows own (r.setEntries channel entries) := by
  have hids : (modifyFirst channel f k.channels).map ChannelInfo.id =
      k.channels.map ChannelInfo.id := map_id_modifyFirst hf
  refine ⟨h.owner, hids.symm ▸ h.nodup, fun c => ?_, fun ch' hin user huser => ?_⟩
  · rw [Roster.rooms_setEntries]
    exact hids.symm ▸ h.rooms c
  · change ch' ∈ modifyFirst channel f k.channels at hin
    have hroom : ch'.id = channel → r.rooms channel = true := by
      rintro rfl
      exact (h.rooms _).mpr (hids ▸ List.mem_map_of_mem hin)
    rcases mem_modifyFirst h.nodup hin with ⟨ch, hch, hid, rfl⟩ | ⟨hold, hne⟩
    · have hid' : (f ch).id = channel := (hf ch).trans hid
      rw [Roster.entries_setEntries (hroom hid'), if_pos hid']
      exact hentries ch hch hid user huser
    · have hkept : (r.setEntries channel entries).entries ch'.id user = r.entries ch'.id user := by
        by_cases hlisted : r.rooms channel = true
        · rw [Roster.entries_setEntries hlisted, if_neg hne]
        · rw [Roster.setEntries_of_not hlisted]
      rw [hkept]
      exact h.entries ch' hold user huser

/-- A channel changes, but only in the own entry. -/
theorem writeOwn (h : k.Shows own r) (channel : ChannelId) {f : ChannelInfo → ChannelInfo}
    (hf : ∀ ch, (f ch).id = ch.id)
    (hothers : ∀ ch, ∀ user ≠ own, (f ch).voicesOf user = ch.voicesOf user) :
    { k with channels := modifyFirst channel f k.channels }.Shows own r := by
  have hids : (modifyFirst channel f k.channels).map ChannelInfo.id =
      k.channels.map ChannelInfo.id := map_id_modifyFirst hf
  refine ⟨h.owner, hids.symm ▸ h.nodup, fun c => hids.symm ▸ h.rooms c,
    fun ch' hin user huser => ?_⟩
  rcases mem_modifyFirst h.nodup hin with ⟨ch, hch, _, rfl⟩ | ⟨hold, _⟩
  · rw [hothers ch user huser, hf]
    exact h.entries ch hch user huser
  · exact h.entries ch' hold user huser

theorem eraseOwn (h : k.Shows own r) :
    { k with channels := modifyFirst channel (·.eraseUser k.userId) k.channels }.Shows own r := by
  refine h.writeOwn _ (fun _ => rfl) fun ch user huser => ?_
  rw [voicesOf_eraseUser, h.owner, if_neg huser]

/-- Entries change in every channel. -/
theorem writeAll (h : k.Shows own r) {g : ChannelUser → ChannelUser} {r' : LobbyRoster}
    (hrooms : r'.rooms = r.rooms)
    (hentries : ∀ ch ∈ k.channels, ∀ user ≠ own,
      (ch.modifyUsers g).voicesOf user = r'.entries ch.id user) :
    { k with channels := k.channels.map fun ch : ChannelInfo => ch.modifyUsers g }.Shows own r' := by
  have hids : (k.channels.map fun ch : ChannelInfo => ch.modifyUsers g).map ChannelInfo.id =
      k.channels.map ChannelInfo.id := by
    rw [List.map_map]
    rfl
  refine ⟨h.owner, hids.symm ▸ h.nodup, fun c => ?_, fun ch' hin user huser => ?_⟩
  · rw [hrooms]
    exact hids.symm ▸ h.rooms c
  · obtain ⟨ch, hch, rfl⟩ := List.mem_map.mp hin
    exact hentries ch hch user huser

theorem modifyOwn (h : k.Shows own r) {g : ChannelUser → ChannelUser}
    (hg : ∀ u, (g u).userId = u.userId) : (k.modifyUser k.userId g).Shows own r := by
  refine h.writeAll rfl fun ch hch user huser => ?_
  rw [h.owner, voicesOf_modifyUsers_of_ne ch huser fun u hu => if_neg hu]
  · exact h.entries ch hch user huser
  · intro u
    split
    · exact hg u
    · rfl

end Shows

/-! ### What leaves the channels alone -/

theorem sameLobby_removeWatch (k : AppCore) (stream : StreamId) :
    SameLobby k (k.removeWatch stream) := by
  unfold removeWatch
  split <;> exact ⟨rfl, rfl⟩

theorem sameLobby_addWatch (k : AppCore) (stream : StreamId) :
    SameLobby k (k.addWatch stream) := by
  unfold addWatch watchSharer
  split
  · exact ⟨rfl, rfl⟩
  · split
    · split <;> exact ⟨rfl, rfl⟩
    · split <;> exact ⟨rfl, rfl⟩

theorem sameLobby_dropSharer (k : AppCore) (stream : StreamId) :
    SameLobby k (k.dropSharer stream) := by
  have hdropped : SameLobby k { k with sharers := k.sharers.filter (· ≠ stream) } := ⟨rfl, rfl⟩
  exact hdropped.trans (sameLobby_removeWatch _ stream)

theorem sameLobby_sendCameraStop (k : AppCore) (announced : Bool) :
    SameLobby k (k.sendCameraStop announced) := by
  unfold sendCameraStop
  split <;> exact ⟨rfl, rfl⟩

theorem sameLobby_stopCamera (k : AppCore) (tellServer : Bool) :
    SameLobby k (k.stopCamera tellServer) := by
  unfold stopCamera
  dsimp only
  split
  · exact ⟨rfl, rfl⟩
  · refine SameLobby.trans ?_ ((sameLobby_removeWatch _ _).trans (sameLobby_sendCameraStop _ _))
    exact ⟨rfl, rfl⟩

theorem sameLobby_joinChannel (k : AppCore) (channel : ChannelId) :
    SameLobby k (k.joinChannel channel) := by
  unfold joinChannel
  split <;> exact ⟨rfl, rfl⟩

theorem sameLobby_onScreenShareStarted (k : AppCore) (stream : StreamId) :
    SameLobby k (k.onScreenShareStarted stream) := by
  unfold onScreenShareStarted
  split
  · exact ⟨rfl, rfl⟩
  · extract_lets k₁
    have hlisted : SameLobby k k₁ := ⟨rfl, rfl⟩
    split
    · refine hlisted.trans (SameLobby.trans ?_ (sameLobby_addWatch _ _))
      exact ⟨rfl, rfl⟩
    · exact hlisted

theorem sameLobby_onScreenShareStopped (k : AppCore) (stream : StreamId) :
    SameLobby k (k.onScreenShareStopped stream) := by
  have hdropped := sameLobby_dropSharer k stream
  unfold onScreenShareStopped
  dsimp only
  split
  · exact hdropped
  · split
    · exact hdropped.trans ⟨rfl, rfl⟩
    · split
      · exact hdropped.trans ⟨rfl, rfl⟩
      · exact hdropped

namespace Shows

/-! ### The user of the client -/

theorem leaveChannel (h : k.Shows own r) (tellServer : Bool) : (k.leaveChannel tellServer).Shows own r := by
  have hstopped := sameLobby_stopCamera k tellServer
  unfold AppCore.leaveChannel
  split
  · exact h
  · dsimp only
    generalize k.stopCamera tellServer = k₁ at hstopped
    have hviewing : SameLobby k (if k₁.viewingSharer ≠ 0 then k₁.stopWatching else k₁) := by
      split
      · exact hstopped.trans ⟨rfl, rfl⟩
      · exact hstopped
    generalize (if k₁.viewingSharer ≠ 0 then k₁.stopWatching else k₁) = k₂ at hviewing
    have hsent : SameLobby k
        (if tellServer then k₂.clearAllSharers.sendMessage .channelLeave else k₂.clearAllSharers) := by
      split
      · exact hviewing.trans ⟨rfl, rfl⟩
      · exact hviewing.trans ⟨rfl, rfl⟩
    generalize (if tellServer then k₂.clearAllSharers.sendMessage .channelLeave
      else k₂.clearAllSharers) = k₃ at hsent
    exact (h.same hsent).eraseOwn.same ⟨rfl, rfl⟩

/-! ### The messages of the server -/

theorem onChannelList (h : k.Shows own r) {rows : List ListedChannel}
    (hrows : (rows.map ListedChannel.id).Nodup) :
    (k.onChannelList rows).Shows own (r.hear (.rooms (rows.map ListedChannel.id))) := by
  have hids : (k.onChannelList rows).channels.map ChannelInfo.id = rows.map ListedChannel.id := by
    unfold AppCore.onChannelList
    rw [List.map_map]
    rfl
  refine ⟨h.owner, hids.symm ▸ hrows, fun c => ?_, fun ch hin user huser => ?_⟩
  · rw [hids]
    exact decide_eq_true_iff
  · obtain ⟨row, hrow, rfl⟩ := List.mem_map.mp hin
    have hlisted : row.id ∈ rows.map ListedChannel.id := List.mem_map_of_mem hrow
    show ChannelInfo.voicesOf ⟨row.id, _, _, _, (k.oldUsers row.id).getD []⟩ user = _
    simp only [Roster.hear, hlisted, true_and]
    cases hold : k.channels.reverse.find? fun ch => ch.id = row.id with
    | none =>
        have hnot : ¬ r.rooms row.id = true := by
          rw [h.rooms]
          intro hin'
          obtain ⟨ch, hch, hid⟩ := List.mem_map.mp hin'
          have hne := List.find?_eq_none.mp hold ch (List.mem_reverse.mpr hch)
          simp [hid] at hne
        rw [if_neg hnot, oldUsers, hold]
        rfl
    | some ch =>
        have hch : ch ∈ k.channels := List.mem_reverse.mp (List.mem_of_find?_eq_some hold)
        have hid : ch.id = row.id := by simpa using List.find?_some hold
        have hroom : r.rooms row.id = true :=
          (h.rooms row.id).mpr (hid ▸ List.mem_map_of_mem hch)
        rw [if_pos hroom, oldUsers, hold]
        exact hid ▸ h.entries ch hch user huser

theorem enterChannel (h : k.Shows own r) (channel : ChannelId) : (k.enterChannel channel).Shows own r := by
  unfold AppCore.enterChannel
  extract_lets k₁ k₂ k₃
  have hawaited : SameLobby k k₁ := ⟨rfl, rfl⟩
  have hstopped : SameLobby k k₂ := by
    show SameLobby k (if _ then _ else _)
    split
    · exact (hawaited.trans (sameLobby_stopCamera k₁ true)).trans ⟨rfl, rfl⟩
    · exact hawaited
  have hleft : k₃.Shows own r := by
    show Shows (if _ then _ else _) own r
    split
    · exact (h.same hstopped).eraseOwn
    · exact h.same hstopped
  have hown := hleft.writeOwn channel (f := fun ch => ch.modifyUsers fun u =>
    if u.userId = k₃.userId then { u with muted := k₃.isMuted, deafened := k₃.isDeafened }
    else u) (fun _ => rfl) ?_
  · exact hown.same ⟨rfl, rfl⟩
  · intro ch user huser
    rw [hleft.owner]
    refine voicesOf_modifyUsers_of_ne ch huser (fun u hu => if_neg hu) fun u => ?_
    split <;> rfl

theorem onChannelUserList (h : k.Shows own r) (channel : ChannelId) (users : List ChannelUser) :
    (k.onChannelUserList channel users).Shows own
      (r.hear (.present channel (users.map ChannelUser.entry))) := by
  have hlisted := h.write channel (f := (·.setUsers users)) (fun _ => rfl)
    fun ch _ _ user _ => voicesOf_setUsers ch users
  unfold AppCore.onChannelUserList
  dsimp only
  split
  · exact hlisted.enterChannel channel
  · exact hlisted

theorem onUserJoined (h : k.Shows own r) (user : ChannelUser) (channel : ChannelId) :
    (k.onUserJoined user channel).Shows own (r.hear (.joined channel user.userId user.voice)) := by
  refine h.write _ (fun _ => rfl) fun ch hch hid other hother => ?_
  rw [voicesOf_renew]
  split
  next hsame =>
    rw [hsame, Function.update_self]
  next hne =>
    rw [Function.update_of_ne hne, ← hid]
    exact h.entries ch hch other hother

theorem onUserLeft (h : k.Shows own r) (user : UserId) (channel : ChannelId) :
    (k.onUserLeft user channel).Shows own (r.hear (.left channel user)) := by
  -- the own entry does not count
  have hown : user = own → ∀ k' : AppCore, k'.Shows own r →
      k'.Shows own (r.hear (.left channel user)) := by
    intro hsame k' hk'
    refine ⟨hk'.owner, hk'.nodup, fun c => ?_, fun ch hch other hother => ?_⟩
    · rw [Roster.hear, Roster.rooms_setEntries]
      exact hk'.rooms c
    · rw [hk'.entries ch hch other hother, Roster.hear]
      by_cases hroom : r.rooms channel = true
      · rw [Roster.entries_update hroom, if_neg]
        rintro ⟨_, hthis⟩
        exact hother (hthis.trans hsame)
      · rw [Roster.setEntries_of_not hroom]
  unfold AppCore.onUserLeft
  split
  next hthis =>
    exact hown (hthis.1.trans h.owner) _ (h.leaveChannel false)
  · have hdropped : SameLobby k (if channel = k.currentChannel then
        (k.dropSharer (videoStreamId user .screen)).dropSharer (videoStreamId user .camera)
        else k) := by
      split
      · exact (sameLobby_dropSharer k _).trans (sameLobby_dropSharer _ _)
      · exact ⟨rfl, rfl⟩
    dsimp only
    generalize (if channel = k.currentChannel then
      (k.dropSharer (videoStreamId user .screen)).dropSharer (videoStreamId user .camera)
      else k) = k₁ at hdropped
    have h₁ := h.same hdropped
    refine h₁.write _ (fun _ => rfl) fun ch hch hid other hother => ?_
    rw [voicesOf_eraseUser]
    split
    next hsame =>
      rw [hsame, Function.update_self]
    next hne =>
      rw [Function.update_of_ne hne, ← hid]
      exact h₁.entries ch hch other hother

theorem onUserVoiceState (h : k.Shows own r) (user : UserId) (muted deafened : Bool) :
    (k.onUserVoiceState user muted deafened).Shows own (r.hear (.changed user (muted, deafened))) := by
  refine h.writeAll rfl fun ch hch other hother => ?_
  rw [Roster.entries_changed, ← h.entries ch hch other hother]
  by_cases hsame : other = user
  · rw [if_pos hsame, voicesOf_modifyUsers, voicesOf, List.map_map]
    · apply List.map_congr_left
      intro u hu
      have huser : u.userId = other := of_decide_eq_true (List.mem_filter.mp hu).2
      rw [if_pos (huser.trans hsame)]
      rfl
    · intro u
      split <;> rfl
  · rw [if_neg hsame]
    refine voicesOf_modifyUsers_of_ne ch hsame (fun u hu => if_neg hu) fun u => ?_
    split <;> rfl

theorem onUserRoleChanged (h : k.Shows own r) (user : UserId) (role : Role) :
    (k.onUserRoleChanged user role).Shows own r := by
  refine h.writeAll rfl fun ch hch other hother => ?_
  rw [voicesOf_modifyUsers, ← h.entries ch hch other hother, voicesOf]
  · apply List.map_congr_left
    intro u _
    split <;> rfl
  · intro u
    split <;> rfl

theorem handle (h : k.Shows own r) {message : LobbyMessage} (hmessage : message.WellFormed) :
    (k.handle message).Shows own (hearMessage r message) := by
  cases message with
  | channelList rows => exact h.onChannelList hmessage
  | userVoiceState user muted deafened => exact h.onUserVoiceState user muted deafened
  | server message =>
      cases message with
      | channelUserList channel users => exact h.onChannelUserList channel users
      | userJoinedChannel user channel => exact h.onUserJoined user channel
      | userLeftChannel user channel => exact h.onUserLeft user channel
      | userRoleChanged user role => exact h.onUserRoleChanged user role
      | screenShareStarted stream codec width height replay =>
          exact h.same (sameLobby_onScreenShareStarted k stream)
      | screenShareStopped stream => exact h.same (sameLobby_onScreenShareStopped k stream)
      | serverError | authResponse | screenShareViewer | adminResult => exact h

theorem lobbyStep (h : k.Shows own r) (event : LobbyEvent)
    (hevent : ∀ message ∈ event.received, message.WellFormed) :
    (k.lobbyStep event).Shows own (event.received.elim r (hearMessage r)) := by
  cases event with
  | receive message => exact h.handle (hevent message rfl)
  | joinChannel channel => exact h.same (sameLobby_joinChannel k channel)
  | leaveChannel => exact h.leaveChannel true
  | toggleMute =>
      have hown := h.modifyOwn (g := fun u => { u with muted := !k.isMuted }) fun _ => rfl
      exact hown.same ⟨rfl, rfl⟩
  | toggleDeafen =>
      have hown := h.modifyOwn (g := fun u => { u with deafened := !k.isDeafened }) fun _ => rfl
      exact hown.same ⟨rfl, rfl⟩

/-- Whatever its user does, the client shows what it was told. -/
theorem run {events : List LobbyEvent} (h : k.Shows own r)
    (hevents : ∀ message ∈ events.filterMap LobbyEvent.received, message.WellFormed) :
    (Machine.run AppCore.lobbyStep k events).Shows own
      ((events.filterMap LobbyEvent.received).foldl hearMessage r) := by
  induction events generalizing k r with
  | nil => exact h
  | cons event rest ih =>
      rw [Machine.run_cons]
      cases hreceived : event.received with
      | none =>
          have hstep := h.lobbyStep event (by simp [hreceived])
          rw [hreceived] at hstep
          rw [List.filterMap_cons_none hreceived] at hevents ⊢
          exact ih hstep hevents
      | some message =>
          rw [List.filterMap_cons_some hreceived] at hevents ⊢
          have hstep := h.lobbyStep event (by
            intro m hm
            rw [hreceived] at hm
            exact Option.some.inj hm ▸ hevents message List.mem_cons_self)
          rw [hreceived] at hstep
          exact ih hstep fun m hm => hevents m (List.mem_cons_of_mem _ hm)

theorem of_empty (howner : k.userId = own) (hchannels : k.channels = []) : k.Shows own {} := by
  refine ⟨howner, ?_, fun c => ?_, fun ch hin => ?_⟩
  · rw [hchannels]
    exact List.nodup_nil
  · rw [hchannels]
    exact iff_of_false Bool.false_ne_true List.not_mem_nil
  · rw [hchannels] at hin
    cases hin

/-! ### The entries of a user -/

theorem entriesOf_eq (h : k.Shows own r) (huser : user ≠ own) :
    k.entriesOf user = (k.channels.map ChannelInfo.id).flatMap fun c =>
      (r.entries c user).map fun voice => (c, voice) := by
  rw [AppCore.entriesOf, List.flatMap_map]
  apply List.flatMap_congr
  intro ch hch
  rw [h.entries ch hch user huser]

theorem entriesOf_of_none (h : k.Shows own r) (huser : user ≠ own)
    (hnone : ∀ c, r.entries c user = []) : k.entriesOf user = [] := by
  rw [h.entriesOf_eq huser, List.flatMap_eq_nil_iff]
  intro c _
  rw [hnone, List.map_nil]

/-- With entries in one channel only, these are all. -/
theorem entriesOf_of_one (h : k.Shows own r) (huser : user ≠ own) (hroom : r.rooms channel = true)
    {voice : VoiceState} (hone : r.entries channel user = [voice])
    (hothers : ∀ c, c ≠ channel → r.entries c user = []) :
    k.entriesOf user = [(channel, voice)] := by
  rw [h.entriesOf_eq huser]
  obtain ⟨before, after, hsplit⟩ := List.append_of_mem ((h.rooms channel).mp hroom)
  have hnodup := h.nodup
  rw [hsplit] at hnodup ⊢
  have hnone : ∀ l : List ChannelId, channel ∉ l →
      (l.flatMap fun c => (r.entries c user).map fun voice => (c, voice)) = [] := by
    intro l hnot
    rw [List.flatMap_eq_nil_iff]
    intro c hc
    rw [hothers c fun hsame => hnot (hsame ▸ hc), List.map_nil]
  have hsides := List.nodup_middle.mp hnodup
  obtain ⟨hout, _⟩ := List.nodup_cons.mp hsides
  rw [List.mem_append, not_or] at hout
  rw [List.flatMap_append, List.flatMap_cons, hnone before hout.1, hnone after hout.2, hone]
  rfl

end Shows

end AppCore

end Parties

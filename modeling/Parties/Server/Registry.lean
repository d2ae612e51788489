import Parties.Server.State

/-!
# The registry of users and streams

What logins, channels and shares leave behind in the server, without the video
itself: who is signed in where, which session may send video, and which streams a
channel lists. The handlers of the server act on it through few operations.

`Consistent` holds in every reachable state. `Listed` says where each listed stream
comes from: a live session that runs the share, or a departed one whose disconnect
the main loop has yet to see.
-/

namespace Parties

/-! ### The registry -/

structure Member where
  authenticated : Bool
  userId : UserId
  publicKey : PublicKey
  role : Role
  channelId : ChannelId
  alive : Bool

structure Registry where
  config : Config
  members : SessionId → Member
  allowed : SessionId → VideoSource → Bool
  generation : SessionId → VideoSource → Nat
  watched : SessionId → List StreamId
  table : List SessionId
  next : SessionId
  disconnects : List SessionDisconnect
  userSessions : UserId → Option SessionId
  authed : SessionId → Bool
  listed : ChannelId → List StreamId
  db : Database
  recentAuth : Fingerprint → Option (BitVec 64)
  acceptedAuths : List (PublicKey × BitVec 64)

def Session.member (session : Session) : Member where
  authenticated := session.authenticated
  userId := session.userId
  publicKey := session.publicKey
  role := session.role
  channelId := session.channelId
  alive := session.alive

def Server.registry (s : Server) : Registry where
  config := s.config
  members sid := (s.sessions sid).member
  allowed sid := (s.sessions sid).videoIngressAllowed
  generation sid source := ((s.sessions sid).videoSources source).generation
  watched sid := (s.sessions sid).subscribedSharers
  table := s.sessionTable
  next := s.nextSessionId
  disconnects := s.disconnects
  userSessions := s.userSessions
  authed := s.authedSessions
  listed := s.channelVideoStreams
  db := s.db
  recentAuth := s.recentAuth
  acceptedAuths := s.acceptedAuths

namespace Registry

def sessionForUser (r : Registry) (user : UserId) : Option SessionId :=
  (r.userSessions user).filter fun sid => sid ∈ r.table

theorem sessionForUser_eq_some {r : Registry} {user : UserId} {sid : SessionId} :
    r.sessionForUser user = some sid ↔ r.userSessions user = some sid ∧ sid ∈ r.table := by
  simp [sessionForUser, Option.filter_eq_some_iff]

/-! ### Operations -/

/-- Stopping a stream takes the flag of a source away. -/
def stops (r : Registry) (channel : ChannelId) (user : UserId) (source : VideoSource)
    (sid : SessionId) (source' : VideoSource) : Bool :=
  videoStreamId user source ∈ r.listed channel && r.sessionForUser user = some sid &&
    source' = source

def stop (r : Registry) (channel : ChannelId) (user : UserId) (source : VideoSource) : Registry :=
  { r with
    listed := Function.update r.listed channel
      ((r.listed channel).filter (· ≠ videoStreamId user source))
    allowed := fun sid source' => r.allowed sid source' && !r.stops channel user source sid source'
    generation := fun sid source' =>
      if r.stops channel user source sid source' then r.generation sid source' + 1
      else r.generation sid source'
    watched := fun sid =>
      if sid ∈ r.table ∧ videoStreamId user source ∈ r.listed channel then
        (r.watched sid).filter (· ≠ videoStreamId user source)
      else r.watched sid }

def stopAll (r : Registry) (channel : ChannelId) (user : UserId) : Registry :=
  (r.stop channel user .screen).stop channel user .camera

def forget (r : Registry) (sid : SessionId) (user : UserId) : Registry :=
  { r with
    userSessions := if r.userSessions user = some sid then Function.update r.userSessions user none
      else r.userSessions
    authed := Function.update r.authed sid false
    allowed := fun other source => r.allowed other source && !(other = sid && r.authed sid) }

/-- The user is in the channel through another session. -/
def rejoined (r : Registry) (sid : SessionId) (user : UserId) (channel : ChannelId) : Bool :=
  (r.sessionForUser user).any fun current =>
    current ≠ sid && (r.members current).channelId = channel

/-- The session of a user is forgotten, with its shares in the channel. -/
def endSession (r : Registry) (sid : SessionId) (user : UserId) (channel : ChannelId) : Registry :=
  let r := r.forget sid user
  if channel = 0 ∨ r.rejoined sid user channel = true then r else r.stopAll channel user

/-- A session of a user in a channel ends; if it was signed in, it watches nothing. -/
def processDisconnect (r : Registry) (sid : SessionId) (user : UserId) (channel : ChannelId) :
    Registry :=
  { r.endSession sid user channel with
    watched := if channel ≠ 0 ∧ r.authed sid = true then
        Function.update (r.endSession sid user channel).watched sid []
      else (r.endSession sid user channel).watched }

/-- The main loop takes a disconnect event off the queue and works it off. -/
def workOff (r : Registry) (d : SessionDisconnect) (rest : List SessionDisconnect) : Registry :=
  { r with disconnects := rest }.processDisconnect d.sessionId d.userId d.channelId

def modify (r : Registry) (sid : SessionId) (f : Member → Member) : Registry :=
  { r with members := Function.update r.members sid (f (r.members sid)) }

def connect (r : Registry) : Registry :=
  { r with
    members := Function.update r.members r.next (Session.member {})
    allowed := Function.update r.allowed r.next fun _ => false
    generation := Function.update r.generation r.next fun _ => 0
    watched := Function.update r.watched r.next []
    table := r.table ++ [r.next]
    next := r.next + 1 }

/-- A connection starts to shut down. -/
def retire (r : Registry) (sid : SessionId) : Registry :=
  r.modify sid fun member => { member with alive := false }

/-- The transport drops a session from the table. -/
def depart (r : Registry) (sid : SessionId) : Registry :=
  { r.retire sid with
    disconnects := if (r.members sid).authenticated then
        r.disconnects ++ [{
          sessionId := sid
          userId := (r.members sid).userId
          channelId := (r.members sid).channelId }]
      else r.disconnects
    table := r.table.filter (· ≠ sid) }

/-- A newer login ends the session. -/
def replace (r : Registry) (sid : SessionId) : Registry :=
  (r.processDisconnect sid (r.members sid).userId (r.members sid).channelId).modify sid
    fun member => { member with channelId := 0, authenticated := false, alive := false }

def signIn (r : Registry) (sid : SessionId) (user : UserId) (key : PublicKey) (role : Role) :
    Registry :=
  { r.modify sid fun member =>
      { member with authenticated := true, userId := user, publicKey := key, role := role } with
    userSessions := Function.update r.userSessions user (some sid)
    authed := Function.update r.authed sid true }

/-- The role of a user changes in the live sessions and, if the write succeeds, in the
database. -/
def setRole (r : Registry) (target : UserId) (role : Role) (dbOk : Bool) : Registry :=
  { r with
    db := if dbOk then r.db.setUserRole target role else r.db
    members := fun sid =>
      if sid ∈ r.table ∧ (r.members sid).userId = target then { r.members sid with role := role }
      else r.members sid }

def setChannel (r : Registry) (sid : SessionId) (channel : ChannelId) : Registry :=
  r.modify sid fun member => { member with channelId := channel }

/-- A session watches `streams` and no others. -/
def setWatched (r : Registry) (sid : SessionId) (streams : List StreamId) : Registry :=
  { r with watched := Function.update r.watched sid streams }

/-- Leave the channel. -/
def leave (r : Registry) (sid : SessionId) : Registry :=
  ((r.stopAll (r.members sid).channelId (r.members sid).userId).setWatched sid []).setChannel sid 0

def publish (r : Registry) (sid : SessionId) (source : VideoSource) : Registry :=
  let channel := (r.members sid).channelId
  let stream := videoStreamId (r.members sid).userId source
  { r with
    listed := Function.update r.listed channel
      (if stream ∈ r.listed channel then r.listed channel else stream :: r.listed channel)
    allowed := Function.update r.allowed sid (Function.update (r.allowed sid) source true) }

variable {r : Registry} {channel : ChannelId} {user : UserId} {source : VideoSource}
  {sid : SessionId}

theorem members_modify_self {f : Member → Member} :
    (r.modify sid f).members sid = f (r.members sid) := Function.update_self ..

theorem members_modify_of_ne {f : Member → Member} {other : SessionId} (h : other ≠ sid) :
    (r.modify sid f).members other = r.members other := Function.update_of_ne h ..

theorem members_leave_self (r : Registry) (sid : SessionId) :
    (r.leave sid).members sid = { r.members sid with channelId := 0 } := Function.update_self ..

theorem members_leave_of_ne {other : SessionId} (h : other ≠ sid) :
    (r.leave sid).members other = r.members other := Function.update_of_ne h ..

theorem endSession_frame (r : Registry) (sid : SessionId) (user : UserId) (channel : ChannelId) :
    (r.endSession sid user channel).table = r.table ∧
      (r.endSession sid user channel).members = r.members ∧
      (r.endSession sid user channel).authed = Function.update r.authed sid false ∧
      (r.endSession sid user channel).db = r.db ∧
      (r.endSession sid user channel).config = r.config := by
  unfold endSession
  dsimp only
  split <;> exact ⟨rfl, rfl, rfl, rfl, rfl⟩

/-- The end of a session moves nobody and signs only that session out. -/
theorem processDisconnect_frame (r : Registry) (sid : SessionId) (user : UserId)
    (channel : ChannelId) :
    (r.processDisconnect sid user channel).table = r.table ∧
      (r.processDisconnect sid user channel).members = r.members ∧
      (r.processDisconnect sid user channel).authed = Function.update r.authed sid false ∧
      (r.processDisconnect sid user channel).db = r.db := by
  obtain ⟨htable, hmembers, hauthed, hdb, _⟩ := endSession_frame r sid user channel
  exact ⟨htable, hmembers, hauthed, hdb⟩

theorem config_processDisconnect (r : Registry) (sid : SessionId) (user : UserId)
    (channel : ChannelId) : (r.processDisconnect sid user channel).config = r.config :=
  (endSession_frame r sid user channel).2.2.2.2

theorem next_processDisconnect (r : Registry) (sid : SessionId) (user : UserId)
    (channel : ChannelId) : (r.processDisconnect sid user channel).next = r.next := by
  unfold processDisconnect endSession
  dsimp only
  split <;> rfl

theorem mem_listed_stop {c : ChannelId} {stream : StreamId} :
    stream ∈ (r.stop channel user source).listed c ↔
      stream ∈ r.listed c ∧ ¬ (c = channel ∧ stream = videoStreamId user source) := by
  by_cases hc : c = channel
  · subst hc
    simp [stop]
  · simp [stop, hc]

theorem stops_eq_true {source' : VideoSource} :
    r.stops channel user source sid source' = true ↔
      videoStreamId user source ∈ r.listed channel ∧ r.sessionForUser user = some sid ∧
        source' = source := by
  simp [stops, and_assoc]

theorem allowed_stop {source' : VideoSource} :
    (r.stop channel user source).allowed sid source' = true ↔
      r.allowed sid source' = true ∧ r.stops channel user source sid source' = false := by
  simp [stop]

theorem watched_stop_subset (r : Registry) (channel : ChannelId) (user : UserId)
    (source : VideoSource) (sid : SessionId) :
    (r.stop channel user source).watched sid ⊆ r.watched sid := by
  simp only [stop]
  split
  · exact List.filter_subset_self _
  · exact List.Subset.refl _

theorem watched_stopAll_subset (r : Registry) (channel : ChannelId) (user : UserId)
    (sid : SessionId) : (r.stopAll channel user).watched sid ⊆ r.watched sid :=
  List.Subset.trans (watched_stop_subset _ channel user .camera sid)
    (watched_stop_subset r channel user .screen sid)

theorem watched_processDisconnect_subset (r : Registry) (sid : SessionId) (user : UserId)
    (channel : ChannelId) (other : SessionId) :
    (r.processDisconnect sid user channel).watched other ⊆
      (r.endSession sid user channel).watched other := by
  simp only [processDisconnect]
  split
  · by_cases hsid : other = sid
    · subst hsid
      rw [Function.update_self]
      exact List.nil_subset _
    · rw [Function.update_of_ne hsid]
      exact List.Subset.refl _
  · exact List.Subset.refl _

theorem watched_endSession_subset (r : Registry) (sid : SessionId) (user : UserId)
    (channel : ChannelId) (other : SessionId) :
    (r.endSession sid user channel).watched other ⊆ r.watched other := by
  unfold endSession
  dsimp only
  split
  · exact List.Subset.refl _
  · exact watched_stopAll_subset (r.forget sid user) channel user other

/-- A stream that ends is watched by no one. -/
theorem not_mem_watched_stopAll (hin : sid ∈ r.table)
    (hlisted : videoStreamId user source ∈ r.listed channel) :
    videoStreamId user source ∉ (r.stopAll channel user).watched sid := by
  have hstop : ∀ (r : Registry) source, sid ∈ r.table →
      videoStreamId user source ∈ r.listed channel →
        videoStreamId user source ∉ (r.stop channel user source).watched sid := by
    intro r source hin hlisted
    simp [stop, hin, hlisted]
  cases source with
  | screen =>
      exact fun hwatched =>
        hstop r .screen hin hlisted (watched_stop_subset _ channel user .camera sid hwatched)
  | camera =>
      refine hstop _ .camera hin (mem_listed_stop.mpr ⟨hlisted, ?_⟩)
      rintro ⟨_, heq⟩
      have hsource := videoStreamSource_id user .camera
      rw [heq, videoStreamSource_id] at hsource
      cases hsource

theorem mem_listed_publish {c : ChannelId} {stream : StreamId} :
    stream ∈ (r.publish sid source).listed c ↔ stream ∈ r.listed c ∨
      c = (r.members sid).channelId ∧ stream = videoStreamId (r.members sid).userId source := by
  by_cases hc : c = (r.members sid).channelId
  · subst hc
    simp only [publish, Function.update_self]
    split
    next hin =>
      constructor
      · exact .inl
      · rintro (h | ⟨_, rfl⟩)
        · exact h
        · exact hin
    · simp [or_comm]
  · simp [publish, hc]

theorem allowed_publish {sid' : SessionId} {source' : VideoSource} :
    (r.publish sid source).allowed sid' source' = true ↔
      r.allowed sid' source' = true ∨ sid' = sid ∧ source' = source := by
  by_cases hsid : sid' = sid
  · subst hsid
    by_cases hsource : source' = source
    · simp [publish, hsource]
    · simp [publish, hsource]
  · simp [publish, hsid]

end Registry

/-! ### The database -/

namespace Database

/-- The user signs in with `key`. -/
def Knows (db : Database) (user : UserId) (key : PublicKey) : Prop :=
  ∃ row ∈ db.users, row.id = user ∧ row.publicKey = key

structure Sound (db : Database) : Prop where
  ids : ∀ row ∈ db.users, row.id ≠ 0 ∧ row.id.toNat ≤ db.lastUserId
  bound : db.lastUserId < 2 ^ 30
  distinct : db.users.Pairwise fun row row' => row.id ≠ row'.id
  /-- A user has one key, and a key one user. -/
  unique : ∀ user key key', db.Knows user key → db.Knows user key' → key = key'
  owner : ∀ user user' key, db.Knows user key → db.Knows user' key → user = user'
  channels : ∀ row ∈ db.channels, row.id ≠ 0 ∧ row.id.toNat ≤ db.lastChannelId
  distinctChannels : db.channels.Pairwise fun row row' => row.id ≠ row'.id

theorem Sound.packable {db : Database} (h : db.Sound) {user : UserId} {key : PublicKey}
    (hknows : db.Knows user key) : user.Packable := by
  obtain ⟨row, hrow, rfl, _⟩ := hknows
  obtain ⟨hne, hle⟩ := h.ids row hrow
  exact ⟨hne, hle.trans_lt h.bound⟩

theorem getUserByPubkey_mem {db : Database} {key : PublicKey} {row : UserRow}
    (h : db.getUserByPubkey key = some row) : row ∈ db.users ∧ row.publicKey = key :=
  ⟨List.mem_of_find?_eq_some h, by simpa using List.find?_some h⟩

theorem not_knows_of_getUserByPubkey {db : Database} {key : PublicKey}
    (h : db.getUserByPubkey key = none) (user : UserId) : ¬ db.Knows user key := by
  rintro ⟨row, hrow, _, hkey⟩
  have hnot := List.find?_eq_none.mp h row hrow
  simp [hkey] at hnot

theorem Sound.createUser {db db' : Database} (h : db.Sound) {key : PublicKey}
    {displayName : String} {role : Role} (hnew : db.getUserByPubkey key = none)
    (hcreate : db.createUser key displayName role = some db') :
    db'.Sound ∧ ∀ user key, db.Knows user key → db'.Knows user key := by
  unfold Database.createUser at hcreate
  split at hcreate
  · cases hcreate
  next hroom =>
    obtain rfl := Option.some.inj hcreate
    have hid : (BitVec.ofNat 32 (db.lastUserId + 1)).toNat = db.lastUserId + 1 := by
      rw [BitVec.toNat_ofNat]
      omega
    -- the new id is larger than every other
    have hfresh : ∀ key', ¬ db.Knows (BitVec.ofNat 32 (db.lastUserId + 1)) key' := by
      rintro key' ⟨row, hrow, hrowid, _⟩
      have hle := (h.ids row hrow).2
      rw [hrowid, hid] at hle
      omega
    have hknows : ∀ user key', ({ db with
        lastUserId := db.lastUserId + 1
        users := db.users ++ [{
          id := BitVec.ofNat 32 (db.lastUserId + 1)
          publicKey := key
          displayName := displayName
          role := role }] } : Database).Knows user key' ↔
        db.Knows user key' ∨ BitVec.ofNat 32 (db.lastUserId + 1) = user ∧ key = key' := by
      intro user key'
      simp [Knows, or_and_right, exists_or]
    refine ⟨⟨?_, not_le.mp hroom, ?_, ?_, ?_, h.channels, h.distinctChannels⟩,
      fun user key' hk => (hknows user key').mpr (.inl hk)⟩
    · intro row hrow
      rcases List.mem_append.mp hrow with hold | hnew
      · obtain ⟨hne, hle⟩ := h.ids row hold
        exact ⟨hne, hle.trans (Nat.le_succ _)⟩
      · obtain rfl := List.mem_singleton.mp hnew
        refine ⟨fun heq => ?_, hid.le⟩
        have hzero := congrArg BitVec.toNat heq
        dsimp only at hzero
        rw [hid] at hzero
        cases hzero
    · apply List.pairwise_append.mpr
      refine ⟨h.distinct, List.pairwise_singleton _ _, ?_⟩
      intro row hrow row' hrow' heq
      obtain rfl := List.mem_singleton.mp hrow'
      exact hfresh row.publicKey ⟨row, hrow, heq, rfl⟩
    · intro user key₁ key₂ h₁ h₂
      rcases (hknows _ _).mp h₁ with h₁ | ⟨rfl, rfl⟩ <;>
        rcases (hknows _ _).mp h₂ with h₂ | ⟨hid₂, rfl⟩
      · exact h.unique _ _ _ h₁ h₂
      · exact absurd (hid₂ ▸ h₁) (hfresh _)
      · exact absurd h₂ (hfresh _)
      · rfl
    · intro user₁ user₂ key' h₁ h₂
      rcases (hknows _ _).mp h₁ with h₁ | ⟨rfl, rfl⟩ <;>
        rcases (hknows _ _).mp h₂ with h₂ | ⟨hid₂, hkey₂⟩
      · exact h.owner _ _ _ h₁ h₂
      · exact absurd (hkey₂ ▸ h₁) (not_knows_of_getUserByPubkey hnew _)
      · exact absurd h₂ (not_knows_of_getUserByPubkey hnew _)
      · exact hid₂

/-- A change of rows that leaves their ids and keys alone. -/
theorem Sound.updateUser {db : Database} (h : db.Sound) {user : UserId} {f : UserRow → UserRow}
    (hf : ∀ row ∈ db.users, row.id = user →
      (f row).id = row.id ∧ (f row).publicKey = row.publicKey) :
    (db.updateUser user f).Sound ∧
      ∀ id key, db.Knows id key → (db.updateUser user f).Knows id key := by
  have hsame : ∀ row ∈ db.users, (if row.id = user then f row else row).id = row.id ∧
      (if row.id = user then f row else row).publicKey = row.publicKey := by
    intro row hrow
    split
    next hid =>
      exact hf row hrow hid
    · exact ⟨rfl, rfl⟩
  have hknows : ∀ id key, (db.updateUser user f).Knows id key ↔ db.Knows id key := by
    intro id key
    constructor
    · rintro ⟨row', hrow', hid, hkey⟩
      obtain ⟨row, hrow, rfl⟩ := List.mem_map.mp hrow'
      obtain ⟨hid', hkey'⟩ := hsame row hrow
      exact ⟨row, hrow, hid'.symm.trans hid, hkey'.symm.trans hkey⟩
    · rintro ⟨row, hrow, hid, hkey⟩
      obtain ⟨hid', hkey'⟩ := hsame row hrow
      exact ⟨_, List.mem_map_of_mem hrow, hid'.trans hid, hkey'.trans hkey⟩
  refine ⟨⟨?_, h.bound, ?_, ?_, ?_, h.channels, h.distinctChannels⟩,
    fun id key hk => (hknows id key).mpr hk⟩
  · intro row' hrow'
    obtain ⟨row, hrow, rfl⟩ := List.mem_map.mp hrow'
    rw [(hsame row hrow).1]
    exact h.ids row hrow
  · apply List.pairwise_map.mpr
    refine h.distinct.imp_of_mem ?_
    intro row row' hrow hrow' hne
    rw [(hsame row hrow).1, (hsame row' hrow').1]
    exact hne
  · intro id key key' hk hk'
    exact h.unique id key key' ((hknows _ _).mp hk) ((hknows _ _).mp hk')
  · intro id id' key hk hk'
    exact h.owner id id' key ((hknows _ _).mp hk) ((hknows _ _).mp hk')

/-- The number of a new channel is larger than every other. -/
theorem Sound.createChannel {db db' : Database} (h : db.Sound) {name : String} {maxUsers : Int}
    (hcreate : db.createChannel name maxUsers = some db') :
    db'.Sound ∧ db'.users = db.users ∧ db'.lastChannelId = db.lastChannelId + 1 ∧
      db'.channels = db.channels ++ [{
        id := BitVec.ofNat 32 (db.lastChannelId + 1)
        name := bindName name
        maxUsers := maxUsers }] ∧
      (BitVec.ofNat 32 (db.lastChannelId + 1)).toNat = db.lastChannelId + 1 := by
  unfold Database.createChannel at hcreate
  split at hcreate
  · cases hcreate
  next hroom =>
    obtain rfl := Option.some.inj hcreate
    have hid : (BitVec.ofNat 32 (db.lastChannelId + 1)).toNat = db.lastChannelId + 1 := by
      rw [BitVec.toNat_ofNat]
      omega
    refine ⟨{ h with channels := ?_, distinctChannels := ?_ }, rfl, rfl, rfl, hid⟩
    · intro row hrow
      rcases List.mem_append.mp hrow with hold | hnew
      · obtain ⟨hne, hle⟩ := h.channels row hold
        exact ⟨hne, hle.trans (Nat.le_succ _)⟩
      · obtain rfl := List.mem_singleton.mp hnew
        refine ⟨fun heq => ?_, hid.le⟩
        have hzero := congrArg BitVec.toNat heq
        dsimp only at hzero
        rw [hid] at hzero
        cases hzero
    · apply List.pairwise_append.mpr
      refine ⟨h.distinctChannels, List.pairwise_singleton _ _, ?_⟩
      intro row hrow row' hrow' heq
      obtain rfl := List.mem_singleton.mp hrow'
      have hle := (h.channels row hrow).2
      rw [heq, hid] at hle
      omega

theorem Sound.deleteChannel {db : Database} (h : db.Sound) (channel : ChannelId) :
    (db.deleteChannel channel).Sound :=
  { h with
    channels := fun row hrow => h.channels row (List.mem_of_mem_filter hrow)
    distinctChannels := h.distinctChannels.filter _ }

theorem getChannel_mem {db : Database} {channel : ChannelId} {row : ChannelRow}
    (h : db.getChannel channel = some row) : row ∈ db.channels ∧ row.id = channel :=
  ⟨List.mem_of_find?_eq_some h, by simpa using List.find?_some h⟩

/-- A row is determined by its id. -/
theorem Sound.eq_of_id {db : Database} (h : db.Sound) {row row' : UserRow} (hrow : row ∈ db.users)
    (hrow' : row' ∈ db.users) (hid : row.id = row'.id) : row = row' := by
  have hnodup : (db.users.map UserRow.id).Nodup := List.pairwise_map.mpr h.distinct
  exact List.inj_on_of_nodup_map hnodup hrow hrow' hid

end Database

namespace Registry

/-! ### What holds in every state -/

structure Consistent (r : Registry) : Prop where
  lt_next : ∀ sid ∈ r.table, sid < r.next
  fresh : ∀ sid, r.next ≤ sid → r.authed sid = false ∧ ∀ user, r.userSessions user ≠ some sid
  /-- A signed-in session in the table is the one its user has. -/
  authed : ∀ sid ∈ r.table, r.authed sid = true → (r.members sid).authenticated = true ∧
    r.userSessions (r.members sid).userId = some sid ∧
    r.db.Knows (r.members sid).userId (r.members sid).publicKey
  user : ∀ user sid, r.userSessions user = some sid → sid ∈ r.table →
    r.authed sid = true ∧ (r.members sid).userId = user
  idle : ∀ sid ∈ r.table, r.authed sid = false → ∀ source, r.allowed sid source = false
  home : ∀ sid ∈ r.table, (r.members sid).authenticated = false → (r.members sid).channelId = 0
  /-- What a session may send is listed in its channel. -/
  published : ∀ sid ∈ r.table, ∀ source, r.allowed sid source = true →
    (r.members sid).channelId ≠ 0 ∧
      videoStreamId (r.members sid).userId source ∈ r.listed (r.members sid).channelId
  gone : ∀ sid ∉ r.table, (r.members sid).alive = true → ∀ source, r.allowed sid source = false
  events : ∀ d ∈ r.disconnects, d.sessionId ∉ r.table ∧ d.sessionId < r.next ∧ d.userId.Packable
  db : r.db.Sound

/-- Between two handlers the sessions in `authed_sessions_` are the signed-in ones. -/
def Marked (r : Registry) : Prop :=
  ∀ sid ∈ r.table, (r.members sid).authenticated = true → r.authed sid = true

variable {r : Registry} {channel : ChannelId} {user : UserId} {source : VideoSource}
  {sid : SessionId}

namespace Consistent

theorem packable (h : r.Consistent) (hin : sid ∈ r.table) (hauthed : r.authed sid = true) :
    (r.members sid).userId.Packable :=
  h.db.packable (h.authed sid hin hauthed).2.2

theorem sessionForUser (h : r.Consistent) (hin : sid ∈ r.table) (hauthed : r.authed sid = true) :
    r.sessionForUser (r.members sid).userId = some sid :=
  sessionForUser_eq_some.mpr ⟨(h.authed sid hin hauthed).2.1, hin⟩

theorem authed_of_allowed (h : r.Consistent) (hin : sid ∈ r.table)
    (hallowed : r.allowed sid source = true) : r.authed sid = true := by
  by_contra hnot
  have hidle := h.idle sid hin (by simpa using hnot) source
  rw [hallowed] at hidle
  cases hidle

/-- Two sessions that may send the same stream are one. -/
theorem eq_of_stream (h : r.Consistent) {sid' : SessionId} {source' : VideoSource}
    (hin : sid ∈ r.table) (hin' : sid' ∈ r.table) (hallowed : r.allowed sid source = true)
    (hallowed' : r.allowed sid' source' = true)
    (heq : videoStreamId (r.members sid).userId source =
      videoStreamId (r.members sid').userId source') : sid = sid' ∧ source = source' := by
  have hauthed := h.authed_of_allowed hin hallowed
  have hauthed' := h.authed_of_allowed hin' hallowed'
  obtain ⟨huser, hsource⟩ :=
    (videoStreamId_inj (h.packable hin hauthed) (h.packable hin' hauthed')).mp heq
  have hsame := h.sessionForUser hin hauthed
  rw [huser, h.sessionForUser hin' hauthed'] at hsame
  exact ⟨(Option.some.inj hsame).symm, hsource⟩

theorem stop (h : r.Consistent) (hpack : user.Packable) (channel : ChannelId)
    (source : VideoSource) : (r.stop channel user source).Consistent where
  lt_next := h.lt_next
  fresh := h.fresh
  authed := h.authed
  user := h.user
  idle sid hin hauthed source' := by
    have hidle := h.idle sid hin hauthed source'
    simp [Registry.stop, hidle]
  home := h.home
  published sid hin source' hallowed := by
    obtain ⟨hallowed, hstops⟩ := allowed_stop.mp hallowed
    obtain ⟨hchannel, hlisted⟩ := h.published sid hin source' hallowed
    refine ⟨hchannel, mem_listed_stop.mpr ⟨hlisted, ?_⟩⟩
    -- the stream that goes is this session's own: then its flag is gone too
    rintro ⟨hc, hstream⟩
    have hauthed := h.authed_of_allowed hin hallowed
    obtain ⟨huser, hsource⟩ := (videoStreamId_inj (h.packable hin hauthed) hpack).mp hstream
    have hstop : r.stops channel user source sid source' = true := by
      refine stops_eq_true.mpr ⟨?_, huser ▸ h.sessionForUser hin hauthed, hsource⟩
      rw [← hstream, ← hc]
      exact hlisted
    rw [hstop] at hstops
    cases hstops
  gone sid hout halive source' := by
    have hgone := h.gone sid hout halive source'
    simp [Registry.stop, hgone]
  events := h.events
  db := h.db

theorem stopAll (h : r.Consistent) (hpack : user.Packable) (channel : ChannelId) :
    (r.stopAll channel user).Consistent :=
  (h.stop hpack channel .screen).stop hpack channel .camera

theorem forget (h : r.Consistent) (huser : sid ∈ r.table → r.authed sid = true →
    (r.members sid).userId = user) : (r.forget sid user).Consistent where
  lt_next := h.lt_next
  fresh other hle := by
    obtain ⟨hauthed, hsession⟩ := h.fresh other hle
    constructor
    · simp [Registry.forget, Function.update_apply, hauthed]
    · intro user'
      simp only [Registry.forget]
      split
      · by_cases heq : user' = user
        · simp [heq]
        · rw [Function.update_of_ne heq]
          exact hsession user'
      · exact hsession user'
  authed other hin hauthed := by
    have hne : other ≠ sid := by
      rintro rfl
      simp [Registry.forget] at hauthed
    rw [show (r.forget sid user).authed other = r.authed other from
      Function.update_of_ne hne ..] at hauthed
    obtain ⟨hauth, hsession, hknows⟩ := h.authed other hin hauthed
    refine ⟨hauth, ?_, hknows⟩
    simp only [Registry.forget]
    split
    next hgone =>
      by_cases heq : (r.members other).userId = user
      · rw [heq, hgone] at hsession
        exact absurd (Option.some.inj hsession).symm hne
      · rw [Function.update_of_ne heq]
        exact hsession
    · exact hsession
  user user' other hsession hin := by
    have hold : r.userSessions user' = some other ∧ other ≠ sid := by
      simp only [Registry.forget] at hsession
      split at hsession
      next hgone =>
        by_cases heq : user' = user
        · rw [heq, Function.update_self] at hsession
          cases hsession
        · rw [Function.update_of_ne heq] at hsession
          refine ⟨hsession, fun hsid => heq ?_⟩
          obtain ⟨hauthed, hid⟩ := h.user user' other hsession hin
          rw [← hid, hsid]
          exact huser (hsid ▸ hin) (hsid ▸ hauthed)
      next hkept =>
        refine ⟨hsession, fun hsid => hkept ?_⟩
        obtain ⟨hauthed, hid⟩ := h.user user' other hsession hin
        rw [← huser (hsid ▸ hin) (hsid ▸ hauthed), ← hsid, hid]
        exact hsession
    obtain ⟨hauthed, hid⟩ := h.user user' other hold.1 hin
    refine ⟨?_, hid⟩
    rw [show (r.forget sid user).authed other = r.authed other from
      Function.update_of_ne hold.2 ..]
    exact hauthed
  idle other hin hauthed source := by
    by_cases hsid : other = sid
    · subst hsid
      cases hold : r.authed other with
      | true => simp [Registry.forget, hold]
      | false => simp [Registry.forget, h.idle other hin hold source]
    · simp only [Registry.forget, Function.update_of_ne hsid] at hauthed
      simp [Registry.forget, h.idle other hin hauthed source]
  home := h.home
  published other hin source hallowed := by
    simp only [Registry.forget, Bool.and_eq_true] at hallowed
    exact h.published other hin source hallowed.1
  gone other hout halive source := by
    simp [Registry.forget, h.gone other hout halive source]
  events := h.events
  db := h.db

/-- What the sessions watch is no part of it. -/
theorem setWatched (h : r.Consistent) (watched : SessionId → List StreamId) :
    { r with watched := watched }.Consistent :=
  { h with }

theorem endSession (h : r.Consistent) (hpack : channel ≠ 0 → user.Packable)
    (huser : sid ∈ r.table → r.authed sid = true → (r.members sid).userId = user) :
    (r.endSession sid user channel).Consistent := by
  have hforget := h.forget huser
  unfold Registry.endSession
  dsimp only
  split
  · exact hforget
  next hnot =>
    exact hforget.stopAll (hpack fun hzero => hnot (.inl hzero)) channel

theorem processDisconnect (h : r.Consistent) (hpack : channel ≠ 0 → user.Packable)
    (huser : sid ∈ r.table → r.authed sid = true → (r.members sid).userId = user) :
    (r.processDisconnect sid user channel).Consistent :=
  (h.endSession hpack huser).setWatched _

theorem connect (h : r.Consistent) : r.connect.Consistent := by
  have hnew : r.next ∉ r.table := fun hin => absurd (h.lt_next _ hin) (lt_irrefl _)
  -- the sessions in the table are as they were, but for the new one
  have hcases : ∀ sid ∈ r.connect.table, sid ∈ r.table ∧ sid ≠ r.next ∨ sid = r.next := by
    intro sid hin
    rcases List.mem_append.mp hin with hold | hsid
    · exact .inl ⟨hold, fun heq => hnew (heq ▸ hold)⟩
    · exact .inr (List.mem_singleton.mp hsid)
  have hmember : ∀ sid, sid ≠ r.next → r.connect.members sid = r.members sid :=
    fun sid hne => Function.update_of_ne hne ..
  have hallowed : ∀ sid, sid ≠ r.next → r.connect.allowed sid = r.allowed sid :=
    fun sid hne => Function.update_of_ne hne ..
  have hflags : r.connect.allowed r.next = fun _ => false := Function.update_self ..
  have hunknown := h.fresh r.next le_rfl
  refine
    { lt_next := ?_, fresh := ?_, authed := ?_, user := ?_, idle := ?_, home := ?_,
      published := ?_, gone := ?_, events := ?_, db := h.db }
  · intro sid hin
    rcases hcases sid hin with ⟨hold, _⟩ | rfl
    · exact (h.lt_next sid hold).trans (Nat.lt_succ_self _)
    · exact Nat.lt_succ_self _
  · exact fun sid hle => h.fresh sid (Nat.le_of_succ_le hle)
  · intro sid hin hauthed
    rcases hcases sid hin with ⟨hold, hne⟩ | rfl
    · rw [hmember sid hne]
      exact h.authed sid hold hauthed
    · exact absurd (hauthed.symm.trans hunknown.1) (by simp)
  · intro user sid hsession hin
    rcases hcases sid hin with ⟨hold, hne⟩ | rfl
    · rw [hmember sid hne]
      exact h.user user sid hsession hold
    · exact absurd hsession (hunknown.2 user)
  · intro sid hin hauthed source
    rcases hcases sid hin with ⟨hold, hne⟩ | rfl
    · rw [hallowed sid hne]
      exact h.idle sid hold hauthed source
    · rw [hflags]
  · intro sid hin hauth
    rcases hcases sid hin with ⟨hold, hne⟩ | rfl
    · rw [hmember sid hne] at hauth ⊢
      exact h.home sid hold hauth
    · rw [show r.connect.members r.next = _ from Function.update_self ..]
      rfl
  · intro sid hin source hallow
    rcases hcases sid hin with ⟨hold, hne⟩ | rfl
    · rw [hallowed sid hne] at hallow
      rw [hmember sid hne]
      exact h.published sid hold source hallow
    · rw [hflags] at hallow
      cases hallow
  · intro sid hout halive source
    by_cases hsid : sid = r.next
    · rw [hsid, hflags]
    · rw [hmember sid hsid] at halive
      rw [hallowed sid hsid]
      exact h.gone sid (fun hin => hout (List.mem_append_left _ hin)) halive source
  · intro d hd
    obtain ⟨hout, hlt, hpack⟩ := h.events d hd
    refine ⟨fun hin => ?_, hlt.trans (Nat.lt_succ_self _), hpack⟩
    rcases hcases _ hin with ⟨hold, _⟩ | heq
    · exact hout hold
    · exact absurd (heq ▸ hlt) (lt_irrefl _)

/-- A change of one session. One that is signed in stays who it is, and one that may
send stays where it is. -/
theorem modify (h : r.Consistent) {f : Member → Member}
    (hauthed : sid ∈ r.table → r.authed sid = true →
      (f (r.members sid)).authenticated = true ∧
      (f (r.members sid)).userId = (r.members sid).userId ∧
      (f (r.members sid)).publicKey = (r.members sid).publicKey)
    (hhome : sid ∈ r.table → (f (r.members sid)).authenticated = false →
      (f (r.members sid)).channelId = 0)
    (hallowed : sid ∈ r.table → ∀ source, r.allowed sid source = true →
      (f (r.members sid)).channelId = (r.members sid).channelId)
    (halive : (f (r.members sid)).alive = true → (r.members sid).alive = true) :
    (r.modify sid f).Consistent := by
  have hself : (r.modify sid f).members sid = f (r.members sid) := Function.update_self ..
  have hother : ∀ other, other ≠ sid → (r.modify sid f).members other = r.members other :=
    fun other hne => Function.update_of_ne hne ..
  refine
    { lt_next := h.lt_next, fresh := h.fresh, authed := ?_, user := ?_, idle := h.idle, home := ?_,
      published := ?_, gone := ?_, events := h.events, db := h.db }
  · intro other hin hmark
    by_cases hsid : other = sid
    · subst hsid
      obtain ⟨hauth, huser, hkey⟩ := hauthed hin hmark
      rw [hself, huser, hkey]
      exact ⟨hauth, (h.authed other hin hmark).2⟩
    · rw [hother other hsid]
      exact h.authed other hin hmark
  · intro user other hsession hin
    obtain ⟨hmark, huser⟩ := h.user user other hsession hin
    by_cases hsid : other = sid
    · subst hsid
      rw [hself, (hauthed hin hmark).2.1]
      exact ⟨hmark, huser⟩
    · rw [hother other hsid]
      exact ⟨hmark, huser⟩
  · intro other hin hauth
    by_cases hsid : other = sid
    · subst hsid
      rw [hself] at hauth ⊢
      exact hhome hin hauth
    · rw [hother other hsid] at hauth ⊢
      exact h.home other hin hauth
  · intro other hin source hallow
    by_cases hsid : other = sid
    · subst hsid
      have hmark := h.authed_of_allowed hin hallow
      rw [hself, hallowed hin source hallow, (hauthed hin hmark).2.1]
      exact h.published other hin source hallow
    · rw [hother other hsid]
      exact h.published other hin source hallow
  · intro other hout halive' source
    by_cases hsid : other = sid
    · subst hsid
      rw [hself] at halive'
      exact h.gone other hout (halive halive') source
    · rw [hother other hsid] at halive'
      exact h.gone other hout halive' source

theorem retire (h : r.Consistent) (sid : SessionId) : (r.retire sid).Consistent :=
  h.modify (fun hin hmark => ⟨(h.authed sid hin hmark).1, rfl, rfl⟩)
    (fun hin hauth => h.home sid hin hauth) (fun _ _ _ => rfl) (fun halive => by cases halive)

/-- A session without a running share changes channels. -/
theorem setChannel (h : r.Consistent) (channel : ChannelId)
    (hauth : (r.members sid).authenticated = true)
    (hidle : ∀ source, r.allowed sid source = false) : (r.setChannel sid channel).Consistent :=
  h.modify (fun _ _ => ⟨hauth, rfl, rfl⟩)
    (fun _ hnot => absurd (hauth.symm.trans hnot) (by simp))
    (fun _ source hallow => absurd ((hidle source).symm.trans hallow) (by simp)) id

theorem depart (h : r.Consistent) (hin : sid ∈ r.table) (hmarked : r.Marked) :
    (r.depart sid).Consistent := by
  have hretire := h.retire sid
  have htable : ∀ other, other ∈ (r.depart sid).table ↔ other ∈ r.table ∧ other ≠ sid := by
    simp [Registry.depart]
  refine
    { lt_next := fun other hother => h.lt_next other ((htable other).mp hother).1
      fresh := h.fresh
      authed := fun other hother => hretire.authed other ((htable other).mp hother).1
      user := fun user other hsession hother =>
        hretire.user user other hsession ((htable other).mp hother).1
      idle := fun other hother => h.idle other ((htable other).mp hother).1
      home := fun other hother => hretire.home other ((htable other).mp hother).1
      published := fun other hother => hretire.published other ((htable other).mp hother).1
      gone := ?_, events := ?_, db := h.db }
  · intro other hother halive source
    by_cases hsid : other = sid
    · subst hsid
      simp [Registry.depart, Registry.retire, Registry.modify] at halive
    · exact hretire.gone other (fun hold => hother ((htable other).mpr ⟨hold, hsid⟩)) halive source
  · -- the new event is of the session that left
    have hold : ∀ d ∈ r.disconnects, d.sessionId ∉ (r.depart sid).table ∧
        d.sessionId < r.next ∧ d.userId.Packable := by
      intro d hd
      obtain ⟨hout, hrest⟩ := h.events d hd
      exact ⟨fun hd' => hout ((htable _).mp hd').1, hrest⟩
    intro d hd
    simp only [Registry.depart] at hd
    split at hd
    next hauth =>
      rcases List.mem_append.mp hd with hd | hd
      · exact hold d hd
      · obtain rfl := List.mem_singleton.mp hd
        exact ⟨fun hd' => ((htable _).mp hd').2 rfl, h.lt_next sid hin,
          h.packable hin (hmarked sid hin hauth)⟩
    · exact hold d hd

theorem replace (h : r.Consistent) (hin : sid ∈ r.table)
    (hauthed : r.authed sid = true) : (r.replace sid).Consistent := by
  have hended : (r.processDisconnect sid (r.members sid).userId
      (r.members sid).channelId).Consistent :=
    h.processDisconnect (fun _ => h.packable hin hauthed) fun _ _ => rfl
  have hmark : (r.processDisconnect sid (r.members sid).userId
      (r.members sid).channelId).authed sid = false := by
    rw [(processDisconnect_frame ..).2.2.1, Function.update_self]
  refine hended.modify (fun _ hmark' => ?_) (fun _ _ => rfl) (fun hin' source hallow => ?_)
    (fun halive => by cases halive)
  · exact absurd (hmark.symm.trans hmark') (by simp)
  · exact absurd ((hended.idle sid hin' hmark source).symm.trans hallow) (by simp)

/-- A session signs in where no other one is signed in under the same key. -/
theorem signIn (h : r.Consistent) {key : PublicKey} {role : Role} (hin : sid ∈ r.table)
    (hout : (r.members sid).authenticated = false) (hknows : r.db.Knows user key)
    (honly : ∀ other ∈ r.table, other ≠ sid → (r.members other).authenticated = true →
      (r.members other).publicKey ≠ key) : (r.signIn sid user key role).Consistent := by
  have hmark : r.authed sid = false := by
    by_contra hnot
    have hauth := (h.authed sid hin (by simpa using hnot)).1
    rw [hout] at hauth
    cases hauth
  -- nobody else is signed in as this user
  have huser : ∀ other ∈ r.table, r.authed other = true → (r.members other).userId ≠ user := by
    intro other hother hmark' heq
    obtain ⟨hauth, _, hknows'⟩ := h.authed other hother hmark'
    refine honly other hother ?_ hauth (h.db.unique user _ _ (heq ▸ hknows') hknows)
    rintro rfl
    exact absurd (hmark.symm.trans hmark') (by simp)
  have hother : ∀ other, other ≠ sid →
      (r.signIn sid user key role).members other = r.members other ∧
        (r.signIn sid user key role).authed other = r.authed other :=
    fun other hne => ⟨Function.update_of_ne hne .., Function.update_of_ne hne ..⟩
  have hself : (r.signIn sid user key role).members sid =
      { r.members sid with authenticated := true, userId := user, publicKey := key, role := role } :=
    Function.update_self ..
  have hidle := h.idle sid hin hmark
  refine
    { lt_next := h.lt_next, fresh := ?_, authed := ?_, user := ?_, idle := ?_, home := ?_,
      published := ?_, gone := ?_, events := h.events, db := h.db }
  · intro other hle
    have hne : other ≠ sid := fun heq => absurd (h.lt_next sid hin) (not_lt.mpr (heq ▸ hle))
    obtain ⟨hauthed, hsession⟩ := h.fresh other hle
    refine ⟨(hother other hne).2.trans hauthed, fun user' => ?_⟩
    by_cases heq : user' = user
    · rw [heq, show (r.signIn sid user key role).userSessions user = some sid from
        Function.update_self ..]
      exact fun hsid => hne (Option.some.inj hsid).symm
    · rw [show (r.signIn sid user key role).userSessions user' = r.userSessions user' from
        Function.update_of_ne heq ..]
      exact hsession user'
  · intro other hin' hmark'
    by_cases hsid : other = sid
    · subst hsid
      rw [hself]
      exact ⟨rfl, Function.update_self .., hknows⟩
    · rw [(hother other hsid).2] at hmark'
      rw [(hother other hsid).1]
      obtain ⟨hauth, hsession, hknows'⟩ := h.authed other hin' hmark'
      refine ⟨hauth, ?_, hknows'⟩
      rw [show (r.signIn sid user key role).userSessions _ = _ from
        Function.update_of_ne (huser other hin' hmark') ..]
      exact hsession
  · intro user' other hsession hin'
    by_cases heq : user' = user
    · subst heq
      rw [show (r.signIn sid user' key role).userSessions user' = some sid from
        Function.update_self ..] at hsession
      obtain rfl := Option.some.inj hsession
      rw [hself]
      exact ⟨Function.update_self .., rfl⟩
    · rw [show (r.signIn sid user key role).userSessions user' = r.userSessions user' from
        Function.update_of_ne heq ..] at hsession
      obtain ⟨hmark', hid⟩ := h.user user' other hsession hin'
      have hne : other ≠ sid := by
        rintro rfl
        exact absurd (hmark.symm.trans hmark') (by simp)
      rw [(hother other hne).1, (hother other hne).2]
      exact ⟨hmark', hid⟩
  · intro other hin' hmark'
    by_cases hsid : other = sid
    · subst hsid
      exact hidle
    · exact h.idle other hin' ((hother other hsid).2.symm.trans hmark')
  · intro other hin' hauth
    by_cases hsid : other = sid
    · subst hsid
      rw [hself] at hauth
      cases hauth
    · rw [(hother other hsid).1] at hauth ⊢
      exact h.home other hin' hauth
  · intro other hin' source hallow
    by_cases hsid : other = sid
    · subst hsid
      exact absurd ((hidle source).symm.trans hallow) (by simp)
    · rw [(hother other hsid).1]
      exact h.published other hin' source hallow
  · intro other hout' halive source
    have hsid : other ≠ sid := fun heq => hout' (heq ▸ hin)
    rw [(hother other hsid).1] at halive
    exact h.gone other hout' halive source

theorem publish (h : r.Consistent) (hin : sid ∈ r.table) (hauthed : r.authed sid = true)
    (hchannel : (r.members sid).channelId ≠ 0) (source : VideoSource) :
    (r.publish sid source).Consistent := by
  refine
    { lt_next := h.lt_next, fresh := h.fresh, authed := h.authed, user := h.user, idle := ?_,
      home := h.home, published := ?_, gone := ?_, events := h.events, db := h.db }
  · intro other hother hmark source'
    by_contra hnot
    rcases allowed_publish.mp (by simpa using hnot) with hallow | ⟨rfl, _⟩
    · exact absurd ((h.idle other hother hmark source').symm.trans hallow) (by simp)
    · exact absurd (hauthed.symm.trans hmark) (by simp)
  · intro other hother source' hallow
    rcases allowed_publish.mp hallow with hallow | ⟨rfl, rfl⟩
    · obtain ⟨hzero, hlisted⟩ := h.published other hother source' hallow
      exact ⟨hzero, mem_listed_publish.mpr (.inl hlisted)⟩
    · exact ⟨hchannel, mem_listed_publish.mpr (.inr ⟨rfl, rfl⟩)⟩
  · intro other hother halive source'
    by_contra hnot
    rcases allowed_publish.mp (by simpa using hnot) with hallow | ⟨rfl, _⟩
    · exact absurd ((h.gone other hother halive source').symm.trans hallow) (by simp)
    · exact hother hin

end Consistent

end Registry

end Parties

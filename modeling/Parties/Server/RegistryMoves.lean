import Mathlib.Logic.Relation
import Parties.Server.ListedStreams

/-!
# Moves of the registry

One handler of the server acts on the registry by several operations, each after its
own checks. A move is one such operation with the checks in front of it, so that an
invariant of the registry is settled move by move and the handlers are looked at once,
where they are shown to be sequences of moves.
-/

namespace Parties

/-- What a step brings from outside. -/
structure Occasion where
  /-- The wall clock, if the step reads it. -/
  now : Option (BitVec 64) := none
  /-- A login dated before the epoch is fresh. -/
  early : Bool := false
  /-- A root fingerprint logs in. -/
  root : Bool := false
  /-- An owner changes roles. -/
  owner : Bool := false
  /-- The writes of the database succeed. -/
  dbOk : Bool := true

namespace Registry

def AUTH_WINDOW_SEC : Int := 30

/-! ### Logins and capacity -/

def pruneRecentAuth (r : Registry) (now : BitVec 64) : Registry :=
  { r with recentAuth := fun fp =>
      (r.recentAuth fp).filter fun seen => now.toInt - seen.toInt ≤ AUTH_WINDOW_SEC }

/-- The replay guard accepts a login. -/
def acceptAuth (r : Registry) (key : PublicKey) (timestamp : BitVec 64) : Registry :=
  { r with
    recentAuth := Function.update r.recentAuth (r.config.publicKeyFingerprint key) (some timestamp)
    acceptedAuths := r.acceptedAuths ++ [(key, timestamp)] }

/-- The number of signed-in sessions in a channel. -/
def population (r : Registry) (channel : ChannelId) : Nat :=
  (r.table.filter fun sid =>
    (r.members sid).authenticated && (r.members sid).channelId = channel).length

/-- The limit of a channel; none if it is not positive. -/
def limit (r : Registry) (row : ChannelRow) : Int :=
  if 0 < row.maxUsers then row.maxUsers else r.config.maxUsersPerChannel

def Full (r : Registry) (row : ChannelRow) : Prop :=
  0 < r.limit row ∧ r.limit row ≤ r.population row.id

/-- A session neither sends nor watches anything, and its channel lists nothing of it. -/
structure Idle (r : Registry) (sid : SessionId) : Prop where
  allowed : ∀ source, r.allowed sid source = false
  watched : r.watched sid = []
  listed : ∀ source, videoStreamId (r.members sid).userId source ∉
    r.listed (r.members sid).channelId

/-! ### Moves -/

inductive Move (o : Occasion) (r : Registry) : Registry → Prop
  | connect : Move o r r.connect
  | retire (sid : SessionId) : Move o r (r.retire sid)
  | depart (sid : SessionId) (hin : sid ∈ r.table) : Move o r (r.depart sid)
  | prune (now : BitVec 64) (hnow : o.now = some now) : Move o r (r.pruneRecentAuth now)
  | accept (now : BitVec 64) (key : PublicKey) (timestamp : BitVec 64) (hnow : o.now = some now)
      (hfresh : now.toInt - timestamp.toInt ≤ AUTH_WINDOW_SEC)
      (hearly : o.early = false → 0 ≤ timestamp.toInt)
      (hpruned : ∀ fp seen, r.recentAuth fp = some seen →
        now.toInt - seen.toInt ≤ AUTH_WINDOW_SEC)
      (hnewer : ∀ seen, r.recentAuth (r.config.publicKeyFingerprint key) = some seen →
        seen < timestamp) :
      Move o r (r.acceptAuth key timestamp)
  | register (key : PublicKey) (displayName : String) (role : Role) (db : Database)
      (hnew : r.db.getUserByPubkey key = none)
      (hcreate : r.db.createUser key displayName role = some db)
      (hrole : o.root = false → role = Role.USER) :
      Move o r { r with db := db }
  | restore (row user : UserRow) (hrow : row ∈ r.db.users) (hid : user.id = row.id)
      (hkey : user.publicKey = row.publicKey) (hrole : o.root = false → user.role = row.role) :
      Move o r { r with db := r.db.updateUser user.id fun _ => user }
  | replace (sid : SessionId) (hin : sid ∈ r.table)
      (hauth : (r.members sid).authenticated = true) :
      Move o r (r.replace sid)
  | signIn (sid : SessionId) (user : UserId) (key : PublicKey) (role : Role)
      (hlogin : o.now ≠ none) (hin : sid ∈ r.table)
      (hout : (r.members sid).authenticated = false) (hknows : r.db.Knows user key)
      (honly : ∀ other ∈ r.table, other ≠ sid → (r.members other).authenticated = true →
        (r.members other).publicKey ≠ key)
      (hrole : o.dbOk = true → ∃ row ∈ r.db.users, row.id = user ∧ row.role = role) :
      Move o r (r.signIn sid user key role)
  | leave (sid : SessionId) (hin : sid ∈ r.table)
      (hauth : (r.members sid).authenticated = true) :
      Move o r (r.leave sid)
  | enter (sid : SessionId) (channel : ChannelId) (row : ChannelRow) (hin : sid ∈ r.table)
      (hauth : (r.members sid).authenticated = true)
      (hidle : ∀ source, r.allowed sid source = false)
      (hoff : (r.members sid).channelId = 0) (hrow : r.db.getChannel channel = some row)
      (hroom : ¬ r.Full row) :
      Move o r (r.setChannel sid channel)
  | evict (sid : SessionId) (hauth : (r.members sid).authenticated = true)
      (hidle : r.Idle sid) : Move o r (r.setChannel sid 0)
  | watch (sid : SessionId) (stream : StreamId) (hview : o.now = none) (hin : sid ∈ r.table)
      (hlisted : stream ∈ r.listed (r.members sid).channelId) :
      Move o r (r.setWatched sid (stream :: r.watched sid))
  | unwatch (sid : SessionId) (left : List StreamId) (hleft : left ⊆ r.watched sid) :
      Move o r (r.setWatched sid left)
  | stop (sid : SessionId) (source : VideoSource) (hin : sid ∈ r.table)
      (hauth : (r.members sid).authenticated = true) :
      Move o r (r.stop (r.members sid).channelId (r.members sid).userId source)
  | publish (sid : SessionId) (source : VideoSource) (hin : sid ∈ r.table)
      (hauth : (r.members sid).authenticated = true) (hchannel : (r.members sid).channelId ≠ 0) :
      Move o r (r.publish sid source)
  | createChannel (name : String) (maxUsers : Int) (db : Database)
      (hcreate : r.db.createChannel name maxUsers = some db) :
      Move o r { r with db := db }
  | deleteChannel (channel : ChannelId) : Move o r { r with db := r.db.deleteChannel channel }
  | setRole (sid : SessionId) (target : UserId) (newRole : Role) (user : UserRow)
      (hin : sid ∈ r.table) (hauth : (r.members sid).authenticated = true)
      (hmay : hasPermission (r.members sid).role Permissions.MANAGE_ROLES none = true)
      (hnot : newRole ≠ Role.OWNER)
      (hbelow : (r.members sid).role ≠ Role.OWNER → (r.members sid).role < newRole)
      (huser : r.db.getUserById target = some user)
      (hover : canModerate (r.members sid).role user.role = true)
      (howner : o.owner = false → (r.members sid).role ≠ Role.OWNER) :
      Move o r (r.setRole target newRole o.dbOk)

/-- A sequence of moves. -/
def Moves (o : Occasion) (r r' : Registry) : Prop := Relation.ReflTransGen (Move o) r r'

variable {o : Occasion} {r r' r'' : Registry}

theorem Moves.refl : Moves o r r := Relation.ReflTransGen.refl

theorem Moves.trans (h : Moves o r r') (h' : Moves o r' r'') : Moves o r r'' :=
  Relation.ReflTransGen.trans h h'

theorem Move.moves (h : Move o r r') : Moves o r r' := Relation.ReflTransGen.single h

/-- What every move preserves, sequences of moves preserve. -/
theorem Moves.invariant {Inv : Registry → Prop} (hmove : ∀ r r', Inv r → Move o r r' → Inv r')
    (hinv : Inv r) (h : Moves o r r') : Inv r' := by
  induction h with
  | refl => exact hinv
  | tail _ hlast ih => exact hmove _ _ ih hlast

/-! ### Moves keep the registry in order -/

namespace InOrder

/-- A change outside the tables the invariant is about. -/
theorem keeps_guard (h : r.InOrder) (recentAuth : Fingerprint → Option (BitVec 64))
    (acceptedAuths : List (PublicKey × BitVec 64)) :
    r.Keeps { r with recentAuth := recentAuth, acceptedAuths := acceptedAuths } where
  inOrder := ⟨{ h.consistent with }, h.marked⟩
  listed _ hlisted := hlisted

/-- A change of the channels. -/
theorem setChannels (h : r.InOrder) {db : Database} (hdb : db.Sound)
    (husers : db.users = r.db.users) : r.Keeps { r with db := db } := by
  have hknows : ∀ id key, db.Knows id key ↔ r.db.Knows id key := by
    simp [Database.Knows, husers]
  exact h.setDb hdb fun id key => (hknows id key).mpr

/-- The roles of the sessions change. -/
theorem setRoles (h : r.InOrder) {members : SessionId → Member}
    (hroles : ∀ sid, ∃ role, members sid = { r.members sid with role := role }) :
    r.Keeps { r with members := members } := by
  have hauth : ∀ sid, (members sid).authenticated = (r.members sid).authenticated := by
    intro sid
    obtain ⟨role, hsid⟩ := hroles sid
    rw [hsid]
  have huser : ∀ sid, (members sid).userId = (r.members sid).userId := by
    intro sid
    obtain ⟨role, hsid⟩ := hroles sid
    rw [hsid]
  have hkey : ∀ sid, (members sid).publicKey = (r.members sid).publicKey := by
    intro sid
    obtain ⟨role, hsid⟩ := hroles sid
    rw [hsid]
  have hchannel : ∀ sid, (members sid).channelId = (r.members sid).channelId := by
    intro sid
    obtain ⟨role, hsid⟩ := hroles sid
    rw [hsid]
  have halive : ∀ sid, (members sid).alive = (r.members sid).alive := by
    intro sid
    obtain ⟨role, hsid⟩ := hroles sid
    rw [hsid]
  have hr := h.consistent
  constructor
  · refine ⟨{ hr with authed := ?_, user := ?_, home := ?_, published := ?_, gone := ?_ }, ?_⟩
    · intro sid
      rw [hauth, huser, hkey]
      exact hr.authed sid
    · intro user sid
      rw [huser]
      exact hr.user user sid
    · intro sid
      rw [hauth, hchannel]
      exact hr.home sid
    · intro sid
      rw [hchannel, huser]
      exact hr.published sid
    · intro sid
      rw [halive]
      exact hr.gone sid
    · intro sid
      rw [hauth]
      exact h.marked sid
  · intro extra hlisted c stream hin
    obtain ⟨hzero, source, hsource, hwhy⟩ := hlisted c stream hin
    refine ⟨hzero, source, hsource, hwhy.imp_left ?_⟩
    rintro ⟨sid, hsession, hc, hallowed⟩
    exact ⟨sid, hsession, (hchannel sid).trans hc, hallowed⟩

theorem setRole (h : r.InOrder) (target : UserId) (newRole : Role) (dbOk : Bool) :
    r.Keeps (r.setRole target newRole dbOk) := by
  have hstored : r.Keeps { r with
      db := if dbOk then r.db.setUserRole target newRole else r.db } := by
    split
    · have hsame : ∀ row ∈ r.db.users, row.id = target →
          row.id = row.id ∧ row.publicKey = row.publicKey := fun _ _ _ => ⟨rfl, rfl⟩
      obtain ⟨hsound, hknows⟩ :=
        h.consistent.db.updateUser (f := fun row => { row with role := newRole }) hsame
      exact h.setDb hsound hknows
    · exact h.keeps_self
  refine hstored.trans (hstored.inOrder.setRoles fun sid => ?_)
  dsimp only
  split
  · exact ⟨newRole, rfl⟩
  · exact ⟨(r.members sid).role, rfl⟩

end InOrder

/-- A move keeps the registry in order and the listed streams accounted for. -/
theorem Move.keeps (hmove : Move o r r') (h : r.InOrder) : r.Keeps r' := by
  cases hmove with
  | connect => exact h.connect
  | retire sid => exact h.retire sid
  | depart sid hin => exact h.depart hin
  | prune now hnow => exact h.keeps_guard _ _
  | accept now key timestamp hnow hfresh hearly hpruned hnewer => exact h.keeps_guard _ _
  | register key displayName role db hnew hcreate hrole =>
      obtain ⟨hsound, hknows⟩ := h.consistent.db.createUser hnew hcreate
      exact h.setDb hsound hknows
  | restore row user hrow hid hkey hrole =>
      have hsame : ∀ row' ∈ r.db.users, row'.id = user.id →
          user.id = row'.id ∧ user.publicKey = row'.publicKey := by
        intro row' hrow' hid'
        obtain rfl := h.consistent.db.eq_of_id hrow' hrow (hid'.trans hid)
        exact ⟨hid, hkey⟩
      obtain ⟨hsound, hknows⟩ := h.consistent.db.updateUser hsame
      exact h.setDb hsound hknows
  | replace sid hin hauth => exact h.replace hin hauth
  | signIn sid user key role hlogin hin hout hknows honly hrole => exact h.signIn hin hout hknows honly
  | leave sid hin hauth => exact h.leave hin hauth
  | enter sid channel row hin hauth hidle hoff hrow hroom => exact h.setChannel channel hauth hidle
  | evict sid hauth hidle => exact h.setChannel 0 hauth hidle.allowed
  | watch sid stream hview hin hlisted => exact h.setWatched sid _
  | unwatch sid left hleft => exact h.setWatched sid left
  | stop sid source hin hauth => exact h.stop hin hauth source
  | publish sid source hin hauth hchannel => exact h.publish hin hauth hchannel source
  | createChannel name maxUsers db hcreate =>
      obtain ⟨hsound, husers, _⟩ := h.consistent.db.createChannel hcreate
      exact h.setChannels hsound husers
  | deleteChannel channel => exact h.setChannels (h.consistent.db.deleteChannel channel) rfl
  | setRole sid target newRole user hin hauth hmay hnot hbelow huser hover howner =>
      exact h.setRole target newRole o.dbOk

theorem Moves.keeps (hmoves : Moves o r r') (h : r.InOrder) : r.Keeps r' := by
  induction hmoves with
  | refl => exact h.keeps_self
  | tail _ hlast ih => exact ih.trans (hlast.keeps ih.inOrder)

theorem Moves.inOrder (hmoves : Moves o r r') (h : r.InOrder) : r'.InOrder :=
  (hmoves.keeps h).inOrder

end Registry

end Parties

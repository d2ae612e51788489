import Parties.Server.QuietSteps
import Parties.Server.RoleHierarchy

/-!
# Stored, live and announced roles

Roles are written where a root fingerprint logs in and where `ADMIN_SET_ROLE` is accepted.
The steps that go wrong are singled out: a new role that is no role, a write that fails or
writes what is there already, and the promotion of a root that is stored under another role,
which nobody else is told of.
-/

namespace Parties

open Parties.Video

/-- One of the values of the enumeration. -/
def Role.Defined (role : Role) : Prop := role ≤ Role.USER

instance (role : Role) : Decidable role.Defined := inferInstanceAs (Decidable (_ ≤ _))

/-- The roles a message shows. -/
def ServerMessage.roles : ServerMessage → List Role
  | .authResponse _ role => [role]
  | .channelUserList _ users => users.map ChannelUser.role
  | .userJoinedChannel user _ => [user.role]
  | .userRoleChanged _ role => [role]
  | _ => []

/-- A message that shows defined roles and announces no change. -/
def ServerMessage.Everyday (message : ServerMessage) : Prop :=
  (∀ user role, message ≠ .userRoleChanged user role) ∧ ∀ role ∈ message.roles, role.Defined

theorem ServerMessage.Everyday.of_none {message : ServerMessage} (h : message.roles = []) :
    message.Everyday := by
  constructor
  · rintro user role rfl
    cases h
  · rw [h]
    intro role hrole
    cases hrole

/-- A database that a server can start on. -/
structure UserTable where
  db : Database
  sound : db.Sound
  defined : ∀ user role, db.HasRole user role → role.Defined

namespace Server

/-- Every authenticated session has the stored role of its user, and every role that is
stored, held or was sent is defined. -/
structure RolesAgree (s : Server) : Prop where
  live : s.LiveRoles
  stored : ∀ user role, s.db.HasRole user role → role.Defined
  held : ∀ sid, (s.sessions sid).role.Defined
  shown : ∀ m ∈ s.sent, ∀ role ∈ m.2.roles, role.Defined

/-- From `s` to `s'` a change of a role is announced if and only if it is stored. -/
def Announces (s s' : Server) : Prop :=
  ∀ user role, (∃ sid, (sid, .userRoleChanged user role) ∈ s'.sent.drop s.sent.length) ↔
    ∃ old, s.db.HasRole user old ∧ s'.db.HasRole user role ∧ old ≠ role

/-- The step promotes nobody by login, and a role it sets is defined, is not the stored one,
and can be written. -/
def RolesRight (s : Server) : ServerOp → Prop
  | .message sid (.authIdentity auth nowS _) => s.AcceptsLogin sid auth nowS →
      s.config.publicKeyFingerprint auth.publicKey ∈ s.config.rootFingerprints →
      ∀ row, s.db.getUserByPubkey auth.publicKey = some row → row.role = Role.OWNER
  | .message sid (.adminSetRole target newRole dbOk) => s.AcceptsSetRole sid target newRole →
      newRole.Defined ∧ ¬ s.db.HasRole target newRole ∧ dbOk = true
  | _ => True

variable {s s' : Server} {sid : SessionId}

/-! ### Quiet steps -/

theorem answered_everyday (h : ∀ sid, (s.sessions sid).role.Defined) :
    Answered ServerMessage.Everyday s where
  left _ _ := .of_none rfl
  started _ _ _ _ _ := .of_none rfl
  stopped _ := .of_none rfl
  viewer _ _ := .of_none rfl
  error _ _ := .of_none rfl
  result _ := .of_none rfl
  list channel users husers := by
    refine ⟨fun _ _ => ServerMessage.noConfusion, fun role hrole => ?_⟩
    obtain ⟨user, hin, rfl⟩ := List.mem_map.mp hrole
    obtain ⟨other, heq⟩ := husers user hin
    rw [heq]
    exact h other
  joined user channel huser := by
    refine ⟨fun _ _ => ServerMessage.noConfusion, fun role hrole => ?_⟩
    obtain ⟨other, heq⟩ := huser
    rw [List.mem_singleton.mp hrole, heq]
    exact h other

theorem hasRole_congr {db db' : Database} (h : db'.users = db.users) (user : UserId) (role : Role) :
    db'.HasRole user role ↔ db.HasRole user role := by
  unfold Database.HasRole
  rw [h]

/-- Where nothing is announced, roles agree and nothing changed. -/
theorem announces_of_everyday {added : List (SessionId × ServerMessage)}
    (hsent : s'.sent = s.sent ++ added) (hadded : ∀ m ∈ added, m.2.Everyday)
    (hroles : ∀ user old role, s.db.HasRole user old → s'.db.HasRole user role → old = role) :
    Announces s s' := by
  intro user role
  rw [hsent, List.drop_left]
  constructor
  · rintro ⟨other, hin⟩
    exact absurd rfl ((hadded _ hin).1 user role)
  · rintro ⟨old, hold, hnew, hne⟩
    exact absurd (hroles user old role hold hnew) hne

theorem shown_append (h : s.RolesAgree) {added : List (SessionId × ServerMessage)}
    (hsent : s'.sent = s.sent ++ added) (hadded : ∀ m ∈ added, ∀ role ∈ m.2.roles, role.Defined) :
    ∀ m ∈ s'.sent, ∀ role ∈ m.2.roles, role.Defined := by
  intro m hm
  rw [hsent] at hm
  rcases List.mem_append.mp hm with hold | hnew
  · exact h.shown m hold
  · exact hadded m hnew

theorem RolesAgree.quiet (h : s.RolesAgree) (hdb : s.db.Sound)
    (hquiet : Quiet ServerMessage.Everyday s s') : s'.RolesAgree ∧ Announces s s' := by
  obtain ⟨added, hsent, hadded⟩ := hquiet.sent
  have hroles := hasRole_congr hquiet.users
  constructor
  · constructor
    · intro sid hin hauth
      obtain ⟨hauth', huser⟩ := hquiet.logins sid hauth
      rw [hroles, huser, hquiet.roles]
      exact h.live sid (hquiet.table hin) hauth'
    · intro user role hrole
      exact h.stored user role ((hroles user role).mp hrole)
    · intro sid
      rw [hquiet.roles]
      exact h.held sid
    · exact shown_append h hsent fun m hm => (hadded m hm).2
  · refine announces_of_everyday hsent hadded fun user old role hold hnew => ?_
    exact hdb.role_unique hold ((hroles user role).mp hnew)

/-- A connection brings a session that is not signed in. -/
theorem RolesAgree.connect (h : s.RolesAgree) (hdb : s.db.Sound) :
    s.onNewConnection.RolesAgree ∧ Announces s s.onNewConnection := by
  have hsessions : s.onNewConnection.sessions =
      Function.update s.sessions s.nextSessionId {} := rfl
  constructor
  · refine ⟨?_, h.stored, ?_, h.shown⟩
    · intro sid hin hauth
      by_cases hsid : sid = s.nextSessionId
      · rw [hsessions, hsid, Function.update_self] at hauth
        cases hauth
      · rw [hsessions, Function.update_of_ne hsid] at hauth ⊢
        rcases List.mem_append.mp hin with hold | hnew
        · exact h.live sid hold hauth
        · exact absurd (List.mem_singleton.mp hnew) hsid
    · intro sid
      by_cases hsid : sid = s.nextSessionId
      · rw [hsessions, hsid, Function.update_self]
        decide
      · rw [hsessions, Function.update_of_ne hsid]
        exact h.held sid
  · refine announces_of_everyday (List.append_nil _).symm (fun m hm => by cases hm) ?_
    exact fun user old role => hdb.role_unique

/-! ### Logins -/

/-- A login that is not accepted, or cannot be, changes no role. -/
theorem quiet_authIdentity {P : ServerMessage → Prop} (hP : Answered P s) {auth : AuthIdentity}
    {nowS : BitVec 64} {dbOk : Bool} (hin : sid ∈ s.sessionTable)
    (hrefused : s.AcceptsLogin sid auth nowS → s.loginUser auth dbOk = none) :
    Quiet P s (s.authIdentity sid auth nowS dbOk) := by
  have h := Quiet.refl P s
  unfold authIdentity
  split
  · exact h
  next hout =>
    split
    · exact h.sendTo _ (hP.error _ _)
    next hfresh =>
      have hpruned : Quiet P s (s.pruneRecentAuth nowS) := h.elsewhere rfl rfl rfl rfl
      dsimp only
      split
      · exact hpruned.sendTo _ (hP.error _ _)
      next hidentity =>
        have hnone := hrefused ⟨hin, Bool.eq_false_iff.mpr hout, hfresh, hidentity⟩
        unfold acceptIdentity
        dsimp only
        split
        · refine Quiet.sendTo ?_ _ (hP.error _ _)
          exact hpruned.elsewhere rfl rfl rfl rfl
        next user db hlogin =>
          exact absurd (hnone.symm.trans hlogin) (by simp)

/-- After `sid` signed in as `user`. -/
structure SignsIn (P : ServerMessage → Prop) (s : Server) (sid : SessionId) (user : UserRow)
    (db : Database) (s' : Server) : Prop where
  stored : s'.db = db
  table : s'.sessionTable = s.sessionTable
  role : (s'.sessions sid).role = user.role
  login : (s'.sessions sid).authenticated = true ∧ (s'.sessions sid).userId = user.id
  others : ∀ other, other ≠ sid → (s'.sessions other).role = (s.sessions other).role ∧
    ((s'.sessions other).authenticated = true → (s.sessions other).authenticated = true ∧
      (s'.sessions other).userId = (s.sessions other).userId)
  sent : ∃ added, s'.sent = s.sent ++ added ∧ ∀ m ∈ added, P m.2

/-- What is signed in on. -/
theorem acceptIdentity_some (sid : SessionId) {auth : AuthIdentity} {dbOk : Bool} {user : UserRow} {db : Database}
    (hlogin : s.loginUser auth dbOk = some (user, db)) :
    ∃ stored : Server, s.acceptIdentity sid auth dbOk =
        (stored.kickDuplicates sid auth.publicKey).signIn sid auth user ∧
      stored.db = db ∧ stored.sessions = s.sessions ∧ stored.sessionTable = s.sessionTable ∧
      stored.sent = s.sent := by
  unfold acceptIdentity
  dsimp only
  split
  next hnone =>
    exact absurd (hlogin.symm.trans hnone) (by simp)
  next user' db' hlogin' =>
    obtain ⟨rfl, rfl⟩ := Prod.mk.inj (Option.some.inj (hlogin.symm.trans hlogin'))
    exact ⟨_, rfl, rfl, rfl, rfl, rfl⟩

theorem signsIn_authIdentity {P : ServerMessage → Prop} (hP : Answered P s) {auth : AuthIdentity}
    {nowS : BitVec 64} {dbOk : Bool} {user : UserRow} {db : Database}
    (haccepts : s.AcceptsLogin sid auth nowS) (hlogin : s.loginUser auth dbOk = some (user, db))
    (hresponse : P (.authResponse user.id user.role)) :
    SignsIn P s sid user db (s.authIdentity sid auth nowS dbOk) := by
  obtain ⟨hin, hout, hfresh, hidentity⟩ := haccepts
  obtain ⟨stored, haccept, hdb, hsessions, htable, hsent⟩ :=
    acceptIdentity_some (s := s.pruneRecentAuth nowS) sid hlogin
  have hresult : s.authIdentity sid auth nowS dbOk =
      (stored.kickDuplicates sid auth.publicKey).signIn sid auth user := by
    rw [authIdentity, if_neg (by rw [hout]; decide), hfresh]
    dsimp only
    rw [hidentity]
    exact haccept
  obtain ⟨_, htable', hdb', _, _, _⟩ := kickDuplicates_loop (o := {}) (s := stored) sid
    auth.publicKey stored.sessionTable fun _ => id
  have hquiet := (Quiet.refl P stored).kickDuplicates hP.toAnnounced hP.error sid auth.publicKey
  have hafter : ((stored.kickDuplicates sid auth.publicKey).signIn sid auth user).sessions =
      Function.update (stored.kickDuplicates sid auth.publicKey).sessions sid
        { (stored.kickDuplicates sid auth.publicKey).sessions sid with
          authenticated := true
          userId := user.id
          username := user.displayName
          role := user.role
          publicKey := auth.publicKey
          protocolVersion := auth.version } := rfl
  rw [hresult]
  constructor
  · exact Eq.trans hdb' hdb
  · exact Eq.trans htable' htable
  · rw [hafter, Function.update_self]
  · rw [hafter, Function.update_self]
    exact ⟨rfl, rfl⟩
  · intro other hne
    have hbefore : stored.sessions other = s.sessions other := congrFun hsessions other
    rw [hafter, Function.update_of_ne hne, ← hbefore]
    exact ⟨hquiet.roles other, hquiet.logins other⟩
  · obtain ⟨added, hadded, hmeets⟩ := hquiet.sent
    have hbefore : stored.sent = s.sent := hsent
    refine ⟨added ++ [(sid, .authResponse user.id user.role)], ?_, fun m hm => ?_⟩
    · rw [← List.append_assoc, ← hbefore, ← hadded]
      rfl
    · rcases List.mem_append.mp hm with hold | hnew
      · exact hmeets m hold
      · rw [List.mem_singleton.mp hnew]
        exact hresponse

/-- What a login stores: a new user, or a user that is there. -/
theorem loginUser_cases (hdb : s.db.Sound) {auth : AuthIdentity} {dbOk : Bool} {user : UserRow}
    {db : Database} (hlogin : s.loginUser auth dbOk = some (user, db)) :
    (s.db.getUserByPubkey auth.publicKey = none ∧ user.role.Defined ∧
      (∀ old, ¬ s.db.HasRole user.id old) ∧ ∀ other role, db.HasRole other role ↔
        s.db.HasRole other role ∨ other = user.id ∧ role = user.role) ∨
    ∃ row ∈ s.db.users, s.db.getUserByPubkey auth.publicKey = some row ∧ user.id = row.id ∧
      user.role = (if s.config.publicKeyFingerprint auth.publicKey ∈ s.config.rootFingerprints
        then Role.OWNER else row.role) ∧
      db = if dbOk then s.db.updateUser row.id fun _ => user else s.db := by
  unfold loginUser at hlogin
  dsimp only at hlogin
  cases hfind : s.db.getUserByPubkey auth.publicKey with
  | none =>
      left
      rw [hfind] at hlogin
      dsimp only at hlogin
      split at hlogin
      · cases hlogin
      · obtain ⟨created, hcreate, hlogin⟩ := Option.bind_eq_some_iff.mp hlogin
        obtain ⟨row, hrow, hlogin⟩ := Option.bind_eq_some_iff.mp hlogin
        obtain ⟨rfl, rfl⟩ := Prod.mk.inj (Option.some.inj hlogin)
        unfold Database.createUser at hcreate
        split at hcreate
        · cases hcreate
        next hroom =>
          obtain rfl := Option.some.inj hcreate
          rw [Database.getUserByPubkey, List.find?_append] at hrow
          rw [Database.getUserByPubkey] at hfind
          rw [hfind, Option.none_or, List.find?_singleton, if_pos (decide_eq_true rfl)] at hrow
          obtain rfl := Option.some.inj hrow
          refine ⟨rfl, ?_, ?_, fun other role => ?_⟩
          · dsimp only
            split <;> decide
          · rintro old ⟨row, hrow, hid, _⟩
            have hle := (hdb.ids row hrow).2
            rw [hid, BitVec.toNat_ofNat] at hle
            omega
          · simp [Database.HasRole, or_and_right, exists_or, eq_comm]
  | some row =>
      right
      rw [hfind] at hlogin
      obtain ⟨rfl, rfl⟩ := Prod.mk.inj (Option.some.inj hlogin)
      exact ⟨row, (Database.getUserByPubkey_mem hfind).1, rfl, rfl, rfl, rfl⟩

theorem RolesAgree.signsIn (h : s.RolesAgree) {user : UserRow} {db : Database}
    (hsigns : SignsIn ServerMessage.Everyday s sid user db s')
    (hstored : db.HasRole user.id user.role)
    (hkept : ∀ other role, s.db.HasRole other role → db.HasRole other role)
    (hdefined : ∀ other role, db.HasRole other role → role.Defined) : s'.RolesAgree := by
  obtain ⟨added, hsent, hadded⟩ := hsigns.sent
  constructor
  · intro other hin hauth
    rw [hsigns.stored]
    by_cases hsid : other = sid
    · rw [hsid, hsigns.login.2, hsigns.role]
      exact hstored
    · obtain ⟨hrole, hbefore⟩ := hsigns.others other hsid
      obtain ⟨hauth', huser⟩ := hbefore hauth
      rw [huser, hrole]
      exact hkept _ _ (h.live other (hsigns.table ▸ hin) hauth')
  · rw [hsigns.stored]
    exact hdefined
  · intro other
    by_cases hsid : other = sid
    · rw [hsid, hsigns.role]
      exact hdefined _ _ hstored
    · rw [(hsigns.others other hsid).1]
      exact h.held other
  · exact shown_append h hsent fun m hm => (hadded m hm).2

theorem everyday_authResponse {user : UserRow} (hdefined : user.role.Defined) :
    ServerMessage.Everyday (.authResponse user.id user.role) := by
  refine ⟨fun _ _ => ServerMessage.noConfusion, fun role hin => ?_⟩
  rw [List.mem_singleton.mp hin]
  exact hdefined

/-- A login that changes no stored role, and at most adds a user, is in order. -/
theorem agree_login_of_stored (hdb : s.db.Sound) (h : s.RolesAgree) {user : UserRow}
    {db : Database} (hsigns : SignsIn ServerMessage.Everyday s sid user db s')
    (hdefined : user.role.Defined) (hroles : ∀ other role, db.HasRole other role ↔
      s.db.HasRole other role ∨ other = user.id ∧ role = user.role)
    (hbefore : ∀ old, s.db.HasRole user.id old → old = user.role) :
    s'.RolesAgree ∧ Announces s s' := by
  obtain ⟨added, hsent, hadded⟩ := hsigns.sent
  constructor
  · refine h.signsIn hsigns ((hroles _ _).mpr (Or.inr ⟨rfl, rfl⟩))
      (fun _ _ hold => (hroles _ _).mpr (Or.inl hold)) fun other role hnew => ?_
    rcases (hroles _ _).mp hnew with hold | ⟨_, rfl⟩
    · exact h.stored other role hold
    · exact hdefined
  · refine announces_of_everyday hsent hadded fun other old role hold hnew => ?_
    rw [hsigns.stored] at hnew
    rcases (hroles _ _).mp hnew with hsame | ⟨rfl, rfl⟩
    · exact hdb.role_unique hold hsame
    · exact hbefore old hold

/-- A login that promotes a stored user is not: either the stored role changes, and nothing
says so, or the session has a role that is not stored. -/
theorem not_agree_login_of_promoted (hdb : s.db.Sound) {user row : UserRow} {dbOk : Bool}
    {db : Database} (hsigns : SignsIn ServerMessage.Everyday s sid user db s')
    (htable : sid ∈ s.sessionTable) (hin : row ∈ s.db.users) (hid : user.id = row.id)
    (hdb' : db = if dbOk then s.db.updateUser row.id fun _ => user else s.db)
    (hne : user.role ≠ row.role) (hagree : s'.RolesAgree) : ¬ Announces s s' := by
  intro hannounces
  obtain ⟨added, hsent, hadded⟩ := hsigns.sent
  have hrow : s.db.HasRole user.id row.role := ⟨row, hin, hid.symm, rfl⟩
  cases hok : dbOk with
  | true =>
      have hstored : s'.db.HasRole user.id user.role := by
        rw [hsigns.stored, hdb', hok]
        refine ⟨user, List.mem_map.mpr ⟨row, hin, ?_⟩, rfl, rfl⟩
        rw [if_pos rfl]
      obtain ⟨other, hmessage⟩ :=
        (hannounces user.id user.role).mpr ⟨_, hrow, hstored, hne.symm⟩
      rw [hsent, List.drop_left] at hmessage
      exact absurd rfl ((hadded _ hmessage).1 user.id user.role)
  | false =>
      have hlive := hagree.live sid (hsigns.table.symm ▸ htable) hsigns.login.1
      rw [hsigns.login.2, hsigns.role, hsigns.stored, hdb', hok] at hlive
      exact hne (hdb.role_unique hlive hrow)

/-- An accepted login is in order exactly if it promotes nobody. -/
theorem agree_login_iff (hdb : s.db.Sound) (h : s.RolesAgree) {auth : AuthIdentity}
    {nowS : BitVec 64} {dbOk : Bool} {user : UserRow} {db : Database}
    (haccepts : s.AcceptsLogin sid auth nowS) (hlogin : s.loginUser auth dbOk = some (user, db)) :
    (s.authIdentity sid auth nowS dbOk).RolesAgree ∧
        Announces s (s.authIdentity sid auth nowS dbOk) ↔
      (s.config.publicKeyFingerprint auth.publicKey ∈ s.config.rootFingerprints →
        ∀ row, s.db.getUserByPubkey auth.publicKey = some row → row.role = Role.OWNER) := by
  have hanswered := answered_everyday h.held
  rcases loginUser_cases hdb hlogin with ⟨hnone, hdefined, hfresh, hroles⟩ |
    ⟨row, hin, hfind, hid, hrole, hdb'⟩
  · have hsigns := signsIn_authIdentity hanswered haccepts hlogin (everyday_authResponse hdefined)
    refine iff_of_true ?_ fun _ row hrow => ?_
    · exact agree_login_of_stored hdb h hsigns hdefined hroles fun old hold =>
        absurd hold (hfresh old)
    · rw [hnone] at hrow
      cases hrow
  · have hrow : s.db.HasRole user.id row.role := ⟨row, hin, hid.symm, rfl⟩
    have hdefined : user.role.Defined := by
      rw [hrole]
      split
      · decide
      · exact h.stored _ _ hrow
    have hsigns := signsIn_authIdentity hanswered haccepts hlogin (everyday_authResponse hdefined)
    constructor
    · rintro ⟨hagree, hannounces⟩ hroot row' hrow'
      obtain rfl := Option.some.inj (hfind.symm.trans hrow')
      rw [if_pos hroot] at hrole
      by_contra hne
      refine not_agree_login_of_promoted hdb hsigns haccepts.1 hin hid hdb' ?_ hagree hannounces
      rw [hrole]
      exact fun heq => hne heq.symm
    · intro hcondition
      have hsame : user.role = row.role := by
        rw [hrole]
        split
        next hroot =>
          exact (hcondition hroot row hfind).symm
        · rfl
      refine agree_login_of_stored hdb h hsigns hdefined (fun other role => ?_) fun old hold => ?_
      · have hstored : db.HasRole other role ↔ s.db.HasRole other role := by
          rw [hdb']
          split
          · refine Database.hasRole_updateUser fun row' hrow' hid' => ?_
            obtain rfl := hdb.eq_of_id hrow' hin hid'
            exact ⟨hid, hsame⟩
          · exact Iff.rfl
        rw [hstored]
        refine ⟨Or.inl, fun hor => ?_⟩
        rcases hor with hold | ⟨rfl, rfl⟩
        · exact hold
        · rw [hsame]
          exact hrow
      · rw [hsame]
        exact hdb.role_unique hold hrow

/-! ### `ADMIN_SET_ROLE` -/

/-- What an accepted request does. -/
theorem adminSetRole_of_ok {target : UserId} {newRole : Role}
    (hauth : (s.sessions sid).authenticated = true)
    (hmay : hasPermission (s.sessions sid).role Permissions.MANAGE_ROLES none = true)
    (hcheck : s.checkSetRole (s.sessions sid).role target newRole = .ok ()) (dbOk : Bool) :
    s.adminSetRole sid target newRole dbOk =
      (((if dbOk then { s with db := s.db.setUserRole target newRole } else s).setLiveRole target
        newRole).sendToAll (fun _ session => session.authenticated)
          (.userRoleChanged target newRole)).sendTo sid (.adminResult "Role updated") := by
  rw [adminSetRole, hauth, hmay]
  dsimp only
  rw [hcheck]
  rfl

theorem quiet_adminSetRole {P : ServerMessage → Prop} (hP : Answered P s) {target : UserId}
    {newRole : Role} (hin : sid ∈ s.sessionTable) (hrefused : ¬ s.AcceptsSetRole sid target newRole)
    (dbOk : Bool) : Quiet P s (s.adminSetRole sid target newRole dbOk) := by
  have h := Quiet.refl P s
  unfold adminSetRole
  dsimp only
  split
  · exact h
  next hauth =>
    split
    · exact h.sendTo _ (hP.error _ _)
    next hmay =>
      split
      · exact h.sendTo _ (hP.error _ _)
      next hcheck =>
        exact absurd ⟨hin, by simpa using hauth, by simpa using hmay, hcheck⟩ hrefused

/-- The announcement of a new role, and the answer. -/
theorem sent_adminSetRole {target : UserId} {newRole : Role}
    (haccepts : s.AcceptsSetRole sid target newRole) (dbOk : Bool) :
    ∃ added, (s.adminSetRole sid target newRole dbOk).sent = s.sent ++ added ∧
      (∀ user role, (∃ other, (other, .userRoleChanged user role) ∈ added) ↔
        user = target ∧ role = newRole) ∧
      ∀ m ∈ added, ∀ role ∈ m.2.roles, role = newRole := by
  obtain ⟨hin, hauth, hmay, hcheck⟩ := haccepts
  have hsessions : ∀ (t : Server), t.sessions = s.sessions → t.sessionTable = s.sessionTable →
      ((t.setLiveRole target newRole).sessions sid).authenticated = true := by
    intro t hsame htable
    unfold setLiveRole modifySessions
    dsimp only
    rw [htable, if_pos hin, hsame]
    split <;> exact hauth
  obtain ⟨t, ht⟩ : ∃ t, t = if dbOk then { s with db := s.db.setUserRole target newRole } else s :=
    ⟨_, rfl⟩
  have hsame : t.sessions = s.sessions ∧ t.sessionTable = s.sessionTable ∧ t.sent = s.sent := by
    rw [ht]
    split <;> exact ⟨rfl, rfl, rfl⟩
  obtain ⟨hsessions', htable, hsent⟩ := hsame
  rw [adminSetRole_of_ok hauth hmay hcheck, ← ht]
  refine ⟨_, (congrArg₂ (· ++ ·) (congrArg₂ (· ++ ·) hsent rfl) rfl).trans
    (List.append_assoc _ _ _), fun user role => ?_, ?_⟩
  · constructor
    · rintro ⟨other, hmessage⟩
      rcases List.mem_append.mp hmessage with hall | hanswer
      · obtain ⟨other', _, heq⟩ := List.mem_map.mp hall
        cases heq
        exact ⟨rfl, rfl⟩
      · cases List.mem_singleton.mp hanswer
    · rintro ⟨rfl, rfl⟩
      refine ⟨sid, List.mem_append_left _ (List.mem_map.mpr ⟨sid, ?_, rfl⟩)⟩
      exact List.mem_filter.mpr ⟨htable.symm ▸ hin, hsessions t hsessions' htable⟩
  · intro m hm role hrole
    rcases List.mem_append.mp hm with hall | hanswer
    · obtain ⟨other, _, rfl⟩ := List.mem_map.mp hall
      exact List.mem_singleton.mp hrole
    · rw [List.mem_singleton.mp hanswer] at hrole
      cases hrole

theorem registry_adminSetRole_of_accepts {target : UserId} {newRole : Role}
    (haccepts : s.AcceptsSetRole sid target newRole) (dbOk : Bool) :
    (s.adminSetRole sid target newRole dbOk).registry = s.registry.setRole target newRole dbOk :=
  (registry_adminSetRole haccepts.1 target newRole dbOk).trans (if_pos haccepts)

/-- The roles that are stored after a change that was written. -/
theorem hasRole_adminSetRole {target : UserId} {newRole : Role}
    (haccepts : s.AcceptsSetRole sid target newRole) (user : UserId) (role : Role) :
    (s.adminSetRole sid target newRole true).db.HasRole user role ↔
      if user = target then role = newRole else s.db.HasRole user role := by
  have hstored : (s.adminSetRole sid target newRole true).db = s.db.setUserRole target newRole :=
    congrArg Registry.db (registry_adminSetRole_of_accepts haccepts true)
  obtain ⟨_, _, row, hrow, _⟩ := setRole_of_checkSetRole haccepts.2.2.2
  rw [hstored]
  exact Database.hasRole_setUserRole (Database.hasRole_of_getUserById hrow)

/-- A written change to a defined role keeps the agreement. -/
theorem RolesAgree.setRole (h : s.RolesAgree) {target : UserId} {newRole : Role}
    (haccepts : s.AcceptsSetRole sid target newRole) (hdefined : newRole.Defined) :
    (s.adminSetRole sid target newRole true).RolesAgree := by
  obtain ⟨added, hsent, _, hshown⟩ := sent_adminSetRole haccepts true
  have hregistry := registry_adminSetRole_of_accepts haccepts true
  obtain ⟨_, _, row, hrow, _⟩ := setRole_of_checkSetRole haccepts.2.2.2
  constructor
  · have hbefore : s.registry.LiveRoles := h.live
    have hlive : (s.adminSetRole sid target newRole true).registry.LiveRoles := by
      rw [hregistry]
      exact hbefore.setRole (Database.hasRole_of_getUserById hrow)
    exact hlive
  · intro user role hrole
    rw [hasRole_adminSetRole haccepts] at hrole
    split at hrole
    · rw [hrole]
      exact hdefined
    · exact h.stored user role hrole
  · intro other
    have hmember : ((s.adminSetRole sid target newRole true).sessions other).role =
        ((s.registry.setRole target newRole true).members other).role :=
      congrArg (fun r => (r.members other).role) hregistry
    rw [hmember]
    unfold Registry.setRole
    dsimp only
    split
    · exact hdefined
    · exact h.held other
  · refine shown_append h hsent fun m hm role hrole => ?_
    rw [hshown m hm role hrole]
    exact hdefined

/-- An accepted change of a role is in order exactly if the role is defined, differs from the
stored one and is written. -/
theorem agree_setRole_iff (hr : s.registry.InOrder) (h : s.RolesAgree) {target : UserId}
    {newRole : Role} {dbOk : Bool} (haccepts : s.AcceptsSetRole sid target newRole) :
    (s.adminSetRole sid target newRole dbOk).RolesAgree ∧
        Announces s (s.adminSetRole sid target newRole dbOk) ↔
      newRole.Defined ∧ ¬ s.db.HasRole target newRole ∧ dbOk = true := by
  have hdb := hr.consistent.db
  obtain ⟨added, hsent, hannounced, _⟩ := sent_adminSetRole haccepts dbOk
  constructor
  · rintro ⟨hagree, hannounces⟩
    obtain ⟨other, hmessage⟩ := (hannounced target newRole).mpr ⟨rfl, rfl⟩
    have hchange : ∃ old, s.db.HasRole target old ∧
        (s.adminSetRole sid target newRole dbOk).db.HasRole target newRole ∧ old ≠ newRole := by
      refine (hannounces target newRole).mp ⟨other, ?_⟩
      rw [hsent, List.drop_left]
      exact hmessage
    obtain ⟨old, hbefore, hafter, hne⟩ := hchange
    have hdiffers : ¬ s.db.HasRole target newRole := fun hsame =>
      hne (hdb.role_unique hbefore hsame)
    refine ⟨hagree.stored target newRole hafter, hdiffers, ?_⟩
    cases hok : dbOk with
    | true => rfl
    | false =>
        have hstored : (s.adminSetRole sid target newRole dbOk).db = s.db := by
          have hregistry := registry_adminSetRole_of_accepts haccepts dbOk
          rw [hok] at hregistry ⊢
          exact congrArg Registry.db hregistry
        rw [hstored] at hafter
        exact absurd hafter hdiffers
  · rintro ⟨hdefined, hdiffers, rfl⟩
    refine ⟨h.setRole haccepts hdefined, fun user role => ?_⟩
    obtain ⟨_, _, row, hrow, _⟩ := setRole_of_checkSetRole haccepts.2.2.2
    have hold := Database.hasRole_of_getUserById hrow
    rw [hsent, List.drop_left, hannounced]
    constructor
    · rintro ⟨rfl, rfl⟩
      refine ⟨row.role, hold, ?_, ?_⟩
      · rw [hasRole_adminSetRole haccepts, if_pos rfl]
      · rintro rfl
        exact hdiffers hold
    · rintro ⟨old, hbefore, hafter, hne⟩
      rw [hasRole_adminSetRole haccepts] at hafter
      split at hafter
      next huser =>
        exact ⟨huser, hafter⟩
      · exact absurd (hdb.role_unique hbefore hafter) hne

/-! ### Steps and runs -/

/-- The steps of the video path send nothing and leave the registry alone. -/
theorem quiet_step (h : ∀ sid, (s.sessions sid).role.Defined) {op : ServerOp}
    (hconnect : op ≠ .connect)
    (hmessage : ∀ sid message, op = .message sid message → ControlMessage.KeepsRoles message) :
    Quiet ServerMessage.Everyday s (s.step op) := by
  have hanswered := answered_everyday h
  have hq := Quiet.refl ServerMessage.Everyday s
  cases op with
  | connect => exact absurd rfl hconnect
  | message sid message => exact quiet_handleMessage hanswered sid (hmessage sid message rfl)
  | shutdownComplete sid => exact hq.onShutdownComplete sid
  | videoFrame sid source frame =>
      exact hq.offRegistry (registry_enqueueVideoFrame ..) (sent_enqueueVideoFrame ..)
  | videoFrameStarted sid source hdr =>
      exact hq.offRegistry (registry_enqueueVideoEvent ..) (sent_enqueueVideoEvent ..)
  | videoFrameAborted sid source frameSeq =>
      exact hq.offRegistry (registry_enqueueVideoEvent ..) (sent_enqueueVideoEvent ..)
  | videoOutShutdown sid handle => exact hq.offRegistry (registry_videoOutShutdown ..) rfl
  | videoControl sid target bucketAllows =>
      exact hq.offRegistry (registry_handleVideoControl ..) (sent_handleVideoControl ..)
  | processVideoFrame => exact hq.offRegistry (registry_processVideoFrame ..) sent_processVideoFrame
  | beginPass => exact hq.offRegistry rfl rfl
  | pollIngress stream => exact hq.offRegistry (registry_pollIngress ..) (sent_pollIngress stream)
  | sendDeferred stream =>
      exact hq.offRegistry (registry_sendDeferredKeyframeRequest ..)
        (sent_sendDeferredKeyframeRequest stream)
  | processDisconnect => exact hq.processDisconnects hanswered.toAnnounced

theorem step_message_of_not_mem (hin : sid ∉ s.sessionTable) (message : ControlMessage) :
    s.step (.message sid message) = s := by
  simp only [step, handleMessage, getSession, if_neg hin]

/-- What one step does to roles that agree. -/
theorem roles_step_iff (hr : s.registry.InOrder) (h : s.RolesAgree) (op : ServerOp) :
    (s.step op).RolesAgree ∧ Announces s (s.step op) ↔ s.RolesRight op := by
  have hdb := hr.consistent.db
  have hquiet : ∀ s', Quiet ServerMessage.Everyday s s' → s'.RolesAgree ∧ Announces s s' :=
    fun s' => h.quiet hdb
  have hanswered := answered_everyday h.held
  by_cases hconnect : op = .connect
  · subst hconnect
    exact iff_of_true (h.connect hdb) trivial
  · by_cases hkeeps : ∀ sid message, op = .message sid message → ControlMessage.KeepsRoles message
    · refine iff_of_true (hquiet _ (quiet_step h.held hconnect hkeeps)) ?_
      unfold RolesRight
      split
      · exact (hkeeps _ _ rfl).elim
      · exact (hkeeps _ _ rfl).elim
      · trivial
    · push Not at hkeeps
      obtain ⟨sid, message, rfl, hrole⟩ := hkeeps
      by_cases hin : sid ∈ s.sessionTable
      · cases message with
        | authIdentity auth nowS dbOk =>
            rw [show s.step (.message sid (.authIdentity auth nowS dbOk)) =
              s.authIdentity sid auth nowS dbOk by
                simp only [step, handleMessage, getSession, if_pos hin]]
            by_cases haccepts : s.AcceptsLogin sid auth nowS
            · cases hlogin : s.loginUser auth dbOk with
              | none =>
                  refine iff_of_true (hquiet _ (quiet_authIdentity hanswered hin fun _ => hlogin)) ?_
                  intro _ _ row hrow
                  unfold loginUser at hlogin
                  rw [hrow] at hlogin
                  cases hlogin
              | some outcome =>
                  refine (agree_login_iff hdb h haccepts hlogin).trans ?_
                  exact ⟨fun hcondition _ => hcondition, fun hcondition => hcondition haccepts⟩
            · refine iff_of_true (hquiet _ (quiet_authIdentity hanswered hin ?_)) ?_
              · exact fun hyes => absurd hyes haccepts
              · exact fun hyes => absurd hyes haccepts
        | adminSetRole target newRole dbOk =>
            rw [show s.step (.message sid (.adminSetRole target newRole dbOk)) =
              s.adminSetRole sid target newRole dbOk by
                simp only [step, handleMessage, getSession, if_pos hin]]
            by_cases haccepts : s.AcceptsSetRole sid target newRole
            · refine (agree_setRole_iff hr h haccepts).trans ?_
              exact ⟨fun hcondition _ => hcondition, fun hcondition => hcondition haccepts⟩
            · refine iff_of_true (hquiet _ (quiet_adminSetRole hanswered hin haccepts dbOk)) ?_
              exact fun hyes => absurd hyes haccepts
        | _ => exact absurd trivial hrole
      · rw [step_message_of_not_mem hin]
        refine iff_of_true (hquiet s (Quiet.refl _ s)) ?_
        unfold RolesRight
        split
        next heq =>
          cases heq
          exact fun haccepts => absurd haccepts.1 hin
        next heq =>
          cases heq
          exact fun haccepts => absurd haccepts.1 hin
        · trivial

theorem rolesAgree_restart (config : Config) (env : Environment) (table : UserTable) :
    (restart config env table.db).RolesAgree where
  live := fun _ hin => by cases hin
  stored := table.defined
  held := fun _ => show Role.Defined Role.USER by decide
  shown := fun _ hm => by cases hm

/-- In a run of a server on any table of users with defined roles, the roles agree after
every step and the changes are announced, if and only if every step meets the condition. -/
theorem roles_agree_iff (config : Config) (env : Environment) (table : UserTable)
    (ops : List ServerOp) :
    Machine.AllSteps step (fun s op => (s.step op).RolesAgree ∧ Announces s (s.step op))
        (restart config env table.db) ops ↔
      Machine.AllSteps step RolesRight (restart config env table.db) ops := by
  have hstep : ∀ (s : Server) op, s.registry.InOrder ∧ s.RolesAgree →
      (s.step op).RolesAgree ∧ Announces s (s.step op) →
      (s.step op).registry.InOrder ∧ (s.step op).RolesAgree :=
    fun s op h hgood => ⟨inOrder_step h.1 op, hgood.1⟩
  exact Machine.allSteps_iff hstep (fun s op h => roles_step_iff h.1 h.2 op)
    ⟨inOrder_restart config env table.sound, rolesAgree_restart config env table⟩

def emptyTable : UserTable where
  db := {}
  sound := sound_empty
  defined := fun _ _ hrole => by
    obtain ⟨_, hrow, _⟩ := hrole
    cases hrow

/-- The root makes the second user an admin, and the write fails: their session has the role
and the database has not. -/
theorem not_roles_agree : ¬ ∀ (config : Config) (env : Environment) (table : UserTable)
    (ops : List ServerOp), Machine.AllSteps step (fun s op => (s.step op).RolesAgree ∧
      Announces s (s.step op)) (restart config env table.db) ops := by
  intro hall
  have hsteps := hall .small (.ticking 1) emptyTable
    ([.connect, .connect, login 1 0 1, login 2 1 1] ++ [.message 1 (.adminSetRole 2 1 false)])
  have hlive := (Machine.allSteps_append.mp hsteps).2.1.1.live
  revert hlive
  decide +kernel

end Server

end Parties

import Parties.Server.RegistryRuns

/-!
# The hierarchy of roles

A smaller number is a stronger role. Roles change where a root fingerprint logs in and
where a session that may manage roles sets one; then it must be stronger than both the
role it takes away and the role it gives, the owner apart. So nobody is raised to the
level of those who could raise them: apart from the owner only admins may manage roles,
and an admin gives weaker roles than its own.
-/

namespace Parties

/-! ### Stored roles -/

namespace Database

/-- The stored role of a user. -/
def HasRole (db : Database) (user : UserId) (role : Role) : Prop :=
  ∃ row ∈ db.users, row.id = user ∧ row.role = role

instance (db : Database) (user : UserId) (role : Role) : Decidable (db.HasRole user role) :=
  inferInstanceAs (Decidable (∃ row ∈ db.users, _))

variable {db db' : Database} {user target : UserId} {role role' : Role}

theorem Sound.role_unique (h : db.Sound) (hrole : db.HasRole user role)
    (hrole' : db.HasRole user role') : role = role' := by
  obtain ⟨row, hrow, hid, rfl⟩ := hrole
  obtain ⟨row', hrow', hid', rfl⟩ := hrole'
  rw [h.eq_of_id hrow hrow' (hid.trans hid'.symm)]

theorem hasRole_of_getUserById {row : UserRow} (h : db.getUserById user = some row) :
    db.HasRole user row.role :=
  ⟨row, List.mem_of_find?_eq_some h, by simpa using List.find?_some h, rfl⟩

/-- A new user has the role it is created with. -/
theorem Sound.hasRole_createUser (h : db.Sound) {key : PublicKey} {displayName : String}
    (hcreate : db.createUser key displayName role = some db') :
    ∃ user, (∀ old, ¬ db.HasRole user old) ∧ ∀ other role',
      db'.HasRole other role' ↔ db.HasRole other role' ∨ other = user ∧ role' = role := by
  unfold Database.createUser at hcreate
  split at hcreate
  · cases hcreate
  next hroom =>
    obtain rfl := Option.some.inj hcreate
    refine ⟨BitVec.ofNat 32 (db.lastUserId + 1), ?_, ?_⟩
    · rintro old ⟨row, hrow, hid, _⟩
      have hle := (h.ids row hrow).2
      rw [hid, BitVec.toNat_ofNat] at hle
      omega
    · intro other role'
      simp [HasRole, or_and_right, exists_or, eq_comm]

/-- A change of rows that leaves ids and roles alone. -/
theorem hasRole_updateUser {f : UserRow → UserRow}
    (hf : ∀ row ∈ db.users, row.id = target → (f row).id = row.id ∧ (f row).role = row.role) :
    (db.updateUser target f).HasRole user role ↔ db.HasRole user role := by
  have hsame : ∀ row ∈ db.users, (if row.id = target then f row else row).id = row.id ∧
      (if row.id = target then f row else row).role = row.role := by
    intro row hrow
    split
    next hid =>
      exact hf row hrow hid
    · exact ⟨rfl, rfl⟩
  constructor
  · rintro ⟨row', hrow', hid, hrole⟩
    obtain ⟨row, hrow, rfl⟩ := List.mem_map.mp hrow'
    obtain ⟨hid', hrole'⟩ := hsame row hrow
    exact ⟨row, hrow, hid'.symm.trans hid, hrole'.symm.trans hrole⟩
  · rintro ⟨row, hrow, hid, hrole⟩
    obtain ⟨hid', hrole'⟩ := hsame row hrow
    exact ⟨_, List.mem_map_of_mem hrow, hid'.trans hid, hrole'.trans hrole⟩

theorem hasRole_setUserRole {old : Role} (hold : db.HasRole target old) :
    (db.setUserRole target role).HasRole user role' ↔
      if user = target then role' = role else db.HasRole user role' := by
  unfold setUserRole updateUser HasRole
  simp only [List.mem_map, exists_exists_and_eq_and]
  split
  next huser =>
    subst huser
    constructor
    · rintro ⟨row, hrow, hid, hrole⟩
      split at hid
      next hthis =>
        rw [if_pos hthis] at hrole
        exact hrole.symm
      next hother =>
        exact absurd hid hother
    · rintro rfl
      obtain ⟨row, hrow, hid, _⟩ := hold
      refine ⟨row, hrow, ?_⟩
      rw [if_pos hid]
      exact ⟨hid, rfl⟩
  next hne =>
    constructor
    · rintro ⟨row, hrow, hid, hrole⟩
      split at hid
      next hthis =>
        exact absurd (hid.symm.trans hthis) hne
      next hother =>
        rw [if_neg hother] at hrole
        exact ⟨row, hrow, hid, hrole⟩
    · rintro ⟨row, hrow, hid, hrole⟩
      refine ⟨row, hrow, ?_⟩
      rw [if_neg (hid ▸ hne)]
      exact ⟨hid, hrole⟩

end Database

/-! ### Moves -/

namespace Registry

/-- The role of every live session is the stored one. -/
def LiveRoles (r : Registry) : Prop :=
  ∀ sid ∈ r.table, (r.members sid).authenticated = true →
    r.db.HasRole (r.members sid).userId (r.members sid).role

variable {o : Occasion} {r r' : Registry} {sid : SessionId}

/-- What a move does to the stored roles when no root logs in. -/
inductive RoleStep (o : Occasion) (r r' : Registry) : Prop
  | kept (hsame : ∀ user role, r'.db.HasRole user role ↔ r.db.HasRole user role)
  | registered (user : UserId) (hnew : ∀ old, ¬ r.db.HasRole user old)
      (hroles : ∀ other role, r'.db.HasRole other role ↔
        r.db.HasRole other role ∨ other = user ∧ role = Role.USER)
  | changed (sid : SessionId) (target : UserId) (newRole old : Role) (hin : sid ∈ r.table)
      (hauth : (r.members sid).authenticated = true)
      (hmay : hasPermission (r.members sid).role Permissions.MANAGE_ROLES none = true)
      (hnot : newRole ≠ Role.OWNER)
      (hbelow : (r.members sid).role ≠ Role.OWNER → (r.members sid).role < newRole)
      (hold : r.db.HasRole target old) (hover : (r.members sid).role < old)
      (howner : o.owner = false → (r.members sid).role ≠ Role.OWNER)
      (hroles : ∀ user role, r'.db.HasRole user role ↔
        if user = target then role = newRole else r.db.HasRole user role)

theorem Move.roleStep (hmove : Move o r r') (hr : r.InOrder) (hroot : o.root = false)
    (hdb : o.dbOk = true) : RoleStep o r r' := by
  cases hmove with
  | register key displayName role db hnew hcreate hrole =>
      obtain ⟨user, hfresh, hroles⟩ := hr.consistent.db.hasRole_createUser hcreate
      rw [hrole hroot] at hroles
      exact .registered user hfresh hroles
  | restore row user hrow hid hkey hrole =>
      apply RoleStep.kept
      intro other role
      apply Database.hasRole_updateUser
      intro row' hrow' hid'
      obtain rfl := hr.consistent.db.eq_of_id hrow' hrow (hid'.trans hid)
      exact ⟨hid, hrole hroot⟩
  | setRole sid target newRole user hin hauth hmay hnot hbelow huser hover howner =>
      have hold := Database.hasRole_of_getUserById huser
      refine .changed sid target newRole user.role hin hauth hmay hnot hbelow hold
        (of_decide_eq_true hover) howner fun other role => ?_
      have hwritten : (r.setRole target newRole o.dbOk).db = r.db.setUserRole target newRole := by
        rw [hdb]
        rfl
      rw [hwritten]
      exact Database.hasRole_setUserRole hold
  | replace sid hin hauth =>
      have hkept : (r.replace sid).db = r.db := (processDisconnect_frame ..).2.2.2
      apply RoleStep.kept
      intro user role
      rw [hkept]
  | createChannel name maxUsers db hcreate =>
      obtain ⟨_, husers, _⟩ := hr.consistent.db.createChannel hcreate
      apply RoleStep.kept
      intro user role
      simp only [Database.HasRole, husers]
  | connect | retire | depart | prune | accept | signIn | leave | enter | evict | stop | publish
  | watch | unwatch | deleteChannel => exact .kept fun _ _ => Iff.rfl

/-! ### Live roles -/

/-- A session is signed in as it was before, or signed out. -/
def SameLogin (member member' : Member) : Prop :=
  member'.authenticated = true → member.authenticated = true ∧ member'.userId = member.userId ∧
    member'.role = member.role

theorem SameLogin.refl (member : Member) : SameLogin member member := fun hauth => ⟨hauth, rfl, rfl⟩

theorem sameLogin_modify {f : Member → Member} (hf : SameLogin (r.members sid) (f (r.members sid)))
    (other : SessionId) : SameLogin (r.members other) ((r.modify sid f).members other) := by
  by_cases hsid : other = sid
  · subst hsid
    rw [members_modify_self]
    exact hf
  · rw [members_modify_of_ne hsid]
    exact SameLogin.refl _

namespace LiveRoles

/-- Nobody signs in, and the stored roles stay. -/
theorem mono (h : r.LiveRoles) (htable : ∀ sid ∈ r'.table, sid ∈ r.table)
    (hmembers : ∀ sid, SameLogin (r.members sid) (r'.members sid))
    (hroles : ∀ user role, r.db.HasRole user role → r'.db.HasRole user role) : r'.LiveRoles := by
  intro sid hin hauth
  obtain ⟨hauth', huser, hrole⟩ := hmembers sid hauth
  rw [huser, hrole]
  exact hroles _ _ (h sid (htable sid hin) hauth')

/-- The sessions stay as they are. -/
theorem setDb (h : r.LiveRoles) {db : Database}
    (hroles : ∀ user role, r.db.HasRole user role → db.HasRole user role) :
    ({ r with db := db } : Registry).LiveRoles :=
  h.mono (fun _ => id) (fun _ => SameLogin.refl _) hroles

theorem connect (h : r.LiveRoles) : r.connect.LiveRoles := by
  intro sid hin hauth
  by_cases hsid : sid = r.next
  · subst hsid
    rw [show r.connect.members r.next = Session.member {} from Function.update_self ..] at hauth
    cases hauth
  · have hkept : r.connect.members sid = r.members sid := Function.update_of_ne hsid ..
    rw [hkept] at hauth ⊢
    rcases List.mem_append.mp hin with hold | hnew
    · exact h sid hold hauth
    · exact absurd (List.mem_singleton.mp hnew) hsid

/-- A login takes the stored role over. -/
theorem signIn (h : r.LiveRoles) {user : UserId} {key : PublicKey} {role : Role}
    (hrole : r.db.HasRole user role) : (r.signIn sid user key role).LiveRoles := by
  intro other hin hauth
  by_cases hsid : other = sid
  · subst hsid
    rw [show (r.signIn other user key role).members other = { r.members other with
      authenticated := true, userId := user, publicKey := key, role := role } from
      Function.update_self ..]
    exact hrole
  · have hkept : (r.signIn sid user key role).members other = r.members other :=
      Function.update_of_ne hsid ..
    rw [hkept] at hauth ⊢
    exact h other hin hauth

/-- A role changes for a user and all their sessions. -/
theorem setRole (h : r.LiveRoles) {target : UserId} {newRole old : Role}
    (hold : r.db.HasRole target old) : (r.setRole target newRole true).LiveRoles := by
  intro sid hin hauth
  rw [show (r.setRole target newRole true).db = r.db.setUserRole target newRole from rfl,
    Database.hasRole_setUserRole hold]
  have hin' : sid ∈ r.table := hin
  have hset : (r.setRole target newRole true).members sid =
      if (r.members sid).userId = target then { r.members sid with role := newRole }
      else r.members sid := by
    unfold Registry.setRole
    simp only [hin', true_and]
  rw [hset] at hauth ⊢
  by_cases huser : (r.members sid).userId = target
  · rw [if_pos huser, if_pos huser]
  · rw [if_neg huser] at hauth ⊢
    rw [if_neg huser]
    exact h sid hin' hauth

end LiveRoles

theorem Move.liveRoles (hmove : Move o r r') (hr : r.InOrder) (hroot : o.root = false)
    (hdb : o.dbOk = true) (h : r.LiveRoles) : r'.LiveRoles := by
  cases hmove with
  | connect => exact h.connect
  | prune | accept | stop | publish | watch | unwatch | deleteChannel =>
      exact h.mono (fun _ => id) (fun _ => SameLogin.refl _) fun _ _ => id
  | retire sid =>
      refine h.mono (fun _ => id) (fun other => ?_) fun _ _ => id
      exact sameLogin_modify (f := fun member => { member with alive := false })
        (fun hauth => ⟨hauth, rfl, rfl⟩) other
  | depart sid hin =>
      refine h.mono (fun _ => List.mem_of_mem_filter) (fun other => ?_) fun _ _ => id
      exact sameLogin_modify (f := fun member => { member with alive := false })
        (fun hauth => ⟨hauth, rfl, rfl⟩) other
  | register key displayName role db hnew hcreate hrole =>
      obtain ⟨user, _, hroles⟩ := hr.consistent.db.hasRole_createUser hcreate
      exact h.setDb fun other role' hold => (hroles other role').mpr (Or.inl hold)
  | restore row user hrow hid hkey hrole =>
      apply h.setDb
      intro other role hold
      refine (Database.hasRole_updateUser ?_).mpr hold
      intro row' hrow' hid'
      obtain rfl := hr.consistent.db.eq_of_id hrow' hrow (hid'.trans hid)
      exact ⟨hid, hrole hroot⟩
  | replace sid hin hauth =>
      obtain ⟨htable, hmembers, _, hkept⟩ := processDisconnect_frame r sid (r.members sid).userId
        (r.members sid).channelId
      refine h.mono (fun other hother => htable ▸ hother) (fun other => ?_) fun user role hold => ?_
      · rw [Registry.replace, modify, hmembers]
        exact sameLogin_modify (f := fun member =>
          { member with channelId := 0, authenticated := false, alive := false })
          (fun hauth => by cases hauth) other
      · rw [show (r.replace sid).db = r.db from hkept]
        exact hold
  | signIn sid user key role hlogin hin hout hknows honly hrole => exact h.signIn (hrole hdb)
  | leave sid hin hauth =>
      refine h.mono (fun _ => id) (fun other => ?_) fun _ _ => id
      exact sameLogin_modify (f := fun member => { member with channelId := 0 })
        (fun hauth => ⟨hauth, rfl, rfl⟩) other
  | enter sid channel row hin hauth hidle hoff hrow hroom =>
      refine h.mono (fun _ => id) (fun other => ?_) fun _ _ => id
      exact sameLogin_modify (f := fun member => { member with channelId := channel })
        (fun hauth => ⟨hauth, rfl, rfl⟩) other
  | evict sid hauth hidle =>
      refine h.mono (fun _ => id) (fun other => ?_) fun _ _ => id
      exact sameLogin_modify (f := fun member => { member with channelId := 0 })
        (fun hauth => ⟨hauth, rfl, rfl⟩) other
  | createChannel name maxUsers db hcreate =>
      obtain ⟨_, husers, _⟩ := hr.consistent.db.createChannel hcreate
      apply h.setDb
      intro user role hold
      simp only [Database.HasRole, husers]
      exact hold
  | setRole sid target newRole user hin hauth hmay hnot hbelow huser hover howner =>
      rw [hdb]
      exact h.setRole (Database.hasRole_of_getUserById huser)

theorem LiveRoles.workOff (h : r.LiveRoles) (d : SessionDisconnect) (rest : List SessionDisconnect) :
    (r.workOff d rest).LiveRoles := by
  obtain ⟨htable, hmembers, _, hdb⟩ := processDisconnect_frame { r with disconnects := rest }
    d.sessionId d.userId d.channelId
  unfold LiveRoles Registry.workOff
  rw [htable, hmembers, hdb]
  exact h

/-! ### Owners and admins -/

/-- The role of the owner is neither given nor taken. -/
theorem RoleStep.owner_iff (hstep : RoleStep o r r') (hr : r.InOrder) (user : UserId) :
    r'.db.HasRole user Role.OWNER ↔ r.db.HasRole user Role.OWNER := by
  cases hstep with
  | kept hsame => exact hsame user Role.OWNER
  | registered new hnew hroles =>
      rw [hroles]
      constructor
      · rintro (hold | ⟨_, howner⟩)
        · exact hold
        · exact absurd howner (by decide)
      · exact Or.inl
  | changed sid target newRole old hin hauth hmay hnot hbelow hold hover howner hroles =>
      rw [hroles]
      split
      next huser =>
        constructor
        · intro hgiven
          exact absurd hgiven.symm hnot
        · intro htaken
          rw [huser] at htaken
          rw [hr.consistent.db.role_unique hold htaken] at hover
          exact absurd hover BitVec.not_lt_zero
      · exact Iff.rfl

/-- Only the owner and admins may manage roles. -/
theorem admin_of_hasPermission {role : Role}
    (hmay : hasPermission role Permissions.MANAGE_ROLES none = true) (hne : role ≠ Role.OWNER) :
    role = Role.ADMIN := by
  by_contra hnot
  revert hmay
  unfold hasPermission defaultPermissions
  rw [Option.getD_none, if_neg hne, if_neg hnot]
  split
  · simp [hne, Permissions.MANAGE_ROLES, DEFAULT_MODERATOR_PERMS]
  · split
    · simp [hne, Permissions.MANAGE_ROLES, DEFAULT_USER_PERMS]
    · simp [hne]

/-- If there are admins at all then no user but the owner is stronger than `m`. -/
def Calm (m : Role) (db : Database) : Prop :=
  ∀ user, db.HasRole user Role.ADMIN → m ≤ Role.ADMIN

end Registry

/-- From `db` to `db'` nobody is raised to `m` or above: who has a new role has a weaker
one, or is a new user. -/
structure Database.Drift (m : Role) (db db' : Database) : Prop where
  users : ∀ user old, db.HasRole user old → ∃ role, db'.HasRole user role
  roles : ∀ user role, db'.HasRole user role → db.HasRole user role ∨
    ((∀ old, ¬ db.HasRole user old) ∧ role = Role.USER) ∨ m < role

namespace Database.Drift

variable {m : Role} {db db' db'' : Database}

theorem refl (m : Role) (db : Database) : Drift m db db where
  users _ old hold := ⟨old, hold⟩
  roles _ _ := Or.inl

theorem trans (h : Drift m db db') (h' : Drift m db' db'') : Drift m db db'' where
  users user old hold := by
    obtain ⟨role, hrole⟩ := h.users user old hold
    exact h'.users user role hrole
  roles user role hrole := by
    rcases h'.roles user role hrole with hmid | ⟨hnew, huser⟩ | hbelow
    · exact h.roles user role hmid
    · right
      left
      refine ⟨fun old hold => ?_, huser⟩
      obtain ⟨mid, hmid⟩ := h.users user old hold
      exact hnew mid hmid
    · exact Or.inr (Or.inr hbelow)

end Database.Drift

namespace Registry

variable {o : Occasion} {r r' : Registry} {m : Role}

/-- Where no owner changes roles nobody is raised to the strongest of the others. -/
theorem RoleStep.drift (hstep : RoleStep o r r') (howner : o.owner = false) (hlive : r.LiveRoles)
    (hcalm : Calm m r.db) : Calm m r'.db ∧ r.db.Drift m r'.db := by
  cases hstep with
  | kept hsame =>
      refine ⟨fun user hadmin => hcalm user ((hsame _ _).mp hadmin), ?_, ?_⟩
      · intro user old hold
        exact ⟨old, (hsame _ _).mpr hold⟩
      · intro user role hrole
        exact Or.inl ((hsame _ _).mp hrole)
  | registered new hnew hroles =>
      refine ⟨fun user hadmin => ?_, ?_, ?_⟩
      · rcases (hroles _ _).mp hadmin with hold | ⟨_, huser⟩
        · exact hcalm user hold
        · exact absurd huser (by decide)
      · intro user old hold
        exact ⟨old, (hroles _ _).mpr (Or.inl hold)⟩
      · intro user role hrole
        rcases (hroles _ _).mp hrole with hold | ⟨rfl, huser⟩
        · exact Or.inl hold
        · exact Or.inr (Or.inl ⟨hnew, huser⟩)
  | changed sid target newRole old hin hauth hmay hnot hbelow hold hover hother hroles =>
      have hadmin : (r.members sid).role = Role.ADMIN := admin_of_hasPermission hmay (hother howner)
      have hstored := hlive sid hin hauth
      have habove : Role.ADMIN < newRole := hadmin ▸ hbelow (hother howner)
      rw [hadmin] at hstored
      have hm : m < newRole := Nat.lt_of_le_of_lt (hcalm _ hstored) habove
      refine ⟨fun user hadmin' => ?_, ?_, ?_⟩
      · exact hcalm _ hstored
      · intro user old' hold'
        by_cases huser : user = target
        · exact ⟨newRole, (hroles _ _).mpr (by rw [if_pos huser])⟩
        · exact ⟨old', (hroles _ _).mpr (by rw [if_neg huser]; exact hold')⟩
      · intro user role hrole
        rw [hroles] at hrole
        split at hrole
        · rw [hrole]
          exact Or.inr (Or.inr hm)
        · exact Or.inl hrole

end Registry

/-! ### Runs -/

namespace Server

/-- The step logs a root fingerprint in. -/
def RootLogin (s : Server) : ServerOp → Prop
  | .message sid (.authIdentity auth nowS _) => s.AcceptsLogin sid auth nowS ∧
      s.config.publicKeyFingerprint auth.publicKey ∈ s.config.rootFingerprints
  | _ => False

/-- The session of an owner changes a role. -/
def OwnerSetsRole (s : Server) : ServerOp → Prop
  | .message sid (.adminSetRole target newRole _) =>
      s.AcceptsSetRole sid target newRole ∧ (s.sessions sid).role = Role.OWNER
  | _ => False

/-- The table of users is written without errors. -/
def UserWritesSucceed : ServerOp → Prop
  | .message _ (.authIdentity _ _ dbOk) => dbOk = true
  | .message _ (.adminSetRole _ _ dbOk) => dbOk = true
  | _ => True

instance RootLogin.decidable (s : Server) (op : ServerOp) : Decidable (s.RootLogin op) := by
  unfold RootLogin
  split <;> infer_instance

instance OwnerSetsRole.decidable (s : Server) (op : ServerOp) : Decidable (s.OwnerSetsRole op) := by
  unfold OwnerSetsRole
  split <;> infer_instance

instance UserWritesSucceed.decidable (op : ServerOp) : Decidable (UserWritesSucceed op) := by
  unfold UserWritesSucceed
  split <;> infer_instance

/-- No root logs in, and the database works. -/
def Plain (s : Server) (op : ServerOp) : Prop := ¬ s.RootLogin op ∧ UserWritesSucceed op

instance Plain.decidable (s : Server) (op : ServerOp) : Decidable (s.Plain op) :=
  inferInstanceAs (Decidable (_ ∧ _))

/-- The role of every live session is the stored one. -/
def LiveRoles (s : Server) : Prop :=
  ∀ sid ∈ s.sessionTable, (s.sessions sid).authenticated = true →
    s.db.HasRole (s.sessions sid).userId (s.sessions sid).role

instance LiveRoles.decidable (s : Server) : Decidable s.LiveRoles :=
  inferInstanceAs (Decidable (∀ sid ∈ s.sessionTable, _))

/-- The session is stronger than the role it takes away and, unless it is an owner's, than
the role it gives. -/
def MayChange (s : Server) (sid : SessionId) (old new : Role) : Prop :=
  sid ∈ s.sessionTable ∧ (s.sessions sid).authenticated = true ∧ (s.sessions sid).role < old ∧
    ((s.sessions sid).role = Role.OWNER ∨ (s.sessions sid).role < new)

/-- Every role that differs after the step, stored or live, is one `sid` may change. -/
def ChangesByRight (s s' : Server) (sid : SessionId) : Prop :=
  (∀ user old new, s.db.HasRole user old → s'.db.HasRole user new → old ≠ new →
    s.MayChange sid old new) ∧
  ∀ other ∈ s.sessionTable, (s.sessions other).authenticated = true →
    (s.sessions other).role ≠ (s'.sessions other).role →
      s.MayChange sid (s.sessions other).role (s'.sessions other).role

variable {s : Server} {m : Role}

theorem occasion_root {op : ServerOp} (h : ¬ s.RootLogin op) : (s.occasion op).root = false := by
  unfold occasion
  split
  · exact decide_eq_false h
  · rfl
  · rfl

theorem occasion_owner {op : ServerOp} (h : ¬ s.OwnerSetsRole op) :
    (s.occasion op).owner = false := by
  unfold occasion
  split
  · rfl
  · exact decide_eq_false h
  · rfl

theorem occasion_dbOk {op : ServerOp} (h : UserWritesSucceed op) : (s.occasion op).dbOk = true := by
  unfold occasion
  split
  · exact h
  · exact h
  · rfl

/-- A plain step keeps the live roles the stored ones, and the owners. -/
theorem liveRoles_step (hr : s.registry.InOrder) (h : s.registry.LiveRoles) {op : ServerOp}
    (hop : s.Plain op) :
    (s.step op).registry.LiveRoles ∧ ∀ user,
      (s.step op).registry.db.HasRole user Role.OWNER ↔ s.registry.db.HasRole user Role.OWNER := by
  have hroot := occasion_root hop.1
  have hdb := occasion_dbOk (s := s) hop.2
  have hmove : ∀ r r' : Registry, r.InOrder →
      (r.LiveRoles ∧ ∀ user, r.db.HasRole user Role.OWNER ↔
        s.registry.db.HasRole user Role.OWNER) → Registry.Move (s.occasion op) r r' →
      (r'.LiveRoles ∧ ∀ user, r'.db.HasRole user Role.OWNER ↔
        s.registry.db.HasRole user Role.OWNER) := by
    intro r r' hinOrder hinv hm
    refine ⟨hm.liveRoles hinOrder hroot hdb hinv.1, fun user => ?_⟩
    rw [(hm.roleStep hinOrder hroot hdb).owner_iff hinOrder]
    exact hinv.2 user
  refine (registry_step hmove ?_ hr ⟨h, fun _ => Iff.rfl⟩).2
  intro r d rest hinOrder hinv hd
  refine ⟨hinv.1.workOff d rest, ?_⟩
  rw [show (r.workOff d rest).db = r.db from (Registry.processDisconnect_frame ..).2.2.2]
  exact hinv.2

/-- Nor is anyone raised, if no owner changes roles. -/
theorem drift_step (hr : s.registry.InOrder) (h : s.registry.LiveRoles) {op : ServerOp}
    (hop : s.Plain op) (howner : ¬ s.OwnerSetsRole op) (hcalm : Registry.Calm m s.registry.db) :
    Registry.Calm m (s.step op).registry.db ∧
      s.registry.db.Drift m (s.step op).registry.db := by
  have hroot := occasion_root hop.1
  have hdb := occasion_dbOk (s := s) hop.2
  have hmove : ∀ r r' : Registry, r.InOrder → (r.LiveRoles ∧ Registry.Calm m r.db ∧
      s.registry.db.Drift m r.db) → Registry.Move (s.occasion op) r r' →
      (r'.LiveRoles ∧ Registry.Calm m r'.db ∧ s.registry.db.Drift m r'.db) := by
    rintro r r' hinOrder ⟨hlive, hcalm', hdrift⟩ hm
    obtain ⟨hcalm'', hdrift'⟩ :=
      (hm.roleStep hinOrder hroot hdb).drift (occasion_owner howner) hlive hcalm'
    exact ⟨hm.liveRoles hinOrder hroot hdb hlive, hcalm'', hdrift.trans hdrift'⟩
  refine (registry_step hmove ?_ hr ⟨h, hcalm, Database.Drift.refl m _⟩).2.2
  rintro r d rest hinOrder ⟨hlive, hcalm', hdrift⟩ hd
  refine ⟨hlive.workOff d rest, ?_⟩
  rw [show (r.workOff d rest).db = r.db from (Registry.processDisconnect_frame ..).2.2.2]
  exact ⟨hcalm', hdrift⟩

theorem ChangesByRight.same {s' : Server} {sid : SessionId} (hr : s.registry.InOrder)
    (hsame : s'.registry = s.registry) : s.ChangesByRight s' sid := by
  have hdb : s'.db = s.db := congrArg Registry.db hsame
  constructor
  · intro user old new hold hnew hne
    rw [hdb] at hnew
    exact absurd (hr.consistent.db.role_unique hold hnew) hne
  · intro other _ _ hne
    have hrole := congrArg (fun r => (r.members other).role) hsame
    exact absurd hrole.symm hne

/-- The checks of `ADMIN_SET_ROLE` cover every role it changes. -/
theorem changesByRight_adminSetRole (hr : s.registry.InOrder) (h : s.LiveRoles) (sid : SessionId)
    (target : UserId) (newRole : Role) (dbOk : Bool) :
    s.ChangesByRight (s.step (.message sid (.adminSetRole target newRole dbOk))) sid := by
  by_cases hin : sid ∈ s.sessionTable
  · have hstep : (s.step (.message sid (.adminSetRole target newRole dbOk))).registry =
        if s.AcceptsSetRole sid target newRole then s.registry.setRole target newRole dbOk
        else s.registry := by
      rw [← registry_adminSetRole hin]
      simp only [step, handleMessage, getSession, if_pos hin]
    by_cases haccepted : s.AcceptsSetRole sid target newRole
    · rw [if_pos haccepted] at hstep
      obtain ⟨_, hauth, hmay, hcheck⟩ := haccepted
      obtain ⟨_, hbelow, row, hrow, hover⟩ := setRole_of_checkSetRole hcheck
      have hold : s.db.HasRole target row.role := Database.hasRole_of_getUserById hrow
      have hright : s.MayChange sid row.role newRole := by
        refine ⟨hin, hauth, of_decide_eq_true hover, ?_⟩
        by_cases howner : (s.sessions sid).role = Role.OWNER
        · exact Or.inl howner
        · exact Or.inr (hbelow howner)
      constructor
      · intro user old new hold' hnew hne
        have hdb : (s.step (.message sid (.adminSetRole target newRole dbOk))).db =
            if dbOk then s.db.setUserRole target newRole else s.db := congrArg Registry.db hstep
        rw [hdb] at hnew
        split at hnew
        · rw [Database.hasRole_setUserRole hold] at hnew
          split at hnew
          next huser =>
            subst huser
            rw [hnew, hr.consistent.db.role_unique hold' hold]
            exact hright
          · exact absurd (hr.consistent.db.role_unique hold' hnew) hne
        · exact absurd (hr.consistent.db.role_unique hold' hnew) hne
      · intro other hother hauth' hne
        have hrole : ((s.step (.message sid (.adminSetRole target newRole dbOk))).sessions
            other).role = if (s.sessions other).userId = target then newRole
              else (s.sessions other).role := by
          have hmember := congrArg (fun r => (r.members other).role) hstep
          refine hmember.trans ?_
          unfold Registry.setRole
          dsimp only
          rw [apply_ite Member.role]
          have hthis : other ∈ s.registry.table := hother
          simp only [hthis, true_and]
          rfl
        rw [hrole] at hne ⊢
        split at hne
        next huser =>
          have hlive := h other hother hauth'
          rw [huser] at hlive
          rw [if_pos huser, hr.consistent.db.role_unique hlive hold]
          exact hright
        · exact absurd rfl hne
    · rw [if_neg haccepted] at hstep
      exact ChangesByRight.same hr hstep
  · apply ChangesByRight.same hr
    simp only [step, handleMessage, getSession, if_neg hin]

/-- What holds along a run of plain steps. -/
theorem liveRoles_run (hr : s.registry.InOrder) (h : s.registry.LiveRoles) {ops : List ServerOp}
    (hops : Machine.AllSteps step Plain s ops) :
    (Machine.run step s ops).registry.LiveRoles ∧ ∀ user,
      (Machine.run step s ops).registry.db.HasRole user Role.OWNER ↔
        s.registry.db.HasRole user Role.OWNER := by
  have hstep : ∀ (s' : Server) op, (s'.registry.InOrder ∧ s'.registry.LiveRoles ∧ ∀ user,
      s'.registry.db.HasRole user Role.OWNER ↔ s.registry.db.HasRole user Role.OWNER) →
      s'.Plain op → ((s'.step op).registry.InOrder ∧ (s'.step op).registry.LiveRoles ∧ ∀ user,
      (s'.step op).registry.db.HasRole user Role.OWNER ↔
        s.registry.db.HasRole user Role.OWNER) := by
    rintro s' op ⟨hr', h', howners⟩ hop
    obtain ⟨hlive, hkept⟩ := liveRoles_step hr' h' hop
    exact ⟨inOrder_step hr' op, hlive, fun user => (hkept user).trans (howners user)⟩
  exact (Machine.run_invariant hstep ⟨hr, h, fun _ => Iff.rfl⟩ hops).2

theorem drift_run (hr : s.registry.InOrder) (h : s.registry.LiveRoles)
    (hcalm : Registry.Calm m s.registry.db) {ops : List ServerOp}
    (hops : Machine.AllSteps step (fun s op => s.Plain op ∧ ¬ s.OwnerSetsRole op) s ops) :
    Registry.Calm m (Machine.run step s ops).registry.db ∧
      s.registry.db.Drift m (Machine.run step s ops).registry.db := by
  have hstep : ∀ (s' : Server) op, (s'.registry.InOrder ∧ s'.registry.LiveRoles ∧
      Registry.Calm m s'.registry.db ∧ s.registry.db.Drift m s'.registry.db) →
      (s'.Plain op ∧ ¬ s'.OwnerSetsRole op) → ((s'.step op).registry.InOrder ∧
      (s'.step op).registry.LiveRoles ∧ Registry.Calm m (s'.step op).registry.db ∧
      s.registry.db.Drift m (s'.step op).registry.db) := by
    rintro s' op ⟨hr', h', hcalm', hdrift⟩ ⟨hop, howner⟩
    obtain ⟨hcalm'', hdrift'⟩ := drift_step hr' h' hop howner hcalm'
    exact ⟨inOrder_step hr' op, (liveRoles_step hr' h' hop).1, hcalm'', hdrift.trans hdrift'⟩
  exact (Machine.run_invariant hstep ⟨hr, h, hcalm, Database.Drift.refl m _⟩ hops).2.2

/-- No privilege escalation. From a state where the live roles are the stored ones, in a run
where no root logs in: a role is changed only by a stronger session, the owners stay the
same, and while no owner changes roles nobody is raised to the strongest role another
user had at the start. -/
theorem no_escalation (config : Config) (env : Environment) (db : Database) (hdb : db.Sound)
    (pre ops : List ServerOp) (start : Server)
    (hstart : start = Machine.run step (restart config env db) pre) (hlive : start.LiveRoles)
    (hops : Machine.AllSteps step Plain start ops) :
    (∀ before sid target newRole dbOk after,
      ops = before ++ .message sid (.adminSetRole target newRole dbOk) :: after →
      (Machine.run step start before).ChangesByRight ((Machine.run step start before).step
        (.message sid (.adminSetRole target newRole dbOk))) sid) ∧
    ((Machine.run step start ops).LiveRoles ∧ ∀ user,
      (Machine.run step start ops).db.HasRole user Role.OWNER ↔
        start.db.HasRole user Role.OWNER) ∧
    (Machine.AllSteps step (fun s op => ¬ s.OwnerSetsRole op) start ops →
      ∀ m, (∀ row ∈ start.db.users, row.role ≠ Role.OWNER → m ≤ row.role) →
      ∀ before mid after, ops = before ++ mid ++ after →
        (Machine.run step start before).db.Drift m
          (Machine.run step start (before ++ mid)).db) := by
  have hr : start.registry.InOrder := by
    rw [hstart]
    exact Machine.run_preserves (fun (s : Server) op h => inOrder_step (s := s) h op)
      (inOrder_restart config env hdb) pre
  have hrun : ∀ more, (Machine.run step start more).registry.InOrder :=
    Machine.run_preserves (fun (s : Server) op h => inOrder_step (s := s) h op) hr
  refine ⟨?_, liveRoles_run hr hlive hops, ?_⟩
  · intro before sid target newRole dbOk after heq
    subst heq
    have hbefore := (Machine.allSteps_append.mp hops).1
    exact changesByRight_adminSetRole (hrun before) (liveRoles_run hr hlive hbefore).1 sid target
      newRole dbOk
  · intro howner m hfloor before mid after heq
    subst heq
    have hsteps := Machine.allSteps_append.mp
      (Machine.allSteps_append.mp (Machine.allSteps_and.mpr ⟨hops, howner⟩)).1
    have hcalm : Registry.Calm m start.db := by
      rintro user ⟨row, hrow, _, hadmin⟩
      rw [← hadmin]
      refine hfloor row hrow fun howner => ?_
      rw [hadmin] at howner
      exact absurd howner (by decide)
    have hlive' := (liveRoles_run hr hlive (Machine.allSteps_and.mp hsteps.1).1).1
    rw [Machine.run_append]
    exact (drift_run (hrun before) hlive' (drift_run hr hlive hcalm hsteps.1).1 hsteps.2).2

/-- The root makes the second user an admin. -/
def rootNamesAdmin : List ServerOp :=
  [.connect, .connect, .connect, login 1 0 1, login 2 1 1, .message 1 (.adminSetRole 2 1 true)]

/-- The admin can make the third user a moderator, and no more. -/
theorem no_escalation_admin :
    (run .small (.ticking 1) rootNamesAdmin).db.Drift 1 (run .small (.ticking 1)
      (rootNamesAdmin ++ [login 3 2 2, .message 2 (.adminSetRole 3 1 true),
        .message 2 (.adminSetRole 3 2 true)])).db ∧
    (run .small (.ticking 1) (rootNamesAdmin ++ [login 3 2 2,
      .message 2 (.adminSetRole 3 1 true), .message 2 (.adminSetRole 3 2 true)])).db.HasRole 3 2 :=
  ⟨(no_escalation .small (.ticking 1) {} sound_empty rootNamesAdmin [login 3 2 2,
      .message 2 (.adminSetRole 3 1 true), .message 2 (.adminSetRole 3 2 true)] _ rfl
      (by decide +kernel) (by decide +kernel)).2.2 (by decide +kernel) 1 (by decide +kernel) [] _ []
      (List.append_nil _).symm, by decide +kernel⟩

end Server

end Parties

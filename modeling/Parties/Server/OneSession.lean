import Parties.Server.RegistryRuns

/-!
# One session per identity

A user index entry names a session in the table, or one whose disconnect event is still
in the queue. A newer login takes the entry over, and an event only clears it if the
entry still names the event's own session.

A session whose shutdown completes leaves an event behind if it is signed in. The transport
thread looks at that while the main thread may be at work on the login of the session: what is
entered in the index then is the entry of a session that is gone, and no event will clear it.
-/

namespace Parties

namespace Registry

/-- An entry of the index names a session in the table or one with a pending event. -/
def Indexed (r : Registry) : Prop :=
  ∀ user sid, r.userSessions user = some sid →
    sid ∈ r.table ∨ ∃ d ∈ r.disconnects, d.sessionId = sid ∧ d.userId = user

variable {o : Occasion} {r r' : Registry} {sid : SessionId} {user : UserId}

/-- What is left in the index after the end of a session. -/
theorem userSessions_processDisconnect (r : Registry) (sid : SessionId) (user : UserId)
    (channel : ChannelId) :
    (r.processDisconnect sid user channel).userSessions =
        (if r.userSessions user = some sid then Function.update r.userSessions user none
        else r.userSessions) ∧
      (r.processDisconnect sid user channel).disconnects = r.disconnects := by
  unfold processDisconnect endSession
  dsimp only
  split <;> exact ⟨rfl, rfl⟩

/-- The end of a session clears its own entry and no other one. -/
theorem userSessions_processDisconnect_iff {channel : ChannelId} {user' : UserId}
    {sid' : SessionId} :
    (r.processDisconnect sid user channel).userSessions user' = some sid' ↔
      r.userSessions user' = some sid' ∧ ¬ (user' = user ∧ sid' = sid) := by
  rw [(userSessions_processDisconnect r sid user channel).1]
  by_cases hnames : r.userSessions user = some sid
  · rw [if_pos hnames]
    by_cases huser : user' = user
    · subst huser
      rw [Function.update_self, hnames]
      constructor
      · intro hnone
        cases hnone
      · rintro ⟨hsid, hnot⟩
        exact absurd ⟨rfl, (Option.some.inj hsid).symm⟩ hnot
    · rw [Function.update_of_ne huser]
      simp [huser]
  · rw [if_neg hnames]
    constructor
    · intro hsid
      refine ⟨hsid, ?_⟩
      rintro ⟨rfl, rfl⟩
      exact hnames hsid
    · exact And.left

namespace Indexed

theorem congr (h : r.Indexed) (hindex : r'.userSessions = r.userSessions)
    (htable : r'.table = r.table) (hevents : r'.disconnects = r.disconnects) : r'.Indexed := by
  unfold Indexed
  rw [hindex, htable, hevents]
  exact h

theorem connect (h : r.Indexed) : r.connect.Indexed := by
  intro user sid hnames
  rcases h user sid hnames with hin | hevent
  · exact Or.inl (List.mem_append_left _ hin)
  · exact Or.inr hevent

/-- A session that has an entry is signed in, so it leaves an event behind. -/
theorem depart (h : r.Indexed) (hr : r.Consistent) (hin : sid ∈ r.table) :
    (r.depart sid).Indexed := by
  intro user other hnames
  have hnames' : r.userSessions user = some other := hnames
  by_cases hsid : other = sid
  · subst hsid
    obtain ⟨hmark, huser⟩ := hr.user user other hnames' hin
    obtain ⟨hauth, _⟩ := hr.authed other hin hmark
    right
    refine ⟨⟨other, (r.members other).userId, (r.members other).channelId⟩, ?_, rfl, huser⟩
    simp [Registry.depart, hauth]
  · rcases h user other hnames' with hold | ⟨d, hd, hevent⟩
    · left
      simp [Registry.depart, hold, hsid]
    · right
      refine ⟨d, ?_, hevent⟩
      simp only [Registry.depart]
      split
      · exact List.mem_append_left _ hd
      · exact hd

theorem replace (h : r.Indexed) : (r.replace sid).Indexed := by
  intro user other hnames
  have hold := (userSessions_processDisconnect_iff.mp hnames).1
  obtain ⟨htable, _⟩ := processDisconnect_frame r sid (r.members sid).userId
    (r.members sid).channelId
  have hevents := (userSessions_processDisconnect r sid (r.members sid).userId
    (r.members sid).channelId).2
  rcases h user other hold with hin | ⟨d, hd, hevent⟩
  · left
    show other ∈ (r.processDisconnect sid _ _).table
    rw [htable]
    exact hin
  · right
    refine ⟨d, ?_, hevent⟩
    show d ∈ (r.processDisconnect sid _ _).disconnects
    rw [hevents]
    exact hd

theorem signIn (h : r.Indexed) (hin : sid ∈ r.table) (user : UserId) (key : PublicKey)
    (role : Role) : (r.signIn sid user key role).Indexed := by
  intro user' other hnames
  by_cases huser : user' = user
  · subst huser
    left
    rw [show (r.signIn sid user' key role).userSessions user' = some sid from
      Function.update_self ..] at hnames
    rw [← Option.some.inj hnames]
    exact hin
  · rw [show (r.signIn sid user key role).userSessions user' = r.userSessions user' from
      Function.update_of_ne huser ..] at hnames
    exact h user' other hnames

/-- The event that is worked off clears the entry it accounts for. -/
theorem workOff (h : r.Indexed) {d : SessionDisconnect} {rest : List SessionDisconnect}
    (hd : r.disconnects = d :: rest) : (r.workOff d rest).Indexed := by
  intro user sid hnames
  obtain ⟨hold, hnot⟩ := userSessions_processDisconnect_iff.mp hnames
  obtain ⟨htable, _⟩ := processDisconnect_frame { r with disconnects := rest } d.sessionId
    d.userId d.channelId
  have hevents := (userSessions_processDisconnect { r with disconnects := rest } d.sessionId
    d.userId d.channelId).2
  rcases h user sid hold with hin | ⟨d', hd', hevent⟩
  · left
    show sid ∈ (Registry.processDisconnect _ _ _ _).table
    rw [htable]
    exact hin
  · rcases List.mem_cons.mp (hd ▸ hd') with rfl | hrest
    · exact absurd ⟨hevent.2.symm, hevent.1.symm⟩ hnot
    · right
      refine ⟨d', ?_, hevent⟩
      show d' ∈ (Registry.processDisconnect _ _ _ _).disconnects
      rw [hevents]
      exact hrest

end Indexed

theorem Move.indexed (hmove : Move o r r') (hr : r.InOrder) (h : r.Indexed) : r'.Indexed := by
  cases hmove with
  | connect => exact h.connect
  | depart sid hin => exact h.depart hr.consistent hin
  | replace sid hin hauth => exact h.replace
  | signIn sid user key role hlogin hin hout hknows honly hrole => exact h.signIn hin user key role
  | retire | prune | accept | register | restore | leave | enter | evict | stop | publish
  | watch | unwatch | createChannel | deleteChannel | setRole => exact h.congr rfl rfl rfl

/-- Two signed-in sessions with one key are one session. -/
theorem InOrder.eq_of_key (hr : r.InOrder) {sid sid' : SessionId} (hin : sid ∈ r.table)
    (hin' : sid' ∈ r.table) (hauth : (r.members sid).authenticated = true)
    (hauth' : (r.members sid').authenticated = true)
    (hkey : (r.members sid).publicKey = (r.members sid').publicKey) : sid = sid' := by
  obtain ⟨_, hindex, hknows⟩ := hr.consistent.authed sid hin (hr.marked sid hin hauth)
  obtain ⟨_, hindex', hknows'⟩ := hr.consistent.authed sid' hin' (hr.marked sid' hin' hauth')
  rw [hkey] at hknows
  have huser := hr.consistent.db.owner _ _ _ hknows hknows'
  rw [huser, hindex'] at hindex
  exact (Option.some.inj hindex).symm

/-- With no event pending the index holds exactly the signed-in sessions. -/
theorem InOrder.userSessions_iff (hr : r.InOrder) (h : r.Indexed) (hnone : r.disconnects = [])
    {user : UserId} {sid : SessionId} :
    r.userSessions user = some sid ↔
      sid ∈ r.table ∧ (r.members sid).authenticated = true ∧ (r.members sid).userId = user := by
  constructor
  · intro hnames
    have hin : sid ∈ r.table := by
      rcases h user sid hnames with hin | ⟨d, hd, _⟩
      · exact hin
      · rw [hnone] at hd
        cases hd
    obtain ⟨hmark, huser⟩ := hr.consistent.user user sid hnames hin
    exact ⟨hin, (hr.consistent.authed sid hin hmark).1, huser⟩
  · rintro ⟨hin, hauth, rfl⟩
    exact (hr.consistent.authed sid hin (hr.marked sid hin hauth)).2.1

/-- The replay guard has no part in it. -/
theorem InOrder.withAuths (hr : r.InOrder) (recent : Fingerprint → Option (BitVec 64))
    (accepted : List (PublicKey × BitVec 64)) :
    { r with recentAuth := recent, acceptedAuths := accepted }.InOrder where
  consistent := { hr.consistent with }
  marked := hr.marked

end Registry

/-! ### Runs -/

inductive SessionOp where
  | server (op : ServerOp)
  /-- The connection completes its shutdown behind the look-up of the session and in front of its
  sign-in. When in between makes no difference, as the login reads nothing of its session but
  whether it is signed in. A shutdown in the midst of the sign-in itself leaves an event behind:
  under user 0, which clears no entry, or under the user, and then the entry is still cleared. -/
  | overtakenLogin (sid : SessionId) (auth : AuthIdentity) (nowS : BitVec 64) (dbOk : Bool)

namespace Server

variable {s : Server}

def sessionStep (s : Server) : SessionOp → Server
  | .server op => s.step op
  | .overtakenLogin sid auth nowS dbOk =>
    match s.getSession sid with
    | none => s
    | some _ => (s.onShutdownComplete sid).authIdentity sid auth nowS dbOk

def sessionRun (config : Config) (env : Environment) (ops : List SessionOp) : Server :=
  Machine.run sessionStep (new config env) ops

/-- The login that is overtaken passes all checks and finds or creates its user. -/
def SignsInDeparted (s : Server) : SessionOp → Prop
  | .overtakenLogin sid auth nowS dbOk =>
    s.AcceptsLogin sid auth nowS ∧ (s.loginUser auth dbOk).isSome = true
  | .server _ => False

instance (s : Server) : (op : SessionOp) → Decidable (s.SignsInDeparted op)
  | .overtakenLogin .. => inferInstanceAs (Decidable (_ ∧ _))
  | .server _ => isFalse id

/-- A login that is refused changes the replay guard at most. -/
theorem registry_refusedLogin {sid : SessionId} {auth : AuthIdentity} {nowS : BitVec 64}
    {dbOk : Bool} (hrefused : (s.sessions sid).authenticated = false →
      checkFresh auth nowS = .ok () → (s.pruneRecentAuth nowS).checkIdentity auth = .ok () →
        s.loginUser auth dbOk = none) :
    ∃ recent accepted, (s.authIdentity sid auth nowS dbOk).registry =
      { s.registry with recentAuth := recent, acceptedAuths := accepted } := by
  unfold authIdentity
  split
  · exact ⟨_, _, rfl⟩
  · next hout =>
    split
    · exact ⟨_, _, rfl⟩
    · next hfresh =>
      dsimp only
      split
      · exact ⟨_, _, rfl⟩
      · next hidentity =>
        have hnone := hrefused (Bool.eq_false_iff.mpr hout) hfresh hidentity
        unfold acceptIdentity
        dsimp only
        split
        · exact ⟨_, _, rfl⟩
        · next user db hlogin =>
          have hsome : s.loginUser auth dbOk = some (user, db) := hlogin
          rw [hnone] at hsome
          cases hsome

theorem checkIdentity_congr {s' : Server} (hconfig : s'.config = s.config)
    (hrecent : s'.recentAuth = s.recentAuth) (auth : AuthIdentity) :
    s'.checkIdentity auth = s.checkIdentity auth := by
  cases s
  cases s'
  cases hconfig
  cases hrecent
  rfl

theorem loginUser_congr {s' : Server} (hconfig : s'.config = s.config) (hdb : s'.db = s.db)
    (auth : AuthIdentity) (dbOk : Bool) : s'.loginUser auth dbOk = s.loginUser auth dbOk := by
  cases s
  cases s'
  cases hconfig
  cases hdb
  rfl

/-- A departure leaves alone what a login is checked against. -/
theorem registry_overtakenLogin {sid : SessionId} {auth : AuthIdentity} {nowS : BitVec 64}
    {dbOk : Bool} (hin : sid ∈ s.sessionTable)
    (hrefused : ¬ s.SignsInDeparted (.overtakenLogin sid auth nowS dbOk)) :
    ∃ recent accepted, ((s.onShutdownComplete sid).authIdentity sid auth nowS dbOk).registry =
      { (s.onShutdownComplete sid).registry with
        recentAuth := recent
        acceptedAuths := accepted } := by
  have hgone := registry_onShutdownComplete hin
  have hconfig : (s.onShutdownComplete sid).config = s.config := congrArg Registry.config hgone
  have hrecent : (s.onShutdownComplete sid).recentAuth = s.recentAuth :=
    congrArg Registry.recentAuth hgone
  have hdb : (s.onShutdownComplete sid).db = s.db := congrArg Registry.db hgone
  have hauth : ((s.onShutdownComplete sid).sessions sid).authenticated =
      (s.sessions sid).authenticated := by
    have hmember := congrArg (fun r : Registry => (r.members sid).authenticated) hgone
    have hretired : ((s.registry.retire sid).members sid).authenticated =
        (s.sessions sid).authenticated :=
      congrArg Member.authenticated Registry.members_modify_self
    exact hmember.trans hretired
  refine registry_refusedLogin fun hout hfresh hidentity => ?_
  rw [hauth] at hout
  have hpruned : ((s.onShutdownComplete sid).pruneRecentAuth nowS).recentAuth =
      (s.pruneRecentAuth nowS).recentAuth := by
    simp only [pruneRecentAuth, hrecent]
  have hchecks : ((s.onShutdownComplete sid).pruneRecentAuth nowS).checkIdentity auth =
      (s.pruneRecentAuth nowS).checkIdentity auth :=
    checkIdentity_congr (by exact hconfig) hpruned auth
  have hidentity' : (s.pruneRecentAuth nowS).checkIdentity auth = .ok () :=
    hchecks.symm.trans hidentity
  have hnone : s.loginUser auth dbOk = none := by
    rw [← Option.not_isSome_iff_eq_none]
    exact fun hsome => hrefused ⟨⟨hin, hout, hfresh, hidentity'⟩, hsome⟩
  exact (loginUser_congr hconfig hdb auth dbOk).trans hnone

/-- What a step preserves of the registry. -/
theorem sessionStep_indexed (hr : s.registry.InOrder) (h : s.registry.Indexed) {op : SessionOp}
    (hstays : ¬ s.SignsInDeparted op) :
    (s.sessionStep op).registry.InOrder ∧ (s.sessionStep op).registry.Indexed := by
  have hserver : ∀ op : ServerOp, (s.step op).registry.InOrder ∧ (s.step op).registry.Indexed :=
    fun op => registry_step (fun r r' hr h hmove => hmove.indexed hr h)
      (fun r d rest hr h hd => h.workOff hd) hr h
  cases op with
  | server op => exact hserver op
  | overtakenLogin sid auth nowS dbOk =>
      by_cases hin : sid ∈ s.sessionTable
      · obtain ⟨hgone, hindexed⟩ := hserver (.shutdownComplete sid)
        obtain ⟨recent, accepted, hlogin⟩ := registry_overtakenLogin hin hstays
        have hstep : s.sessionStep (.overtakenLogin sid auth nowS dbOk) =
            (s.onShutdownComplete sid).authIdentity sid auth nowS dbOk := by
          simp only [sessionStep, getSession, if_pos hin]
        rw [hstep, hlogin]
        exact ⟨hgone.withAuths recent accepted, hindexed.congr rfl rfl rfl⟩
      · have hstep : s.sessionStep (.overtakenLogin sid auth nowS dbOk) = s := by
          simp only [sessionStep, getSession, if_neg hin]
        rw [hstep]
        exact ⟨hr, h⟩

theorem indexed_run {config : Config} {env : Environment} {ops : List SessionOp}
    (hstays : Machine.AllSteps sessionStep (fun s op => ¬ s.SignsInDeparted op) (new config env)
      ops) :
    (sessionRun config env ops).registry.InOrder ∧ (sessionRun config env ops).registry.Indexed := by
  have hnew : (new config env).registry.Indexed := by
    intro user sid hnames
    cases hnames
  have hstep : ∀ (s : Server) (op : SessionOp), s.registry.InOrder ∧ s.registry.Indexed →
      ¬ s.SignsInDeparted op → (s.sessionStep op).registry.InOrder ∧
        (s.sessionStep op).registry.Indexed :=
    fun _ _ h hop => sessionStep_indexed h.1 h.2 hop
  exact Machine.run_invariant hstep ⟨inOrder_new config env, hnew⟩ hstays

/-- At most one session in the table is signed in under a key; with no disconnect pending the
index of users holds exactly the signed-in sessions; and a disconnect event leaves every entry
alone that names another session. -/
def OneSession (s : Server) : Prop :=
  (∀ sid ∈ s.sessionTable, ∀ sid' ∈ s.sessionTable, (s.sessions sid).authenticated = true →
    (s.sessions sid').authenticated = true →
    (s.sessions sid).publicKey = (s.sessions sid').publicKey → sid = sid') ∧
  (s.disconnects = [] → ∀ user sid, s.userSessions user = some sid ↔
    sid ∈ s.sessionTable ∧ (s.sessions sid).authenticated = true ∧
      (s.sessions sid).userId = user) ∧
  ∀ d ∈ s.disconnects.head?, ∀ user sid, s.userSessions user = some sid → sid ≠ d.sessionId →
    (s.step .processDisconnect).userSessions user = some sid

/-- A user drops, is back before the event of the old session is worked off, and a login that is
overtaken comes with a timestamp that was used. -/
def staleDisconnect : List SessionOp :=
  [.server .connect, .server (login 1 1 1), .server (.shutdownComplete 1), .server .connect,
    .server (login 2 1 2), .server .connect,
    .overtakenLogin 3 { publicKey := [1], timestamp := 2 } 2 true]

/-- The connection of a user ends while the first login is at work. -/
def departedLogin : List SessionOp :=
  [.server .connect, .overtakenLogin 1 { publicKey := [1], timestamp := 1 } 1 true]

end Server

end Parties

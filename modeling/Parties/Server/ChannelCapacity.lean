import Parties.Server.RegistryRuns

/-!
# The capacity of channels

The only way into a channel is a join, and a join counts the sessions that are there
before it lets another one in. The joiner may be one of them: a member that joins its
own full channel again is turned away, though it would not take a place.
-/

namespace Parties

theorem Database.createUser_channels {db db' : Database} {key : PublicKey} {displayName : String}
    {role : Role} (hcreate : db.createUser key displayName role = some db') :
    db'.channels = db.channels ∧ db'.lastChannelId = db.lastChannelId := by
  unfold Database.createUser at hcreate
  split at hcreate
  · cases hcreate
  · obtain rfl := Option.some.inj hcreate
    exact ⟨rfl, rfl⟩

/-! ### The invariant -/

namespace Registry

/-- No channel holds more sessions than it may. The numbers of new channels are larger
than those of all channels the sessions are in. -/
structure Roomy (r : Registry) : Prop where
  nodup : r.table.Nodup
  known : ∀ sid ∈ r.table, (r.members sid).channelId.toNat ≤ r.db.lastChannelId
  fits : ∀ row ∈ r.db.channels, 0 < r.limit row → r.population row.id ≤ r.limit row

variable {o : Occasion} {r r' : Registry} {sid : SessionId} {channel : ChannelId}

/-- Nobody comes into a channel. -/
theorem population_mono (htable : r'.table.Sublist r.table)
    (hmembers : ∀ sid ∈ r'.table, (r'.members sid).authenticated = true →
      (r'.members sid).channelId = channel →
        (r.members sid).authenticated = true ∧ (r.members sid).channelId = channel) :
    r'.population channel ≤ r.population channel := by
  unfold population
  rw [← List.countP_eq_length_filter, ← List.countP_eq_length_filter]
  refine le_trans (List.countP_mono_left ?_) htable.countP_le
  intro sid hin hthere
  simp only [Bool.and_eq_true, decide_eq_true_eq] at hthere ⊢
  exact hmembers sid hin hthere.1 hthere.2

/-- A session goes out of its channel or stays there as it is. -/
def Settled (member member' : Member) : Prop :=
  member'.channelId = 0 ∨ member'.channelId = member.channelId ∧
    (member'.authenticated = true → member.authenticated = true)

theorem Settled.refl (member : Member) : Settled member member := Or.inr ⟨rfl, id⟩

theorem settled_modify {f : Member → Member} (hf : Settled (r.members sid) (f (r.members sid)))
    (other : SessionId) : Settled (r.members other) ((r.modify sid f).members other) := by
  by_cases hsid : other = sid
  · subst hsid
    rw [members_modify_self]
    exact hf
  · rw [members_modify_of_ne hsid]
    exact Settled.refl _

/-- A session that comes into a channel takes one place. -/
theorem population_setChannel (hnodup : r.table.Nodup) (hin : sid ∈ r.table)
    (hauth : (r.members sid).authenticated = true) (hout : (r.members sid).channelId ≠ channel) :
    (r.setChannel sid channel).population channel = r.population channel + 1 := by
  unfold population
  rw [show (r.setChannel sid channel).table = r.table from rfl]
  rw [← List.countP_eq_length_filter, ← List.countP_eq_length_filter]
  rw [(List.perm_cons_erase hin).countP_eq, (List.perm_cons_erase hin).countP_eq]
  rw [List.countP_cons_of_pos, List.countP_cons_of_neg]
  · -- the others stay where they are
    congr 1
    apply List.countP_congr
    intro other hother
    have hne : other ≠ sid := (hnodup.mem_erase_iff.mp hother).1
    simp [setChannel, modify, hne]
  · simp [hout]
  · simp [setChannel, modify, hauth]

namespace Roomy

/-- A change that brings nobody into a channel and adds no channel. -/
theorem mono (h : r.Roomy) (hr' : r'.InOrder) (hconfig : r'.config = r.config)
    (hchannels : ∀ row ∈ r'.db.channels, row ∈ r.db.channels)
    (hlast : r'.db.lastChannelId = r.db.lastChannelId) (htable : r'.table.Sublist r.table)
    (hmembers : ∀ sid ∈ r'.table, Settled (r.members sid) (r'.members sid)) : r'.Roomy where
  nodup := h.nodup.sublist htable
  known sid hin := by
    rw [hlast]
    rcases hmembers sid hin with hoff | ⟨hsame, _⟩
    · rw [hoff]
      exact Nat.zero_le _
    · rw [hsame]
      exact h.known sid (htable.subset hin)
  fits row hrow hpos := by
    have hlimit : r'.limit row = r.limit row := by
      unfold limit
      rw [hconfig]
    rw [hlimit] at hpos ⊢
    have hzero := (hr'.consistent.db.channels row hrow).1
    refine le_trans (Int.ofNat_le.mpr ?_) (h.fits row (hchannels row hrow) hpos)
    apply population_mono htable
    intro sid hin hauth hchannel
    rcases hmembers sid hin with hoff | ⟨hsame, hkept⟩
    · exact absurd (hchannel.symm.trans hoff) hzero
    · exact ⟨hkept hauth, hsame.symm.trans hchannel⟩

/-- The sessions stay, each where it is. -/
theorem same (h : r.Roomy) (hr' : r'.InOrder) (hconfig : r'.config = r.config)
    (hchannels : ∀ row ∈ r'.db.channels, row ∈ r.db.channels)
    (hlast : r'.db.lastChannelId = r.db.lastChannelId) (htable : r'.table = r.table)
    (hmembers : r'.members = r.members) : r'.Roomy := by
  apply h.mono hr' hconfig hchannels hlast (htable ▸ List.Sublist.refl _)
  intro sid _
  rw [hmembers]
  exact Settled.refl _

theorem connect (h : r.Roomy) (hr : r.InOrder) : r.connect.Roomy := by
  have hout : ∀ sid ∈ r.table, r.connect.members sid = r.members sid := by
    intro sid hin
    exact Function.update_of_ne (Nat.ne_of_lt (hr.consistent.lt_next sid hin)) ..
  have hnew : (r.connect.members r.next) = Session.member {} := Function.update_self ..
  have hfresh : r.next ∉ r.table := fun hin =>
    Nat.lt_irrefl _ (hr.consistent.lt_next r.next hin)
  constructor
  · show (r.table ++ [r.next]).Nodup
    exact List.nodup_append.mpr ⟨h.nodup, List.nodup_singleton _, by
      rintro sid hin other hother rfl
      rw [List.mem_singleton.mp hother] at hin
      exact hfresh hin⟩
  · intro sid hin
    rcases List.mem_append.mp hin with hold | hsid
    · rw [hout sid hold]
      exact h.known sid hold
    · rw [List.mem_singleton.mp hsid, hnew]
      exact Nat.zero_le _
  · intro row hrow hpos
    refine le_trans (Int.ofNat_le.mpr (le_of_eq ?_)) (h.fits row hrow hpos)
    unfold population
    rw [show r.connect.table = r.table ++ [r.next] from rfl, List.filter_append, List.length_append]
    rw [List.filter_singleton, hnew]
    rw [List.filter_congr fun sid hin => by rw [hout sid hin]]
    simp [Session.member]

/-- A join into a channel that is not full. -/
theorem enter (h : r.Roomy) (hr : r.InOrder) (hin : sid ∈ r.table)
    (hauth : (r.members sid).authenticated = true) (hoff : (r.members sid).channelId = 0)
    {row : ChannelRow} (hrow : r.db.getChannel channel = some row) (hroom : ¬ r.Full row) :
    (r.setChannel sid channel).Roomy := by
  obtain ⟨hstored, rfl⟩ := Database.getChannel_mem hrow
  obtain ⟨hzero, hle⟩ := hr.consistent.db.channels row hstored
  constructor
  · exact h.nodup
  · intro other hother
    by_cases hsid : other = sid
    · subst hsid
      simpa [setChannel, modify] using hle
    · simpa [setChannel, modify, hsid] using h.known other hother
  · intro other hother hpos
    have hlimit : 0 < r.limit other := hpos
    show ((r.setChannel sid row.id).population other.id : Int) ≤ r.limit other
    by_cases hid : other.id = row.id
    · obtain rfl : other = row :=
        List.inj_on_of_nodup_map (List.pairwise_map.mpr hr.consistent.db.distinctChannels)
          hother hstored hid
      have hout : (r.members sid).channelId ≠ other.id := by
        rw [hoff]
        exact hzero.symm
      rw [population_setChannel h.nodup hin hauth hout]
      by_contra hover
      apply hroom
      exact ⟨hlimit, by omega⟩
    · refine le_trans (Int.ofNat_le.mpr ?_) (h.fits other hother hlimit)
      apply population_mono (show (r.setChannel sid row.id).table.Sublist r.table from
        List.Sublist.refl _)
      intro sid' _ hauth' hchannel'
      by_cases hsid : sid' = sid
      · subst hsid
        rw [setChannel, members_modify_self] at hchannel'
        exact absurd hchannel'.symm hid
      · rw [setChannel, members_modify_of_ne hsid] at hauth' hchannel'
        exact ⟨hauth', hchannel'⟩

/-- Nobody is in a channel that is new. -/
theorem createChannel (h : r.Roomy) (hr : r.InOrder) {name : String} {maxUsers : Int}
    {db : Database} (hcreate : r.db.createChannel name maxUsers = some db) :
    ({ r with db := db } : Registry).Roomy := by
  obtain ⟨_, _, hlast, hchannels, hid⟩ := hr.consistent.db.createChannel hcreate
  constructor
  · exact h.nodup
  · intro sid hin
    rw [hlast]
    exact (h.known sid hin).trans (Nat.le_succ _)
  · intro row hrow hpos
    rw [hchannels] at hrow
    rcases List.mem_append.mp hrow with hold | hnew
    · exact h.fits row hold hpos
    · obtain rfl := List.mem_singleton.mp hnew
      have hempty : r.population (BitVec.ofNat 32 (r.db.lastChannelId + 1)) = 0 := by
        unfold population
        rw [List.length_eq_zero_iff, List.filter_eq_nil_iff]
        intro sid hin hthere
        simp only [Bool.and_eq_true, decide_eq_true_eq] at hthere
        have hle := h.known sid hin
        rw [hthere.2, hid] at hle
        exact Nat.not_succ_le_self _ hle
      show (r.population (BitVec.ofNat 32 (r.db.lastChannelId + 1)) : Int) ≤ _
      rw [hempty]
      exact le_of_lt hpos

/-- The end of a departed session moves nobody. -/
theorem workOff (h : r.Roomy) (hr : r.InOrder) {d : SessionDisconnect}
    {rest : List SessionDisconnect} (hd : r.disconnects = d :: rest) : (r.workOff d rest).Roomy := by
  obtain ⟨htable, hmembers, _, hdb⟩ := processDisconnect_frame { r with disconnects := rest }
    d.sessionId d.userId d.channelId
  apply h.same (hr.workOff hd) (config_processDisconnect ..)
  · intro row hrow
    rw [show (r.workOff d rest).db = r.db from hdb] at hrow
    exact hrow
  · rw [show (r.workOff d rest).db = r.db from hdb]
  · exact htable
  · exact hmembers

end Roomy

theorem Move.roomy (hmove : Move o r r') (hr : r.InOrder) (h : r.Roomy) : r'.Roomy := by
  have hr' : r'.InOrder := (hmove.keeps hr).inOrder
  cases hmove with
  | connect => exact h.connect hr
  | enter sid channel row hin hauth hidle hoff hrow hroom => exact h.enter hr hin hauth hoff hrow hroom
  | createChannel name maxUsers db hcreate => exact h.createChannel hr hcreate
  | prune | accept | stop | publish | restore | watch | unwatch =>
      exact h.same hr' rfl (fun _ => id) rfl rfl rfl
  | register key displayName role db hnew hcreate hrole =>
      obtain ⟨hchannels, hlast⟩ := Database.createUser_channels hcreate
      exact h.same hr' rfl (fun row hrow => hchannels ▸ hrow) hlast rfl rfl
  | deleteChannel channel =>
      exact h.same hr' rfl (fun row hrow => List.mem_of_mem_filter hrow) rfl rfl rfl
  | retire sid =>
      apply h.mono hr' rfl (fun _ => id) rfl (List.Sublist.refl _)
      intro other _
      exact settled_modify (f := fun member => { member with alive := false }) (Or.inr ⟨rfl, id⟩) other
  | depart sid hin =>
      apply h.mono hr' rfl (fun _ => id) rfl List.filter_sublist
      intro other _
      exact settled_modify (f := fun member => { member with alive := false }) (Or.inr ⟨rfl, id⟩) other
  | replace sid hin hauth =>
      obtain ⟨htable, hmembers, _, hdb⟩ := processDisconnect_frame r sid (r.members sid).userId
        (r.members sid).channelId
      have hdb' : (r.replace sid).db = r.db := hdb
      apply h.mono hr' (config_processDisconnect ..)
      · intro row hrow
        rw [hdb'] at hrow
        exact hrow
      · rw [hdb']
      · rw [show (r.replace sid).table = r.table from htable]
      · intro other _
        rw [Registry.replace, modify, hmembers]
        exact settled_modify (f := fun member =>
          { member with channelId := 0, authenticated := false, alive := false }) (Or.inl rfl) other
  | signIn sid user key role hlogin hin hout hknows honly hrole =>
      apply h.mono hr' rfl (fun _ => id) rfl (List.Sublist.refl _)
      intro other _
      exact settled_modify (f := fun member =>
        { member with authenticated := true, userId := user, publicKey := key, role := role })
        (Or.inl (hr.consistent.home sid hin hout)) other
  | leave sid hin hauth =>
      apply h.mono hr' rfl (fun _ => id) rfl (List.Sublist.refl _)
      intro other _
      exact settled_modify (f := fun member => { member with channelId := 0 }) (Or.inl rfl) other
  | evict sid hauth hidle =>
      apply h.mono hr' rfl (fun _ => id) rfl (List.Sublist.refl _)
      intro other _
      exact settled_modify (f := fun member => { member with channelId := 0 }) (Or.inl rfl) other
  | setRole sid target newRole user hin hauth hmay hnot hbelow huser hover howner =>
      have hdb : (if o.dbOk then r.db.setUserRole target newRole else r.db).channels =
          r.db.channels ∧ (if o.dbOk then r.db.setUserRole target newRole
            else r.db).lastChannelId = r.db.lastChannelId := by
        split <;> exact ⟨rfl, rfl⟩
      apply h.mono hr' rfl (fun row hrow => hdb.1 ▸ hrow) hdb.2 (List.Sublist.refl _)
      intro other _
      show Settled (r.members other) (if other ∈ r.table ∧ (r.members other).userId = target then
        { r.members other with role := newRole } else r.members other)
      split
      · exact Or.inr ⟨rfl, id⟩
      · exact Settled.refl _

end Registry

/-! ### Runs -/

namespace Server

variable {s : Server} {sid : SessionId} {channel : ChannelId}

theorem roomy_run (config : Config) (env : Environment) (ops : List ServerOp) :
    (run config env ops).registry.Roomy := by
  refine registry_run ?_ ?_ ?_ ops
  · constructor
    · exact List.nodup_nil
    · intro sid hin
      cases hin
    · intro row hrow
      cases hrow
  · intro o r r' hr h hmove
    exact hmove.roomy hr h
  · intro r d rest hr h hd
    exact h.workOff hr hd

/-- No channel holds more signed-in sessions than its limit. -/
def WithinCapacity (s : Server) : Prop :=
  ∀ row ∈ s.db.channels, 0 < s.registry.limit row →
    s.registry.population row.id ≤ s.registry.limit row

/-- A `CHANNEL_JOIN` is answered with "Channel is full". -/
def RefusedAsFull (s : Server) (sid : SessionId) (channel : ChannelId) : Prop :=
  sid ∈ s.sessionTable ∧ (s.sessions sid).authenticated = true ∧
    s.checkJoin sid channel = .error "Channel is full"

/-- A join is refused as full only if the channel would be over its limit with the joiner. -/
def RefusedForRoom (s : Server) (sid : SessionId) (channel : ChannelId) : Prop :=
  s.RefusedAsFull sid channel → ∃ row, s.db.getChannel channel = some row ∧
    s.registry.limit row < (s.registry.setChannel sid channel).population channel

/-- A member of a full channel may join it again. -/
def MemberOfFull (s : Server) (sid : SessionId) (channel : ChannelId) : Prop :=
  sid ∈ s.sessionTable ∧ (s.sessions sid).authenticated = true ∧
    (s.sessions sid).channelId = channel ∧
    hasPermission (s.sessions sid).role Permissions.JOIN_CHANNEL
      (s.db.channelPermission channel (s.sessions sid).role) = true ∧
    ∃ row, s.db.getChannel channel = some row ∧ s.registry.Full row

/-- What it takes for a join to be refused as full. -/
theorem checkJoin_full : s.checkJoin sid channel = .error "Channel is full" ↔
    hasPermission (s.sessions sid).role Permissions.JOIN_CHANNEL
      (s.db.channelPermission channel (s.sessions sid).role) = true ∧
    ∃ row, s.db.getChannel channel = some row ∧ s.registry.Full row := by
  have hunknown : ¬ (.error "Channel not found" : Except String Unit) =
      .error "Channel is full" := fun h => absurd (Except.error.inj h) (by decide)
  have hdenied : ¬ (.error "Permission denied" : Except String Unit) =
      .error "Channel is full" := fun h => absurd (Except.error.inj h) (by decide)
  unfold checkJoin
  cases hrow : s.db.getChannel channel with
  | none =>
      constructor
      · intro h
        exact absurd h hunknown
      · rintro ⟨_, row, hsome, _⟩
        cases hsome
  | some row =>
      have hfull : 0 < (if 0 < row.maxUsers then row.maxUsers else s.config.maxUsersPerChannel) ∧
          (if 0 < row.maxUsers then row.maxUsers else s.config.maxUsersPerChannel) ≤
            (s.channelUsers channel).length ↔ s.registry.Full row := by
        rw [length_channelUsers, ← (Database.getChannel_mem hrow).2]
        exact Iff.rfl
      dsimp only
      split
      next hmay =>
        simp only [Bool.not_eq_true'] at hmay
        rw [hmay]
        constructor
        · intro h
          exact absurd h hdenied
        · rintro ⟨hpermission, _⟩
          cases hpermission
      next hmay =>
        simp only [Bool.not_eq_true', Bool.not_eq_false] at hmay
        by_cases hover : s.registry.Full row
        · rw [if_pos (hfull.mpr hover)]
          exact ⟨fun _ => ⟨hmay, row, rfl, hover⟩, fun _ => rfl⟩
        · rw [if_neg (mt hfull.mp hover)]
          constructor
          · intro h
            cases h
          · rintro ⟨_, other, hsome, hother⟩
            obtain rfl := Option.some.inj hsome
            exact absurd hother hover

/-- A join that is refused changes nothing and is answered. -/
theorem step_refusedAsFull (h : s.RefusedAsFull sid channel) (voiceState : Option (Bool × Bool)) :
    s.step (.message sid (.channelJoin channel voiceState)) = s.sendError sid "Channel is full" := by
  obtain ⟨hin, hauth, hcheck⟩ := h
  simp only [step, handleMessage, getSession, if_pos hin, channelJoin, hauth, hcheck]
  rfl

/-- The refusal is unfounded exactly for a member of the channel. -/
theorem refusedForRoom_iff (h : s.registry.Roomy) :
    s.RefusedForRoom sid channel ↔ ¬ s.MemberOfFull sid channel := by
  constructor
  · rintro hroom ⟨hin, hauth, hmember, hmay, row, hrow, hfull⟩
    obtain ⟨row', hrow', hover⟩ :=
      hroom ⟨hin, hauth, checkJoin_full.mpr ⟨hmay, row, hrow, hfull⟩⟩
    obtain rfl := Option.some.inj (hrow.symm.trans hrow')
    obtain ⟨hstored, rfl⟩ := Database.getChannel_mem hrow
    have hsame : s.registry.setChannel sid row.id = s.registry := by
      simp [Registry.setChannel, Registry.modify, ← hmember, registry, Session.member]
    rw [hsame] at hover
    exact absurd (h.fits row hstored hfull.1) (Int.not_le.mpr hover)
  · rintro hnot ⟨hin, hauth, hcheck⟩
    obtain ⟨hmay, row, hrow, hfull⟩ := checkJoin_full.mp hcheck
    have hout : (s.registry.members sid).channelId ≠ channel := fun hmember =>
      hnot ⟨hin, hauth, hmember, hmay, row, hrow, hfull⟩
    refine ⟨row, hrow, ?_⟩
    obtain ⟨_, rfl⟩ := Database.getChannel_mem hrow
    rw [Registry.population_setChannel h.nodup hin hauth hout]
    have hle := hfull.2
    omega

/-- In every reachable state no channel is over its limit, and a join is refused as full
for want of room, unless it comes from a member of the channel. -/
theorem channel_capacity (config : Config) (env : Environment) (ops : List ServerOp) :
    (run config env ops).WithinCapacity ∧ ∀ sid channel,
      (run config env ops).RefusedForRoom sid channel ↔
        ¬ (run config env ops).MemberOfFull sid channel :=
  ⟨(roomy_run config env ops).fits,
    fun _ _ => refusedForRoom_iff (roomy_run config env ops)⟩

/-- The only member of a channel for one is refused in it. -/
theorem not_channel_capacity : ¬ ∀ config env ops, (run config env ops).WithinCapacity ∧
    ∀ sid channel, (run config env ops).RefusedForRoom sid channel := by
  intro h
  have hroom := (h .small (.ticking 1) [.connect, login 1 0 1,
    .message 1 (.adminCreateChannel "booth" 1 true), .message 1 (.channelJoin 1 none)]).2 1 1
  refine (refusedForRoom_iff (roomy_run ..)).mp hroom ⟨by decide +kernel, by decide +kernel,
    by decide +kernel, by decide +kernel, ⟨1, "booth", 1, 0⟩, by decide +kernel, ?_⟩
  exact ⟨by decide +kernel, by decide +kernel⟩

end Server

end Parties

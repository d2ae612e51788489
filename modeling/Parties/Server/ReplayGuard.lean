import Parties.Server.RegistryRuns

/-!
# The replay guard

For each identity the server keeps the timestamp it accepted last and takes only newer
ones, and it forgets a timestamp when it is too old to be fresh again. The first
comparison is of unsigned numbers, the second of signed ones. They agree on timestamps
below `2 ^ 63`; a fresh timestamp above is one from before the epoch, which only a
clock that has just started there lets in.
-/

namespace Parties

/-! ### The invariant -/

namespace Registry

/-- What was accepted for a fingerprint, oldest first. -/
def acceptedOf (r : Registry) (fp : Fingerprint) : List (BitVec 64) :=
  (r.acceptedAuths.filter fun accepted => r.config.publicKeyFingerprint accepted.1 = fp).map
    Prod.snd

/-- At the time `now` an accepted timestamp is either covered by the entry of its
fingerprint or out of the window for good. -/
structure Guarded (now : Int) (r : Registry) : Prop where
  entries : ∀ fp seen, r.recentAuth fp = some seen → 0 ≤ seen.toInt
  accepted : ∀ fp, ∀ timestamp ∈ r.acceptedOf fp,
    (∃ seen, r.recentAuth fp = some seen ∧ timestamp.toInt ≤ seen.toInt) ∨
      timestamp.toInt < now - AUTH_WINDOW_SEC
  dated : ∀ fp, ∀ timestamp ∈ r.acceptedOf fp, 0 ≤ timestamp.toInt
  increasing : ∀ fp, (r.acceptedOf fp).Pairwise fun t t' => t.toInt < t'.toInt

/-- Timestamps below `2 ^ 63` are ordered the same way signed and unsigned. -/
theorem toInt_lt_of_lt {t t' : BitVec 64} (ht : 0 ≤ t.toInt) (h' : 0 ≤ t'.toInt) :
    t.toInt < t'.toInt ↔ t < t' := by
  have hlt := t.isLt
  have hlt' := t'.isLt
  rw [BitVec.lt_def]
  rw [BitVec.toInt_eq_toNat_cond] at ht h' ⊢
  rw [BitVec.toInt_eq_toNat_cond]
  omega

variable {o : Occasion} {r r' : Registry} {now : Int}

namespace Guarded

/-- The clock moves on. -/
theorem later (h : r.Guarded now) {now' : Int} (hle : now ≤ now') : r.Guarded now' where
  entries := h.entries
  accepted fp timestamp hin := by
    rcases h.accepted fp timestamp hin with hcovered | hexpired
    · exact Or.inl hcovered
    · right
      omega
  dated := h.dated
  increasing := h.increasing

theorem congr (h : r.Guarded now) (hconfig : r'.config = r.config)
    (hrecent : r'.recentAuth = r.recentAuth) (haccepted : r'.acceptedAuths = r.acceptedAuths) :
    r'.Guarded now := by
  have hof : ∀ fp, r'.acceptedOf fp = r.acceptedOf fp := by
    intro fp
    unfold acceptedOf
    rw [hconfig, haccepted]
  constructor
  · rw [hrecent]
    exact h.entries
  · intro fp
    rw [hrecent, hof]
    exact h.accepted fp
  · intro fp
    rw [hof]
    exact h.dated fp
  · intro fp
    rw [hof]
    exact h.increasing fp

/-- What pruning forgets is out of the window. -/
theorem prune (h : r.Guarded now) {clock : BitVec 64} (hnow : clock.toInt = now) :
    (r.pruneRecentAuth clock).Guarded now where
  entries fp seen hseen := h.entries fp seen (Option.filter_eq_some_iff.mp hseen).1
  accepted fp timestamp hin := by
    rcases h.accepted fp timestamp hin with ⟨seen, hseen, hle⟩ | hexpired
    · by_cases hkeep : clock.toInt - seen.toInt ≤ AUTH_WINDOW_SEC
      · exact Or.inl ⟨seen, Option.filter_eq_some_iff.mpr ⟨hseen, decide_eq_true hkeep⟩, hle⟩
      · right
        omega
    · exact Or.inr hexpired
  dated := h.dated
  increasing := h.increasing

theorem acceptedOf_acceptAuth (key : PublicKey) (timestamp : BitVec 64) (fp : Fingerprint) :
    (r.acceptAuth key timestamp).acceptedOf fp = r.acceptedOf fp ++
      if r.config.publicKeyFingerprint key = fp then [timestamp] else [] := by
  unfold acceptedOf acceptAuth
  rw [List.filter_append, List.map_append]
  congr 1
  by_cases hfp : r.config.publicKeyFingerprint key = fp
  · simp [hfp]
  · simp [hfp]

/-- A fresh timestamp newer than the entry is newer than everything accepted. -/
theorem accept (h : r.Guarded now) {clock timestamp : BitVec 64} {key : PublicKey}
    (hnow : clock.toInt = now) (hfresh : clock.toInt - timestamp.toInt ≤ AUTH_WINDOW_SEC)
    (hdated : 0 ≤ timestamp.toInt)
    (hnewer : ∀ seen, r.recentAuth (r.config.publicKeyFingerprint key) = some seen →
      seen < timestamp) : (r.acceptAuth key timestamp).Guarded now := by
  have hself : (r.acceptAuth key timestamp).recentAuth (r.config.publicKeyFingerprint key) =
      some timestamp := Function.update_self ..
  have hother : ∀ fp, fp ≠ r.config.publicKeyFingerprint key →
      (r.acceptAuth key timestamp).recentAuth fp = r.recentAuth fp :=
    fun fp hne => Function.update_of_ne hne ..
  have hlater : ∀ t ∈ r.acceptedOf (r.config.publicKeyFingerprint key),
      t.toInt < timestamp.toInt := by
    intro t ht
    rcases h.accepted _ t ht with ⟨seen, hseen, hle⟩ | hexpired
    · have hlt := (toInt_lt_of_lt (h.entries _ seen hseen) hdated).mpr (hnewer seen hseen)
      omega
    · omega
  constructor
  · intro fp seen hseen
    by_cases hfp : fp = r.config.publicKeyFingerprint key
    · rw [hfp, hself] at hseen
      obtain rfl := Option.some.inj hseen
      exact hdated
    · rw [hother fp hfp] at hseen
      exact h.entries fp seen hseen
  · intro fp t ht
    rw [acceptedOf_acceptAuth] at ht
    by_cases hfp : fp = r.config.publicKeyFingerprint key
    · subst hfp
      left
      refine ⟨timestamp, hself, ?_⟩
      rw [if_pos rfl] at ht
      rcases List.mem_append.mp ht with ht | ht
      · exact (hlater t ht).le
      · rw [List.mem_singleton.mp ht]
    · rw [if_neg (Ne.symm hfp), List.append_nil] at ht
      rw [hother fp hfp]
      exact h.accepted fp t ht
  · intro fp t ht
    rw [acceptedOf_acceptAuth] at ht
    rcases List.mem_append.mp ht with ht | ht
    · exact h.dated fp t ht
    · split at ht
      · rw [List.mem_singleton.mp ht]
        exact hdated
      · cases ht
  · intro fp
    rw [acceptedOf_acceptAuth]
    split
    next hfp =>
      subst hfp
      apply List.pairwise_append.mpr
      refine ⟨h.increasing _, List.pairwise_singleton _ _, ?_⟩
      intro t ht t' ht'
      rw [List.mem_singleton.mp ht']
      exact hlater t ht
    · rw [List.append_nil]
      exact h.increasing fp

end Guarded

/-- The end of a session does not touch the replay guard. -/
theorem processDisconnect_guard (r : Registry) (sid : SessionId) (user : UserId)
    (channel : ChannelId) :
    (r.processDisconnect sid user channel).config = r.config ∧
      (r.processDisconnect sid user channel).recentAuth = r.recentAuth ∧
      (r.processDisconnect sid user channel).acceptedAuths = r.acceptedAuths := by
  unfold processDisconnect endSession
  dsimp only
  split <;> exact ⟨rfl, rfl, rfl⟩

theorem Move.guarded (hmove : Move o r r') (h : r.Guarded now)
    (hnow : ∀ clock, o.now = some clock → clock.toInt = now) (hearly : o.early = false) :
    r'.Guarded now := by
  cases hmove with
  | prune clock hclock => exact h.prune (hnow clock hclock)
  | accept clock key timestamp hclock hfresh hdated hpruned hnewer =>
      exact h.accept (hnow clock hclock) hfresh (hdated hearly) hnewer
  | replace sid hin hauth =>
      obtain ⟨hconfig, hrecent, haccepted⟩ := processDisconnect_guard r sid
        (r.members sid).userId (r.members sid).channelId
      exact h.congr hconfig hrecent haccepted
  | connect | retire | depart | register | restore | signIn | leave | enter | evict | stop
  | publish | watch | unwatch | createChannel | deleteChannel | setRole => exact h.congr rfl rfl rfl

end Registry

/-! ### Runs -/

namespace Server

/-- The clock readings of the logins of a run. -/
def clockReadings (ops : List ServerOp) : List Int :=
  ops.filterMap fun
    | .message _ (.authIdentity _ nowS _) => some nowS.toInt
    | _ => none

/-- What was accepted for a fingerprint, oldest first. -/
def acceptedOf (s : Server) (fp : Fingerprint) : List (BitVec 64) :=
  (s.acceptedAuths.filter fun accepted => s.config.publicKeyFingerprint accepted.1 = fp).map
    Prod.snd

/-- No login dated before the epoch is fresh. -/
def DatedLogins : ServerOp → Prop
  | .message _ (.authIdentity auth nowS _) => Fresh auth nowS → 0 ≤ auth.timestamp.toInt
  | _ => True

instance DatedLogins.decidable : DecidablePred DatedLogins
  | .message _ message =>
    match message with
    | .authIdentity auth nowS _ =>
      inferInstanceAs (Decidable (Fresh auth nowS → 0 ≤ auth.timestamp.toInt))
    | .channelJoin _ _ | .channelLeave | .adminCreateChannel _ _ _ | .adminDeleteChannel _ _
    | .adminSetRole _ _ _ | .adminKickUser _ | .screenShareStart _ _ _ _
    | .screenShareUpdate _ _ _ _ | .screenShareStop _ | .screenShareView _ _ => isTrue trivial
  | .connect | .shutdownComplete _ | .videoFrame _ _ _ | .videoFrameStarted _ _ _
  | .videoFrameAborted _ _ _ | .videoOutShutdown _ _ | .videoControl _ _ _
  | .processVideoFrame | .beginPass | .pollIngress _ | .sendDeferred _ | .processDisconnect =>
    isTrue trivial

variable {s : Server} {now : Int}

theorem early_occasion {op : ServerOp} (h : DatedLogins op) : (s.occasion op).early = false := by
  unfold occasion
  split
  next auth nowS dbOk =>
    refine decide_eq_false ?_
    rintro ⟨hfresh, hneg⟩
    have hnonneg : 0 ≤ auth.timestamp.toInt := h hfresh
    omega
  · rfl
  · rfl

theorem now_occasion {op : ServerOp} {clock : BitVec 64} (h : (s.occasion op).now = some clock) :
    clockReadings [op] = [clock.toInt] := by
  unfold occasion at h
  split at h
  · rw [← Option.some.inj h]
    rfl
  · cases h
  · cases h

theorem clockReadings_cons (op : ServerOp) (ops : List ServerOp) :
    clockReadings (op :: ops) = clockReadings [op] ++ clockReadings ops := by
  rw [← List.singleton_append]
  exact List.filterMap_append

/-- A step at the time `now`, if it reads the clock at all. -/
theorem guarded_step (hr : s.registry.InOrder) (h : s.registry.Guarded now) {op : ServerOp}
    (hnow : ∀ clock ∈ clockReadings [op], clock = now) (hdated : DatedLogins op) :
    (s.step op).registry.Guarded now := by
  by_cases hop : op = .processDisconnect
  · subst hop
    cases hd : s.disconnects with
    | nil =>
        have hsame : s.step .processDisconnect = s := by simp [step, processDisconnects, hd]
        rw [hsame]
        exact h
    | cons d rest =>
        rw [step, registry_processDisconnects hd]
        obtain ⟨hconfig, hrecent, haccepted⟩ := Registry.processDisconnect_guard
          { s.registry with disconnects := rest } d.sessionId d.userId d.channelId
        exact h.congr hconfig hrecent haccepted
  · refine Registry.Moves.invariant (fun r r' hinv hmove => ?_) h (moves_step hr op hop)
    refine hmove.guarded hinv (fun clock hclock => hnow _ ?_) (early_occasion hdated)
    rw [now_occasion hclock]
    exact List.mem_singleton_self _

theorem guarded_ops (hr : s.registry.InOrder) (h : s.registry.Guarded now) {ops : List ServerOp}
    (hclock : (clockReadings ops).Pairwise (· ≤ ·)) (hlater : ∀ clock ∈ clockReadings ops, now ≤ clock)
    (hdated : ∀ op ∈ ops, DatedLogins op) :
    ∃ now', (Machine.run step s ops).registry.Guarded now' := by
  induction ops generalizing s now with
  | nil => exact ⟨now, h⟩
  | cons op ops ih =>
      rw [clockReadings_cons] at hclock hlater
      obtain ⟨_, hrest, hcross⟩ := List.pairwise_append.mp hclock
      have hop := hdated op List.mem_cons_self
      have hops : ∀ op ∈ ops, DatedLogins op := fun op' hin => hdated op' (List.mem_cons_of_mem _ hin)
      cases hread : clockReadings [op] with
      | nil =>
          have hstep : (s.step op).registry.Guarded now :=
            guarded_step hr h (by simp [hread]) hop
          refine ih (inOrder_step hr op) hstep hrest ?_ hops
          intro clock hin
          exact hlater clock (List.mem_append_right _ hin)
      | cons clock none =>
          -- a step reads the clock once
          have hnone : none = [] := by
            have hlen : (clockReadings [op]).length ≤ 1 := List.length_filterMap_le _ [op]
            rw [hread, List.length_cons] at hlen
            exact List.eq_nil_of_length_eq_zero (by omega)
          subst hnone
          have hin : clock ∈ clockReadings [op] := by simp [hread]
          have hmoved := h.later (hlater clock (List.mem_append_left _ hin))
          have hstep : (s.step op).registry.Guarded clock :=
            guarded_step hr hmoved (by simp [hread]) hop
          refine ih (inOrder_step hr op) hstep hrest ?_ hops
          intro clock' hin'
          exact hcross clock hin clock' hin'

theorem guarded_new (config : Config) (env : Environment) :
    (new config env).registry.Guarded now where
  entries := fun _ _ hseen => by cases hseen
  accepted := fun _ _ hin => by cases hin
  dated := fun _ _ hin => by cases hin
  increasing := fun _ => List.Pairwise.nil

/-- Timestamps that increase for each fingerprint make the pairs distinct. -/
theorem nodup_acceptedAuths (h : ∀ fp, (s.acceptedOf fp).Pairwise (· < ·)) :
    s.acceptedAuths.Nodup := by
  unfold acceptedOf at h
  generalize s.acceptedAuths = accepted at h
  induction accepted with
  | nil => exact List.nodup_nil
  | cons first rest ih =>
      refine List.nodup_cons.mpr ⟨fun hin => ?_, ih fun fp => ?_⟩
      · have hpair := h (s.config.publicKeyFingerprint first.1)
        rw [List.filter_cons_of_pos (by simp), List.map_cons] at hpair
        have hlt := (List.pairwise_cons.mp hpair).1 first.2
          (List.mem_map_of_mem (List.mem_filter.mpr ⟨hin, by simp⟩))
        exact absurd hlt (BitVec.lt_irrefl _)
      · have hpair := h fp
        rw [List.filter_cons] at hpair
        split at hpair
        · exact (List.pairwise_cons.mp hpair).2
        · exact hpair

/-- With a clock that does not go back, the timestamps accepted for a fingerprint
increase, and no key is accepted twice with one timestamp. -/
theorem accepted_increasing (config : Config) (env : Environment) (ops : List ServerOp)
    (hclock : (clockReadings ops).Pairwise (· ≤ ·)) (hdated : ∀ op ∈ ops, DatedLogins op) :
    (∀ fp, ((run config env ops).acceptedOf fp).Pairwise (· < ·)) ∧
      (run config env ops).acceptedAuths.Nodup := by
  -- a time before every reading
  obtain ⟨start, hstart⟩ : ∃ start, ∀ clock ∈ clockReadings ops, start ≤ clock := by
    cases hreadings : clockReadings ops with
    | nil => exact ⟨0, fun _ hin => by cases hin⟩
    | cons first rest =>
        rw [hreadings] at hclock
        refine ⟨first, fun clock hin => ?_⟩
        rcases List.mem_cons.mp hin with rfl | hin
        · exact le_rfl
        · exact (List.pairwise_cons.mp hclock).1 clock hin
  obtain ⟨now, hguarded⟩ :=
    guarded_ops (inOrder_new config env) (guarded_new config env) hclock hstart hdated
  have hincreasing : ∀ fp, ((run config env ops).acceptedOf fp).Pairwise (· < ·) := by
    intro fp
    refine (hguarded.increasing fp).imp_of_mem ?_
    intro t t' ht ht' hlt
    exact (Registry.toInt_lt_of_lt (hguarded.dated fp t ht) (hguarded.dated fp t' ht')).mp hlt
  exact ⟨hincreasing, nodup_acceptedAuths hincreasing⟩

/-! ### Runs that need the condition, and one that meets it -/

/-- A login sent again on another connection. -/
def loginAt (sid : SessionId) (key : UInt8) (timestamp nowS : BitVec 64) : ServerOp :=
  .message sid (.authIdentity { publicKey := [key], timestamp := timestamp } nowS true)

/-- A login that is dated ahead is forgotten only when it is too old. -/
theorem accepted_increasing_replayed :
    (run .small (.ticking 1) [.connect, .connect, .connect, loginAt 1 1 130 100,
      loginAt 2 1 130 110, loginAt 2 1 120 120, loginAt 3 2 161 161,
      loginAt 2 1 130 161, loginAt 2 1 162 162]).acceptedAuths =
      [([1], 130), ([2], 161), ([1], 162)] ∧
    (run .small (.ticking 1) [.connect, .connect, .connect, loginAt 1 1 130 100,
      loginAt 2 1 130 110, loginAt 2 1 120 120, loginAt 3 2 161 161,
      loginAt 2 1 130 161, loginAt 2 1 162 162]).acceptedAuths.Nodup :=
  ⟨by decide +kernel, (accepted_increasing .small (.ticking 1) _ (by decide) (by decide)).2⟩

/-- Three seconds after the epoch a login is accepted, then one dated five seconds before
it. That one is the newer of the two when they are compared, and the older one when it is
forgotten: the first login is accepted again. -/
theorem not_accepted_increasing :
    ¬ ∀ config env ops, (clockReadings ops).Pairwise (· ≤ ·) →
      (∀ fp, ((run config env ops).acceptedOf fp).Pairwise (· < ·)) ∧
        (run config env ops).acceptedAuths.Nodup := by
  intro h
  have hnodup := (h .small (.ticking 1) [.connect, .connect, .connect, loginAt 1 1 3 3,
    loginAt 2 1 (-5) 3, loginAt 3 1 3 26] (by decide)).2
  have haccepted : (run .small (.ticking 1) [.connect, .connect, .connect, loginAt 1 1 3 3,
      loginAt 2 1 (-5) 3, loginAt 3 1 3 26]).acceptedAuths = [([1], 3), ([1], -5), ([1], 3)] := by
    decide +kernel
  rw [haccepted] at hnodup
  revert hnodup
  decide

end Server

end Parties

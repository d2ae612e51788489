import Mathlib.Order.Bounds.Defs
import Parties.Video.RateController

/-!
# The base round trip time

The controller keeps two minima of the round trip times it is told, of the block of
samples that is being filled and of the one before it. What a block is depends on the
times of the samples alone: a sample that comes at least `BLOCK_US` after the start of
its block begins the next one.
-/

namespace Parties.Video

structure RttSample where
  timeUs : Int
  rttUs : Nat
deriving DecidableEq, Repr

namespace RttSample

/-! ### Blocks -/

/-- The start of a block. Time 0 is no start, the next sample makes up for it. -/
def start? (block : List RttSample) : Option Int := (block.map timeUs).find? (· ≠ 0)

def opensBlock (block : List RttSample) (s : RttSample) : Bool :=
  match start? block with
  | none => false
  | some start => decide (RateController.BLOCK_US ≤ s.timeUs - start)

/-- The blocks, the newest first. -/
def addToBlocks (s : RttSample) : List (List RttSample) → List (List RttSample)
  | [] => [[s]]
  | block :: older =>
    if opensBlock block s then [s] :: block :: older else (block ++ [s]) :: older

def blocks (samples : List RttSample) : List (List RttSample) :=
  samples.foldl (fun blocks s => addToBlocks s blocks) []

def current (samples : List RttSample) : List RttSample := (blocks samples).headD []

def previous (samples : List RttSample) : List RttSample := (blocks samples).tail.headD []

theorem blocks_concat (samples : List RttSample) (s : RttSample) :
    blocks (samples ++ [s]) = addToBlocks s (blocks samples) := List.foldl_concat ..

theorem start?_concat (block : List RttSample) (s : RttSample) :
    start? (block ++ [s]) = (start? block).or (if s.timeUs ≠ 0 then some s.timeUs else none) := by
  simp only [start?, List.map_append, List.find?_append, List.map_cons, List.map_nil]
  congr 1
  by_cases hzero : s.timeUs = 0 <;> simp [hzero]

theorem start?_ne_zero {block : List RttSample} {start : Int} (h : start? block = some start) :
    start ≠ 0 := by
  have hfound := List.find?_some h
  simpa using hfound

theorem flatten_addToBlocks (s : RttSample) (blocks : List (List RttSample)) :
    (addToBlocks s blocks).reverse.flatten = blocks.reverse.flatten ++ [s] := by
  cases blocks with
  | nil => rfl
  | cons block older =>
      rw [addToBlocks]
      split <;> simp

/-- The blocks hold the samples, in their order. -/
theorem flatten_blocks (samples : List RttSample) :
    (blocks samples).reverse.flatten = samples := by
  induction samples using List.reverseRecOn with
  | nil => rfl
  | append_singleton samples s ih => rw [blocks_concat, flatten_addToBlocks, ih]

theorem block_ne_nil {samples : List RttSample} :
    ∀ block ∈ blocks samples, block ≠ [] := by
  induction samples using List.reverseRecOn with
  | nil => exact fun block h => nomatch h
  | append_singleton samples s ih =>
      rw [blocks_concat]
      cases hblocks : blocks samples with
      | nil => simp [addToBlocks]
      | cons block older =>
          rw [hblocks] at ih
          have holder := fun b hb => ih b (List.mem_cons_of_mem block hb)
          have hblock := ih block List.mem_cons_self
          rw [addToBlocks]
          split
          · simp only [List.forall_mem_cons]
            exact ⟨List.cons_ne_nil _ _, hblock, holder⟩
          · simp only [List.forall_mem_cons]
            exact ⟨by simp, holder⟩

theorem mem_of_mem_current {samples : List RttSample} {s : RttSample}
    (h : s ∈ current samples) : s ∈ samples := by
  rw [← flatten_blocks samples, List.mem_flatten]
  unfold current at h
  cases hblocks : blocks samples with
  | nil => simp [hblocks] at h
  | cons block older =>
      rw [hblocks] at h
      exact ⟨block, by simp, h⟩

theorem mem_of_mem_previous {samples : List RttSample} {s : RttSample}
    (h : s ∈ previous samples) : s ∈ samples := by
  rw [← flatten_blocks samples, List.mem_flatten]
  unfold previous at h
  cases hblocks : blocks samples with
  | nil => simp [hblocks] at h
  | cons block older =>
      cases older with
      | nil => simp [hblocks] at h
      | cons before older =>
          rw [hblocks] at h
          exact ⟨before, by simp, h⟩

/-! ### The minimum of a block -/

/-- `m` is the least round trip time of the samples. -/
def Lowest (samples : List RttSample) (m : Nat) : Prop :=
  IsLeast {r | ∃ s ∈ samples, s.rttUs = r} m

/-- The same with 0 for no samples. -/
def LowestOrNone (samples : List RttSample) (m : Nat) : Prop :=
  if samples = [] then m = 0 else Lowest samples m

theorem lowest_concat {samples : List RttSample} {m : Nat} (s : RttSample)
    (h : Lowest samples m) : Lowest (samples ++ [s]) (min m s.rttUs) := by
  obtain ⟨⟨t, ht, rfl⟩, hle⟩ := h
  constructor
  · rcases min_choice t.rttUs s.rttUs with hmin | hmin <;> rw [hmin]
    · exact ⟨t, List.mem_append_left _ ht, rfl⟩
    · exact ⟨s, by simp, rfl⟩
  · rintro r ⟨t', ht', rfl⟩
    rcases List.mem_append.mp ht' with hold | hnew
    · exact (min_le_left ..).trans (hle ⟨t', hold, rfl⟩)
    · rw [List.mem_singleton.mp hnew]
      exact min_le_right ..

theorem lowest_append {xs ys : List RttSample} {m n : Nat} (hx : Lowest xs m)
    (hy : Lowest ys n) : Lowest (xs ++ ys) (min m n) := by
  obtain ⟨⟨x, hxmem, rfl⟩, hxle⟩ := hx
  obtain ⟨⟨y, hymem, rfl⟩, hyle⟩ := hy
  constructor
  · rcases min_choice x.rttUs y.rttUs with hmin | hmin <;> rw [hmin]
    · exact ⟨x, List.mem_append_left _ hxmem, rfl⟩
    · exact ⟨y, List.mem_append_right _ hymem, rfl⟩
  · rintro r ⟨t, ht, rfl⟩
    rcases List.mem_append.mp ht with hin | hin
    · exact (min_le_left ..).trans (hxle ⟨t, hin, rfl⟩)
    · exact (min_le_right ..).trans (hyle ⟨t, hin, rfl⟩)

theorem lowest_singleton (s : RttSample) : Lowest [s] s.rttUs := by
  refine ⟨⟨s, List.mem_singleton_self s, rfl⟩, ?_⟩
  rintro r ⟨t, ht, rfl⟩
  rw [List.mem_singleton.mp ht]

/-- With positive samples 0 is no minimum. -/
theorem LowestOrNone.cases {samples : List RttSample} {m : Nat} (h : LowestOrNone samples m)
    (hpos : ∀ s ∈ samples, 0 < s.rttUs) :
    (samples = [] ∧ m = 0) ∨ (samples ≠ [] ∧ m ≠ 0 ∧ Lowest samples m) := by
  by_cases hnil : samples = []
  · rw [LowestOrNone, if_pos hnil] at h
    exact .inl ⟨hnil, h⟩
  · rw [LowestOrNone, if_neg hnil] at h
    obtain ⟨s, hs, rfl⟩ := h.1
    exact .inr ⟨hnil, (hpos s hs).ne', h⟩

end RttSample

namespace RateController

open RttSample

/-- The controller's account of the samples since the reset. -/
structure KeepsRtt (c : RateController) (samples : List RttSample) : Prop where
  start : c.rttBlockStartUs = (start? (current samples)).getD 0
  block : LowestOrNone (current samples) c.rttBlockMinUs
  prev : LowestOrNone (previous samples) c.rttPrevBlockMinUs
  positive : ∀ s ∈ samples, 0 < s.rttUs

/-- A block that has not started starts with the sample. -/
theorem rotateRttBlock_unstarted {c : RateController} (h : c.rttBlockStartUs = 0) (nowUs : Int) :
    c.rotateRttBlock nowUs = { c with rttBlockStartUs := nowUs } := by
  unfold rotateRttBlock
  rw [if_pos h]
  refine if_neg ?_
  rw [sub_self]
  decide

theorem rotateRttBlock_started {c : RateController} (h : c.rttBlockStartUs ≠ 0) (nowUs : Int) :
    c.rotateRttBlock nowUs =
      if BLOCK_US ≤ nowUs - c.rttBlockStartUs then
        { c with
          rttPrevBlockMinUs := c.rttBlockMinUs, rttBlockMinUs := 0, rttBlockStartUs := nowUs }
      else c := by
  unfold rotateRttBlock
  rw [if_neg h]

theorem startTime_getD (s : RttSample) :
    (if s.timeUs ≠ 0 then some s.timeUs else none).getD 0 = s.timeUs := by
  by_cases hzero : s.timeUs = 0 <;> simp [hzero]

/-- The rotation, in the words of the blocks: where the next sample begins one, the
    current block becomes the previous one. -/
theorem rotateRttBlock_spec {c : RateController} {samples : List RttSample}
    (h : c.KeepsRtt samples) (s : RttSample) :
    (c.rotateRttBlock s.timeUs).rttBlockStartUs = (start? (current (samples ++ [s]))).getD 0 ∧
      (∃ before, current (samples ++ [s]) = before ++ [s] ∧
        LowestOrNone before (c.rotateRttBlock s.timeUs).rttBlockMinUs) ∧
      LowestOrNone (previous (samples ++ [s]))
        (c.rotateRttBlock s.timeUs).rttPrevBlockMinUs := by
  obtain ⟨hstart, hblock, hprev, _⟩ := h
  unfold current previous at *
  rw [blocks_concat]
  cases hblocks : blocks samples with
  | nil =>
      rw [hblocks] at hstart hblock hprev
      rw [rotateRttBlock_unstarted hstart]
      refine ⟨?_, ⟨[], rfl, hblock⟩, hprev⟩
      exact ((congrArg (·.getD 0) (start?_concat [] s)).trans (startTime_getD s)).symm
  | cons block older =>
      rw [hblocks] at hstart hblock hprev
      cases hopen : start? block with
      | none =>
          have hzero : c.rttBlockStartUs = 0 := by
            rw [hstart, List.headD_cons, hopen]
            rfl
          have hadd : addToBlocks s (block :: older) = (block ++ [s]) :: older := by
            simp [addToBlocks, opensBlock, hopen]
          rw [rotateRttBlock_unstarted hzero, hadd]
          refine ⟨?_, ⟨block, rfl, hblock⟩, hprev⟩
          rw [List.headD_cons, start?_concat, hopen, Option.none_or, startTime_getD]
      | some start =>
          have hsame : c.rttBlockStartUs = start := by
            rw [hstart, List.headD_cons, hopen]
            rfl
          have hne : c.rttBlockStartUs ≠ 0 := by
            rw [hsame]
            exact start?_ne_zero hopen
          rw [rotateRttBlock_started hne, hsame]
          by_cases hlong : BLOCK_US ≤ s.timeUs - start
          · have hadd : addToBlocks s (block :: older) = [s] :: block :: older := by
              simp [addToBlocks, opensBlock, hopen, hlong]
            rw [if_pos hlong, hadd]
            refine ⟨?_, ⟨[], rfl, rfl⟩, hblock⟩
            exact ((congrArg (·.getD 0) (start?_concat [] s)).trans (startTime_getD s)).symm
          · have hadd : addToBlocks s (block :: older) = (block ++ [s]) :: older := by
              simp [addToBlocks, opensBlock, hopen, hlong]
            rw [if_neg hlong, hadd]
            refine ⟨?_, ⟨block, rfl, hblock⟩, hprev⟩
            rw [List.headD_cons, start?_concat, hopen, hsame]
            rfl

/-- The minima after a sample. -/
theorem sampleRtt_spec {c : RateController} {before prev : List RttSample} (s : RttSample)
    (hbefore : ∀ t ∈ before, 0 < t.rttUs) (hafter : ∀ t ∈ prev, 0 < t.rttUs)
    (hblock : LowestOrNone before c.rttBlockMinUs)
    (hprev : LowestOrNone prev c.rttPrevBlockMinUs) :
    Lowest (before ++ [s]) (c.sampleRtt s.rttUs).rttBlockMinUs ∧
      Lowest ((before ++ [s]) ++ prev) (c.sampleRtt s.rttUs).rttUs := by
  have hmin : Lowest (before ++ [s])
      (if c.rttBlockMinUs = 0 ∨ s.rttUs < c.rttBlockMinUs then s.rttUs
        else c.rttBlockMinUs) := by
    rcases hblock.cases hbefore with ⟨rfl, hzero⟩ | ⟨_, hne, hlowest⟩
    · rw [if_pos (.inl hzero)]
      exact lowest_singleton s
    · have hnew := lowest_concat s hlowest
      by_cases hless : s.rttUs < c.rttBlockMinUs
      · rw [if_pos (.inr hless)]
        rwa [min_eq_right hless.le] at hnew
      · rw [if_neg (not_or.mpr ⟨hne, hless⟩)]
        rwa [min_eq_left (not_lt.mp hless)] at hnew
  have hblockMin : (c.sampleRtt s.rttUs).rttBlockMinUs =
      if c.rttBlockMinUs = 0 ∨ s.rttUs < c.rttBlockMinUs then s.rttUs else c.rttBlockMinUs := by
    unfold sampleRtt
    split <;> rfl
  have hbase : (c.sampleRtt s.rttUs).rttUs =
      if c.rttPrevBlockMinUs = 0 then (c.sampleRtt s.rttUs).rttBlockMinUs
      else min (c.sampleRtt s.rttUs).rttBlockMinUs c.rttPrevBlockMinUs := by
    unfold sampleRtt
    dsimp only
    split <;> rfl
  rw [hbase, hblockMin]
  refine ⟨hmin, ?_⟩
  rcases hprev.cases hafter with ⟨rfl, hzero⟩ | ⟨_, hne, hlowest⟩
  · rw [if_pos hzero, List.append_nil]
    exact hmin
  · rw [if_neg hne]
    exact lowest_append hmin hlowest

/-- A sample is kept, and the base is the least of the current and the previous block. -/
theorem keepsRtt_sample {c : RateController} {samples : List RttSample}
    (h : c.KeepsRtt samples) {s : RttSample} (hs : 0 < s.rttUs) :
    ((c.rotateRttBlock s.timeUs).sampleRtt s.rttUs).KeepsRtt (samples ++ [s]) ∧
      Lowest (current (samples ++ [s]) ++ previous (samples ++ [s]))
        ((c.rotateRttBlock s.timeUs).sampleRtt s.rttUs).rttUs := by
  obtain ⟨hstart, ⟨before, hcurrent, hblock⟩, hprev⟩ := rotateRttBlock_spec h s
  have hpositive : ∀ t ∈ samples ++ [s], 0 < t.rttUs := by
    intro t ht
    rcases List.mem_append.mp ht with hold | hnew
    · exact h.positive t hold
    · rwa [List.mem_singleton.mp hnew]
  have hbefore : ∀ t ∈ before, 0 < t.rttUs := by
    intro t ht
    apply hpositive t
    apply mem_of_mem_current
    rw [hcurrent]
    exact List.mem_append_left _ ht
  have hafter : ∀ t ∈ previous (samples ++ [s]), 0 < t.rttUs :=
    fun t ht => hpositive t (mem_of_mem_previous ht)
  obtain ⟨hmin, hbase⟩ := sampleRtt_spec s hbefore hafter hblock hprev
  rw [← hcurrent] at hmin hbase
  have hkeep : ∀ (d : RateController) (r : Nat),
      (d.sampleRtt r).rttBlockStartUs = d.rttBlockStartUs ∧
        (d.sampleRtt r).rttPrevBlockMinUs = d.rttPrevBlockMinUs := by
    intro d r
    unfold sampleRtt
    dsimp only
    split <;> exact ⟨rfl, rfl⟩
  obtain ⟨hstart', hprev'⟩ := hkeep (c.rotateRttBlock s.timeUs) s.rttUs
  refine ⟨⟨hstart'.trans hstart, ?_, ?_, hpositive⟩, hbase⟩
  · rw [LowestOrNone, if_neg (by rw [hcurrent]; simp)]
    exact hmin
  · rw [hprev']
    exact hprev

/-! ### Runs -/

/-- What the controller keeps of the round trip times. -/
def rttState (c : RateController) : Nat × Nat × Nat × Int :=
  (c.rttUs, c.rttBlockMinUs, c.rttPrevBlockMinUs, c.rttBlockStartUs)

theorem KeepsRtt.of_rttState {c d : RateController} {samples : List RttSample}
    (h : c.KeepsRtt samples) (hsame : d.rttState = c.rttState) : d.KeepsRtt samples := by
  simp only [rttState, Prod.mk.injEq] at hsame
  obtain ⟨_, hblock, hprev, hstart⟩ := hsame
  exact ⟨hstart.trans h.start, hblock ▸ h.block, hprev ▸ h.prev, h.positive⟩

theorem rttState_tick (c : RateController) (nowUs : Int) :
    (c.tick nowUs).rttState = c.rttState := by
  have hevaluate : (c.evaluate nowUs).rttState = c.rttState :=
    congrArg (fun beside => beside.2.2) (c.besidesWindow_evaluate nowUs)
  rw [tick, publishBitrateIfNeeded]
  split
  · exact hevaluate
  · exact hevaluate

/-- The samples since the last reset; a round trip time of 0 is none. -/
def samplesAfter (samples : List RttSample) : ControllerAction → List RttSample
  | .reset _ => []
  | .connectionStats nowUs rttUs _ _ _ =>
    if rttUs ≠ 0 then samples ++ [{ timeUs := nowUs, rttUs }] else samples
  | _ => samples

def samplesOf (actions : List ControllerAction) : List RttSample :=
  actions.foldl samplesAfter []

theorem countPackets_keepsRtt {c : RateController} {samples : List RttSample}
    (h : c.KeepsRtt samples) (suspectedLost spuriousLost sent : Nat) :
    (c.countPackets suspectedLost spuriousLost sent).KeepsRtt samples := by
  apply h.of_rttState
  rw [countPackets]
  split <;> rfl

theorem next_keepsRtt {c : RateController} {samples : List RttSample} (h : c.KeepsRtt samples)
    (a : ControllerAction) : (c.next a).KeepsRtt (samplesAfter samples a) := by
  cases a with
  | reset cfg => exact ⟨rfl, rfl, rfl, fun s hs => nomatch hs⟩
  | setTargetBitrate bps =>
      apply h.of_rttState
      rw [next, step]
      unfold setTargetBitrate
      split
      · rfl
      · dsimp only
        split <;> rfl
  | tick nowUs => exact h.of_rttState (c.rttState_tick nowUs)
  | connectionStats nowUs rttUs suspectedLost spuriousLost sent =>
      have hcounted := countPackets_keepsRtt h suspectedLost spuriousLost sent
      rw [next, step, onConnectionStats, samplesAfter]
      split
      next hsample =>
        have hkept := keepsRtt_sample hcounted (s := ⟨nowUs, rttUs⟩) (Nat.pos_of_ne_zero hsample)
        exact hkept.1.of_rttState rfl
      · exact hcounted.of_rttState rfl
  | _ => exact h.of_rttState rfl

theorem run_keepsRtt (cfg : ShareConfig) (actions : List ControllerAction) :
    (Machine.run next (new cfg) actions).KeepsRtt (samplesOf actions) := by
  induction actions using List.reverseRecOn with
  | nil => exact ⟨rfl, rfl, rfl, fun s hs => nomatch hs⟩
  | append_singleton actions a ih =>
      rw [Machine.run_append, samplesOf, List.foldl_concat]
      exact next_keepsRtt ih a

end RateController

/-! ### Blocks in time -/

namespace RttSample

/-- What the times of a block say about those of a later one. -/
def Before (later earlier : List RttSample) : Prop :=
  ∀ t ∈ later, (∀ s ∈ earlier, s.timeUs < t.timeUs) ∧
    ∀ start ∈ start? earlier, start + RateController.BLOCK_US ≤ t.timeUs

/-- The blocks follow each other, and what is in one came before its time was up. -/
structure InTime (blocks : List (List RttSample)) : Prop where
  ordered : blocks.Pairwise Before
  within : ∀ block ∈ blocks, ∀ s ∈ block, ∀ start ∈ start? block,
    s.timeUs < start + RateController.BLOCK_US
  started : ∀ block ∈ blocks.tail, (start? block).isSome

theorem start?_singleton {s : RttSample} {start : Int} (h : start ∈ start? [s]) :
    start = s.timeUs := by
  have hmem := List.mem_of_find?_eq_some h
  rwa [List.map_singleton, List.mem_singleton] at hmem

/-- A sample that comes last comes after what its block comes after. -/
theorem Before.last {block earlier : List RttSample} {s : RttSample} (h : Before block earlier)
    (hne : block ≠ []) (hlast : ∀ t ∈ block, t.timeUs ≤ s.timeUs) : Before [s] earlier := by
  obtain ⟨t, ht⟩ := List.exists_mem_of_ne_nil block hne
  obtain ⟨hall, hstart⟩ := h t ht
  have hle := hlast t ht
  intro s' hs'
  rw [List.mem_singleton.mp hs']
  exact ⟨fun x hx => lt_of_lt_of_le (hall x hx) hle, fun start hs => le_trans (hstart start hs) hle⟩

theorem within_singleton (s : RttSample) :
    ∀ t ∈ [s], ∀ start ∈ start? [s], t.timeUs < start + RateController.BLOCK_US := by
  intro t ht start hstart
  rw [List.mem_singleton.mp ht, start?_singleton hstart]
  exact Int.lt_add_of_pos_right _ (by decide)

theorem addToBlocks_inTime {blocks : List (List RttSample)} {s : RttSample}
    (h : InTime blocks) (hne : ∀ block ∈ blocks, block ≠ [])
    (hlast : ∀ block ∈ blocks, ∀ t ∈ block, t.timeUs ≤ s.timeUs) :
    InTime (addToBlocks s blocks) := by
  cases blocks with
  | nil =>
      refine ⟨List.pairwise_singleton _ _, ?_, fun b hb => nomatch hb⟩
      intro block hblock
      rw [List.mem_singleton.mp hblock]
      exact within_singleton s
  | cons block older =>
      obtain ⟨hordered, hwithin, hstarted⟩ := h
      obtain ⟨hbefore, holder⟩ := List.pairwise_cons.mp hordered
      have hin := hlast block List.mem_cons_self
      have hnonempty := hne block List.mem_cons_self
      have hlater : ∀ b ∈ older, Before [s] b := fun b hb => (hbefore b hb).last hnonempty hin
      rw [addToBlocks]
      cases hopen : opensBlock block s with
      | true =>
          rw [if_pos rfl]
          cases hstart : start? block with
          | none => simp [opensBlock, hstart] at hopen
          | some start =>
              simp only [opensBlock, hstart, decide_eq_true_eq] at hopen
              have hnew : Before [s] block := by
                intro s' hs'
                rw [List.mem_singleton.mp hs']
                constructor
                · intro x hx
                  have hlt := hwithin block List.mem_cons_self x hx start hstart
                  omega
                · intro start' hstart'
                  rw [hstart] at hstart'
                  cases hstart'
                  omega
              refine ⟨?_, ?_, ?_⟩
              · exact List.pairwise_cons.mpr ⟨List.forall_mem_cons.mpr ⟨hnew, hlater⟩, hordered⟩
              · exact List.forall_mem_cons.mpr ⟨within_singleton s, hwithin⟩
              · refine List.forall_mem_cons.mpr ⟨?_, hstarted⟩
                rw [hstart]
                rfl
      | false =>
          rw [if_neg Bool.false_ne_true]
          refine ⟨?_, ?_, hstarted⟩
          · refine List.pairwise_cons.mpr ⟨?_, holder⟩
            intro b hb t ht
            rcases List.mem_append.mp ht with hold | hnew
            · exact hbefore b hb t hold
            · exact hlater b hb t hnew
          · refine List.forall_mem_cons.mpr
              ⟨?_, fun b hb => hwithin b (List.mem_cons_of_mem block hb)⟩
            intro t ht start hstart
            rw [start?_concat] at hstart
            cases hblock : start? block with
            | none =>
                rw [hblock, Option.none_or] at hstart
                have hsame : start = s.timeUs := by
                  split at hstart
                  · exact (Option.some.inj hstart).symm
                  · cases hstart
                have hle : t.timeUs ≤ s.timeUs := by
                  rcases List.mem_append.mp ht with hold | hnew
                  · exact hin t hold
                  · rw [List.mem_singleton.mp hnew]
                rw [hsame]
                exact lt_of_le_of_lt hle (Int.lt_add_of_pos_right _ (by decide))
            | some start' =>
                rw [hblock] at hstart
                cases hstart
                rcases List.mem_append.mp ht with hold | hnew
                · exact hwithin block List.mem_cons_self t hold _ hblock
                · simp only [opensBlock, hblock, decide_eq_false_iff_not] at hopen
                  rw [List.mem_singleton.mp hnew]
                  omega

theorem mem_of_mem_block {samples block : List RttSample} {s : RttSample}
    (hblock : block ∈ blocks samples) (hs : s ∈ block) : s ∈ samples := by
  rw [← flatten_blocks samples, List.mem_flatten]
  exact ⟨block, List.mem_reverse.mpr hblock, hs⟩

theorem blocks_inTime {samples : List RttSample}
    (hsorted : samples.Pairwise fun s t => s.timeUs ≤ t.timeUs) : InTime (blocks samples) := by
  induction samples using List.reverseRecOn with
  | nil => exact ⟨.nil, fun b hb => (nomatch hb), fun b hb => (nomatch hb)⟩
  | append_singleton samples s ih =>
      obtain ⟨hold, _, hlast⟩ := List.pairwise_append.mp hsorted
      rw [blocks_concat]
      apply addToBlocks_inTime (ih hold) block_ne_nil
      intro block hblock t ht
      exact hlast t (mem_of_mem_block hblock ht) s (List.mem_singleton_self s)

/-- What came within `BLOCK_US` of the newest sample is in the current or the previous
    block. -/
theorem recent_mem {samples : List RttSample} {newest s : RttSample}
    (hsorted : samples.Pairwise fun s t => s.timeUs ≤ t.timeUs) (hs : s ∈ samples)
    (hnewest : newest ∈ current samples)
    (hrecent : newest.timeUs - RateController.BLOCK_US ≤ s.timeUs) :
    s ∈ current samples ++ previous samples := by
  obtain ⟨hordered, _, hstarted⟩ := blocks_inTime hsorted
  have hmem := hs
  rw [← flatten_blocks samples, List.mem_flatten] at hmem
  obtain ⟨block, hblock, hin⟩ := hmem
  rw [List.mem_reverse] at hblock
  unfold current previous at *
  rcases hblocks : blocks samples with _ | ⟨now, _ | ⟨before, older⟩⟩
  · rw [hblocks] at hblock
    cases hblock
  · rw [hblocks, List.mem_singleton] at hblock
    exact List.mem_append_left _ (hblock ▸ hin)
  · rw [hblocks] at hblock hordered hstarted hnewest
    rcases List.mem_cons.mp hblock with rfl | hblock
    · exact List.mem_append_left _ hin
    · rcases List.mem_cons.mp hblock with rfl | hblock
      · exact List.mem_append_right _ hin
      · -- an older block was over when the previous one started
        exfalso
        obtain ⟨hnow, hrest⟩ := List.pairwise_cons.mp hordered
        obtain ⟨start, hstart⟩ := Option.isSome_iff_exists.mp (hstarted before List.mem_cons_self)
        have hlong := (hnow before List.mem_cons_self newest hnewest).2 start hstart
        obtain ⟨t, ht, htime⟩ := List.mem_map.mp (List.mem_of_find?_eq_some hstart)
        have hover := ((List.pairwise_cons.mp hrest).1 block hblock t ht).1 s hin
        omega

end RttSample

/-! ### The windowed minimum -/

open RttSample in
/-- What the base round trip time is to the samples, the newest of them last. -/
structure WindowedMin (samples : List RttSample) (newest : RttSample) (base : Nat) : Prop where
  /-- The least of the current and the previous block. -/
  lowest : Lowest (current samples ++ previous samples) base
  /-- Not below the least of all. -/
  among : ∃ s ∈ samples, s.rttUs = base
  le_newest : base ≤ newest.rttUs
  le_recent : ∀ s ∈ samples, newest.timeUs - RateController.BLOCK_US ≤ s.timeUs → base ≤ s.rttUs
  /-- What is older than the two blocks does not hold it down. -/
  follows : ∀ r, (∀ s ∈ current samples ++ previous samples, r ≤ s.rttUs) → r ≤ base

open RateController RttSample in
theorem windowedMin_of_lowest {samples : List RttSample} {newest : RttSample} {base : Nat}
    (hsorted : samples.Pairwise fun s t => s.timeUs ≤ t.timeUs) (hnewest : newest ∈ current samples)
    (hlowest : Lowest (current samples ++ previous samples) base) :
    WindowedMin samples newest base := by
  have hle : ∀ s ∈ current samples ++ previous samples, base ≤ s.rttUs :=
    fun s hs => hlowest.2 ⟨s, hs, rfl⟩
  obtain ⟨least, hleast, hbase⟩ := hlowest.1
  refine ⟨hlowest, ⟨least, ?_, hbase⟩, hle newest (List.mem_append_left _ hnewest), ?_, ?_⟩
  · rcases List.mem_append.mp hleast with hin | hin
    · exact mem_of_mem_current hin
    · exact mem_of_mem_previous hin
  · intro s hs hrecent
    exact hle s (recent_mem hsorted hs hnewest hrecent)
  · intro r hr
    rw [← hbase]
    exact hr least hleast

open RateController in
/-- The base round trip time in every run of the controller, at every sample that is not
zero: whatever else is called in between, and with any gaps between the samples, as long
as their times do not decrease. -/
theorem baseRtt_windowedMin (cfg : ShareConfig) (actions : List ControllerAction) (nowUs : Int)
    (rttUs suspectedLost spuriousLost sent : Nat) (hsample : rttUs ≠ 0)
    (hsorted : (samplesOf (actions ++ [.connectionStats nowUs rttUs suspectedLost spuriousLost
      sent])).Pairwise fun s t => s.timeUs ≤ t.timeUs) :
    WindowedMin
      (samplesOf (actions ++ [.connectionStats nowUs rttUs suspectedLost spuriousLost sent]))
      { timeUs := nowUs, rttUs }
      (Machine.run next (new cfg)
        (actions ++ [.connectionStats nowUs rttUs suspectedLost spuriousLost sent])).rttUs := by
  have hsamples : samplesOf
      (actions ++ [.connectionStats nowUs rttUs suspectedLost spuriousLost sent]) =
      samplesOf actions ++ [{ timeUs := nowUs, rttUs }] := by
    rw [samplesOf, List.foldl_concat, samplesAfter, if_pos hsample]
    rfl
  have hkept := countPackets_keepsRtt (run_keepsRtt cfg actions) suspectedLost spuriousLost sent
  obtain ⟨before, hcurrent, _⟩ :=
    (rotateRttBlock_spec hkept { timeUs := nowUs, rttUs }).2.1
  obtain ⟨_, hlowest⟩ :=
    keepsRtt_sample hkept (s := { timeUs := nowUs, rttUs }) (Nat.pos_of_ne_zero hsample)
  rw [hsamples] at hsorted ⊢
  rw [Machine.run_append, Machine.run_cons, Machine.run_nil, next, step, onConnectionStats,
    if_pos hsample]
  apply windowedMin_of_lowest hsorted ?_ hlowest
  rw [hcurrent]
  exact List.mem_append_right _ (List.mem_singleton_self _)

open RateController in
/-- A path that gets longer: the lower samples are forgotten twelve seconds later. -/
theorem baseRtt_windowedMin_longer :
    WindowedMin [⟨0, 20000⟩, ⟨3000000, 21000⟩, ⟨9000000, 50000⟩, ⟨15000000, 60000⟩]
      ⟨15000000, 60000⟩ 50000 := by
  have hmin := baseRtt_windowedMin {} [.connectionStats 0 20000 0 0 0,
    .connectionStats 1000000 0 0 0 0, .connectionStats 3000000 21000 0 0 0, .tick 4000000,
    .connectionStats 9000000 50000 0 0 0] 15000000 60000 0 0 0 (by decide) (by decide)
  have hbase : (Machine.run next (new {}) ([.connectionStats 0 20000 0 0 0,
      .connectionStats 1000000 0 0 0 0, .connectionStats 3000000 21000 0 0 0, .tick 4000000,
      .connectionStats 9000000 50000 0 0 0] ++ [.connectionStats 15000000 60000 0 0 0])).rttUs =
      50000 := by decide +kernel
  rw [hbase] at hmin
  exact hmin

end Parties.Video

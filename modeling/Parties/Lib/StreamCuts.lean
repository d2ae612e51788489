import Parties.Lib.ByteStream

/-!
# How a stream is cut

A parser that empties its buffer on an invalid front reads on with whatever
arrives next. What arrives next depends on how the stream was cut, so the
messages found are the same for all cuts exactly if no message stands behind an
invalid beginning.
-/

namespace Parties.ByteStream

universe u v

variable {β : Type u} {μ : Type v}

/-- The messages the parser finds are the encodings of the valid ones, and more
    bytes change neither a message it found nor an invalid front. -/
structure Frames (parse : List β → Found β μ) (encode : μ → List β) (Valid : μ → Prop) : Prop where
  empty : parse [] = .incomplete
  whole : ∀ m rest, Valid m → parse (encode m ++ rest) = .message m rest
  message : ∀ buffer m rest, parse buffer = .message m rest → Valid m ∧ buffer = encode m ++ rest
  invalid : ∀ buffer more, parse buffer = .invalid → parse (buffer ++ more) = .invalid

/-- There is no message at the front. -/
def Stuck (parse : List β → Found β μ) (buffer : List β) : Prop :=
  ∀ m rest, parse buffer ≠ .message m rest

/-- Where the whole messages at the front end. -/
structure Front (parse : List β → Found β μ) (encode : μ → List β) (Valid : μ → Prop)
    (buffer : List β) (done : List μ) (left : List β) : Prop where
  split : buffer = done.flatMap encode ++ left
  valid : ∀ m ∈ done, Valid m
  stuck : Stuck parse left

/-- No message stands anywhere in these bytes. -/
def Mute (encode : μ → List β) (Valid : μ → Prop) (bytes : List β) : Prop :=
  ∀ before m after, Valid m → bytes ≠ before ++ (encode m ++ after)

/-- No message stands behind whole messages and an invalid beginning. -/
def Undisturbed (parse : List β → Found β μ) (encode : μ → List β) (Valid : μ → Prop)
    (bytes : List β) : Prop :=
  ∀ (done : List μ) (junk : List β) (m : μ) (after : List β),
    (∀ m' ∈ done, Valid m') → Valid m →
    bytes = done.flatMap encode ++ (junk ++ (encode m ++ after)) → parse junk ≠ .invalid

section

variable {parse : List β → Found β μ} {encode : μ → List β} {Valid : μ → Prop}

theorem Frames.encode_ne_nil (h : Frames parse encode Valid) {m : μ} (hm : Valid m) :
    encode m ≠ [] := by
  intro hnil
  have hwhole := h.whole m [] hm
  rw [hnil, List.append_nil, h.empty] at hwhole
  cases hwhole

theorem stuck_of_incomplete {buffer : List β} (h : parse buffer = .incomplete) :
    Stuck parse buffer := by
  intro m rest hmessage
  rw [h] at hmessage
  cases hmessage

theorem stuck_of_invalid {buffer : List β} (h : parse buffer = .invalid) :
    Stuck parse buffer := by
  intro m rest hmessage
  rw [h] at hmessage
  cases hmessage

/-- Draining takes the whole messages off the front; what is left is kept, or
    dropped if it is invalid. -/
theorem Frames.drain_front (h : Frames parse encode Valid) {buffer : List β} {fuel : Nat}
    (hfuel : buffer.length ≤ fuel) :
    ∃ done left, Front parse encode Valid buffer done left ∧
      ((parse left = .incomplete ∧ drain parse fuel buffer = (left, done)) ∨
        (parse left = .invalid ∧ drain parse fuel buffer = ([], done))) := by
  induction fuel generalizing buffer with
  | zero =>
      obtain rfl := List.length_eq_zero_iff.mp (Nat.le_zero.mp hfuel)
      exact ⟨[], [], ⟨rfl, by simp, stuck_of_incomplete h.empty⟩, .inl ⟨h.empty, rfl⟩⟩
  | succ fuel ih =>
      rcases hparse : parse buffer with _ | _ | ⟨m, rest⟩
      · refine ⟨[], buffer, ⟨rfl, by simp, stuck_of_incomplete hparse⟩, .inl ⟨hparse, ?_⟩⟩
        simp only [drain, hparse]
      · refine ⟨[], buffer, ⟨rfl, by simp, stuck_of_invalid hparse⟩, .inr ⟨hparse, ?_⟩⟩
        simp only [drain, hparse]
      · obtain ⟨hm, rfl⟩ := h.message buffer m rest hparse
        have hpos := List.length_pos_of_ne_nil (h.encode_ne_nil hm)
        rw [List.length_append] at hfuel
        obtain ⟨done, left, ⟨rfl, hvalid, hstuck⟩, hdrain⟩ := ih (by omega : rest.length ≤ fuel)
        refine ⟨m :: done, left, ⟨?_, ?_, hstuck⟩, ?_⟩
        · rw [List.flatMap_cons, List.append_assoc]
        · exact List.forall_mem_cons.mpr ⟨hm, hvalid⟩
        · rcases hdrain with ⟨hleft, hdrain⟩ | ⟨hleft, hdrain⟩
          · exact .inl ⟨hleft, by simp only [drain, hparse, hdrain]⟩
          · exact .inr ⟨hleft, by simp only [drain, hparse, hdrain]⟩

/-- The whole messages in front of any bytes are among those at the front. -/
theorem Front.unique (h : Frames parse encode Valid) {first done : List μ}
    {bytes left : List β} (hfirst : ∀ m ∈ first, Valid m)
    (hfront : Front parse encode Valid (first.flatMap encode ++ bytes) done left) :
    ∃ later, done = first ++ later ∧ Front parse encode Valid bytes later left := by
  induction first generalizing done with
  | nil => exact ⟨done, rfl, hfront⟩
  | cons m first ih =>
      obtain ⟨hm, hrest⟩ := List.forall_mem_cons.mp hfirst
      obtain ⟨hsplit, hvalid, hstuck⟩ := hfront
      rw [List.flatMap_cons, List.append_assoc] at hsplit
      have hparse := h.whole m (first.flatMap encode ++ bytes) hm
      cases done with
      | nil =>
          -- the bytes begin with a message, what is left does not
          rw [hsplit] at hparse
          exact absurd hparse (hstuck m _)
      | cons m' done =>
          obtain ⟨hm', hvalid⟩ := List.forall_mem_cons.mp hvalid
          rw [List.flatMap_cons, List.append_assoc] at hsplit
          rw [hsplit, h.whole m' _ hm'] at hparse
          injection hparse with hmessage hbytes
          obtain rfl := hmessage
          obtain ⟨later, rfl, hlater⟩ := ih hrest ⟨hbytes.symm, hvalid, hstuck⟩
          exact ⟨later, rfl, hlater⟩

theorem Front.of_stuck (h : Frames parse encode Valid) {bytes left : List β} {done : List μ}
    (hstuck : Stuck parse bytes) (hfront : Front parse encode Valid bytes done left) :
    done = [] ∧ left = bytes := by
  obtain ⟨hsplit, hvalid, _⟩ := hfront
  cases done with
  | nil => exact ⟨rfl, hsplit.symm⟩
  | cons m done =>
      rw [List.flatMap_cons, List.append_assoc] at hsplit
      have hparse := h.whole m (done.flatMap encode ++ left) (hvalid m List.mem_cons_self)
      rw [← hsplit] at hparse
      exact absurd hparse (hstuck m _)

/-- The front decides what a drain does. -/
theorem Frames.drain_eq (h : Frames parse encode Valid) {buffer left : List β} {done : List μ}
    (hfront : Front parse encode Valid buffer done left) :
    (parse left = .incomplete ∧ drain parse buffer.length buffer = (left, done)) ∨
      (parse left = .invalid ∧ drain parse buffer.length buffer = ([], done)) := by
  obtain ⟨done', left', hfront', hdrain⟩ := h.drain_front (le_refl buffer.length)
  have hsplit := hfront.split ▸ hfront'
  obtain ⟨later, rfl, hlater⟩ := hsplit.unique h hfront.valid
  obtain ⟨rfl, rfl⟩ := hlater.of_stuck h hfront.stuck
  rwa [List.append_nil] at hdrain

theorem Frames.drained (h : Frames parse encode Valid) {buffer left : List β} {done : List μ}
    (hfront : Front parse encode Valid buffer done left) :
    (drain parse buffer.length buffer).2 = done := by
  rcases h.drain_eq hfront with ⟨_, hdrain⟩ | ⟨_, hdrain⟩ <;> rw [hdrain]

theorem Frames.dropped (h : Frames parse encode Valid) {buffer left : List β} {done : List μ}
    (hfront : Front parse encode Valid buffer done left) (hleft : parse left = .invalid) :
    (drain parse buffer.length buffer).1 = [] := by
  rcases h.drain_eq hfront with ⟨hwaits, _⟩ | ⟨_, hdrain⟩
  · rw [hleft] at hwaits
    cases hwaits
  · rw [hdrain]

theorem Mute.suffix {before after : List β} (h : Mute encode Valid (before ++ after)) :
    Mute encode Valid after := by
  rintro inner m rest hm rfl
  exact h (before ++ inner) m rest hm (List.append_assoc ..).symm

theorem Mute.front {bytes left : List β} {done : List μ} (h : Mute encode Valid bytes)
    (hfront : Front parse encode Valid bytes done left) : done = [] := by
  obtain ⟨hsplit, hvalid, _⟩ := hfront
  cases done with
  | nil => rfl
  | cons m done =>
      rw [List.flatMap_cons, List.append_assoc] at hsplit
      exact absurd hsplit (h [] m _ (hvalid m List.mem_cons_self))

theorem Mute.prefix {bytes more : List β} (h : Mute encode Valid (bytes ++ more)) :
    Mute encode Valid bytes := by
  rintro before m after hm rfl
  exact h before m (after ++ more) hm (by simp only [List.append_assoc])

/-- Where no message stands none is found, however the bytes are cut. -/
theorem Frames.receiveAll_mute (h : Frames parse encode Valid) {pieces : List (List β)}
    {buffer : List β} (hmute : Mute encode Valid (buffer ++ pieces.flatten)) :
    (receiveAll parse buffer pieces).2 = [] := by
  induction pieces generalizing buffer with
  | nil => rfl
  | cons piece pieces ih =>
      rw [List.flatten_cons, ← List.append_assoc] at hmute
      obtain ⟨done, left, hfront, hdrain⟩ := h.drain_front (le_refl (buffer ++ piece).length)
      obtain rfl := hmute.prefix.front hfront
      have hleft : buffer ++ piece = left := hfront.split
      rcases hdrain with ⟨_, hdrain⟩ | ⟨_, hdrain⟩
      · simp only [receiveAll, receive, hdrain, List.nil_append]
        rw [hleft] at hmute
        exact ih hmute
      · simp only [receiveAll, receive, hdrain, List.nil_append]
        exact ih hmute.suffix

/-- If nothing stands behind an invalid beginning, exactly the messages at the
    front are found. -/
theorem Frames.receiveAll_front (h : Frames parse encode Valid) {pieces : List (List β)}
    {buffer left : List β} {done : List μ} (hwaits : parse buffer = .incomplete)
    (hfront : Front parse encode Valid (buffer ++ pieces.flatten) done left)
    (hquiet : ∀ junk m after, Valid m → left = junk ++ (encode m ++ after) →
      parse junk ≠ .invalid) :
    (receiveAll parse buffer pieces).2 = done := by
  induction pieces generalizing buffer done with
  | nil =>
      rw [List.flatten_nil, List.append_nil] at hfront
      exact (hfront.of_stuck h (stuck_of_incomplete hwaits)).1.symm
  | cons piece pieces ih =>
      rw [List.flatten_cons, ← List.append_assoc] at hfront
      obtain ⟨first, kept, hpiece, hdrain⟩ := h.drain_front (le_refl (buffer ++ piece).length)
      rw [hpiece.split, List.append_assoc] at hfront
      obtain ⟨later, rfl, hlater⟩ := hfront.unique h hpiece.valid
      rcases hdrain with ⟨hkept, hdrain⟩ | ⟨hkept, hdrain⟩
      · simp only [receiveAll, receive, hdrain, ih hkept hlater]
      · -- the buffer is dropped, and the rest stands behind an invalid beginning
        have hstuck := stuck_of_invalid (h.invalid kept pieces.flatten hkept)
        obtain ⟨rfl, rfl⟩ := hlater.of_stuck h hstuck
        have hmute : Mute encode Valid ([] ++ pieces.flatten) := by
          intro before m after hm hrest
          rw [List.nil_append] at hrest
          refine hquiet (kept ++ before) m after hm ?_ (h.invalid kept before hkept)
          rw [hrest, List.append_assoc]
        simp only [receiveAll, receive, hdrain, h.receiveAll_mute hmute]

/-- The messages found do not depend on the cuts if and only if no message
    stands behind an invalid beginning. -/
theorem Frames.cuts_agree_iff (h : Frames parse encode Valid) (bytes : List β) :
    (∀ pieces pieces' : List (List β), pieces.flatten = bytes → pieces'.flatten = bytes →
      (receiveAll parse [] pieces).2 = (receiveAll parse [] pieces').2) ↔
      Undisturbed parse encode Valid bytes := by
  constructor
  · intro hagree done junk m after hdone hm hbytes hjunk
    -- a cut in front of the message finds it, no cut at all does not
    have hcut := hagree [done.flatMap encode ++ junk, encode m ++ after] [bytes]
      (by simp [hbytes]) (by simp)
    have hwhole : Front parse encode Valid bytes done (junk ++ (encode m ++ after)) :=
      ⟨hbytes, hdone, stuck_of_invalid (h.invalid junk _ hjunk)⟩
    have hfirst : Front parse encode Valid (done.flatMap encode ++ junk) done junk :=
      ⟨rfl, hdone, stuck_of_invalid hjunk⟩
    obtain ⟨second, kept, hsecond, _⟩ := h.drain_front (le_refl (encode m ++ after).length)
    have hfound : second ≠ [] := by
      rintro rfl
      have hsplit : encode m ++ after = kept := hsecond.split
      exact hsecond.stuck m after (hsplit ▸ h.whole m after hm)
    simp only [receiveAll, receive, List.nil_append, h.drained hwhole, h.drained hfirst,
      h.dropped hfirst hjunk, h.drained hsecond, List.append_nil] at hcut
    exact hfound (List.append_right_eq_self.mp hcut)
  · intro hquiet pieces pieces' hpieces hpieces'
    obtain ⟨done, left, hfront, _⟩ := h.drain_front (le_refl bytes.length)
    have hleft : ∀ junk m after, Valid m → left = junk ++ (encode m ++ after) →
        parse junk ≠ .invalid := by
      intro junk m after hm hsplit
      exact hquiet done junk m after hfront.valid hm (hsplit ▸ hfront.split)
    rw [h.receiveAll_front h.empty (hpieces ▸ hfront) hleft,
      h.receiveAll_front h.empty (hpieces' ▸ hfront) hleft]

end

end Parties.ByteStream

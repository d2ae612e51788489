import Mathlib.Algebra.Group.Nat.Defs
import Mathlib.Data.List.Infix

/-!
# Byte streams

Little-endian numbers, and parsers that are fed a stream in pieces. Such a
parser keeps the bytes it could not use yet in a buffer and takes messages off
its front as long as they are complete. If it recognises an encoding in front of
whatever follows and waits on everything shorter, then the pieces do not matter:
it finds the messages that were encoded, and its buffer ends up empty.
-/

namespace Parties.ByteStream

/-! ### Little-endian numbers -/

/-- The low `k` bytes of `n`, least significant first. -/
def le : Nat → Nat → List UInt8
  | 0, _ => []
  | k + 1, n => UInt8.ofNat n :: le k (n / 256)

def readLe : List UInt8 → Nat
  | [] => 0
  | b :: bs => b.toNat + 256 * readLe bs

@[simp] theorem length_le (k n : Nat) : (le k n).length = k := by
  induction k generalizing n with
  | zero => rfl
  | succ k ih => simp [le, ih]

theorem readLe_le {k n : Nat} (h : n < 256 ^ k) : readLe (le k n) = n := by
  induction k generalizing n with
  | zero =>
      have hzero : n = 0 := by simpa using h
      simp [hzero, le, readLe]
  | succ k ih =>
      have hdiv : n / 256 < 256 ^ k := by
        apply Nat.div_lt_of_lt_mul
        rw [Nat.mul_comm, ← pow_succ]
        exact h
      have hbyte : (UInt8.ofNat n).toNat = n % 256 := by simp
      rw [le, readLe, ih hdiv, hbyte]
      exact Nat.mod_add_div n 256

theorem readLe_lt (bytes : List UInt8) : readLe bytes < 256 ^ bytes.length := by
  induction bytes with
  | nil => simp [readLe]
  | cons b bytes ih =>
      have hbyte := b.toNat_lt
      rw [readLe, List.length_cons, pow_succ]
      omega

theorem le_readLe (bytes : List UInt8) : le bytes.length (readLe bytes) = bytes := by
  induction bytes with
  | nil => rfl
  | cons b bytes ih =>
      have hbyte := b.toNat_lt
      have hlow : UInt8.ofNat (b.toNat + 256 * readLe bytes) = b := by
        apply UInt8.toNat_inj.mp
        rw [UInt8.toNat_ofNat']
        omega
      have hhigh : (b.toNat + 256 * readLe bytes) / 256 = readLe bytes := by omega
      rw [List.length_cons, readLe, le, hlow, hhigh, ih]

/-! ### Counted lists -/

/-- A number of `width` bytes that says how many elements follow, and these. -/
def Announces (width : Nat) (elements : List (List UInt8)) (bytes : List UInt8) : Prop :=
  readLe (bytes.take width) = elements.length ∧ bytes.drop width = elements.flatten

/-- A number cut to `width` bytes announces the elements if it was not cut. -/
theorem announces_le {width : Nat} {elements : List (List UInt8)} :
    Announces width elements (le width (elements.length % 256 ^ width) ++ elements.flatten) ↔
      elements.length < 256 ^ width := by
  have hpos : 0 < 256 ^ width := Nat.pow_pos (by decide)
  rw [Announces, List.take_left' (length_le ..), List.drop_left' (length_le ..),
    readLe_le (Nat.mod_lt _ hpos)]
  constructor
  · rintro ⟨hcount, _⟩
    rw [← hcount]
    exact Nat.mod_lt _ hpos
  · intro hlt
    exact ⟨Nat.mod_eq_of_lt hlt, rfl⟩

/-! ### Parsers fed in pieces -/

universe u v

variable {β : Type u} {μ : Type v}

/-- What a parser finds at the front of its buffer. -/
inductive Found (β : Type u) (μ : Type v) where
  | incomplete
  | invalid
  | message (m : μ) (rest : List β)

/-- Take messages off the front while there are any; an invalid front empties
    the buffer. A turn that finds a message shortens the buffer, so its length
    is fuel enough. -/
def drain (parse : List β → Found β μ) : Nat → List β → List β × List μ
  | 0, buffer => (buffer, [])
  | fuel + 1, buffer =>
    match parse buffer with
    | .incomplete => (buffer, [])
    | .invalid => ([], [])
    | .message m rest => ((drain parse fuel rest).1, m :: (drain parse fuel rest).2)

/-- Feed one piece: the buffer left and the messages found. -/
def receive (parse : List β → Found β μ) (buffer piece : List β) : List β × List μ :=
  drain parse (buffer ++ piece).length (buffer ++ piece)

/-- An invalid front takes everything with it. -/
theorem receive_invalid {parse : List β → Found β μ} {bytes : List β}
    (h : parse bytes = .invalid) : receive parse [] bytes = ([], []) := by
  rw [receive, List.nil_append]
  cases bytes with
  | nil => rfl
  | cons b bytes => rw [List.length_cons, drain, h]

/-- Feed the pieces one after the other, collecting the messages. -/
def receiveAll (parse : List β → Found β μ) : List β → List (List β) → List β × List μ
  | buffer, [] => (buffer, [])
  | buffer, piece :: pieces =>
    let first := receive parse buffer piece
    let rest := receiveAll parse first.1 pieces
    (rest.1, first.2 ++ rest.2)

/-- The parser finds an encoded message in front of whatever follows, and waits
    on everything shorter. -/
structure Recognises (parse : List β → Found β μ) (encode : μ → List β) (m : μ) : Prop where
  whole : ∀ rest, parse (encode m ++ rest) = .message m rest
  shorter : ∀ part, part <+: encode m → part ≠ encode m → parse part = .incomplete

/-- The buffer of a parser that waits for `pending`: nothing, or less than the
    first of them. -/
def Waiting (encode : μ → List β) (buffer : List β) : List μ → Prop
  | [] => buffer = []
  | m :: _ => buffer <+: encode m ∧ buffer ≠ encode m

section

variable {parse : List β → Found β μ} {encode : μ → List β}

theorem Recognises.ne_nil {m : μ} (h : Recognises parse encode m)
    (hempty : parse [] = .incomplete) : encode m ≠ [] := by
  intro hnil
  have hwhole := h.whole []
  rw [hnil, List.append_nil, hempty] at hwhole
  cases hwhole

theorem drain_nil (hempty : parse [] = .incomplete) (fuel : Nat) :
    drain parse fuel [] = ([], []) := by
  cases fuel with
  | zero => rfl
  | succ fuel => simp only [drain, hempty]

/-- Draining the beginning of encoded messages finds those that are complete. -/
theorem drain_beginning (hempty : parse [] = .incomplete) {pending : List μ}
    (hrec : ∀ m ∈ pending, Recognises parse encode m) {buffer : List β} {fuel : Nat}
    (hpre : buffer <+: pending.flatMap encode) (hfuel : buffer.length ≤ fuel) :
    ∃ done rest left, pending = done ++ rest ∧ buffer = done.flatMap encode ++ left ∧
      Waiting encode left rest ∧ drain parse fuel buffer = (left, done) := by
  induction pending generalizing buffer fuel with
  | nil =>
      obtain rfl : buffer = [] := by simpa using hpre
      exact ⟨[], [], [], rfl, rfl, rfl, drain_nil hempty fuel⟩
  | cons m pending ih =>
      have hm : Recognises parse encode m := hrec m List.mem_cons_self
      rw [List.flatMap_cons] at hpre
      by_cases hwhole : encode m <+: buffer
      · -- the first message is complete
        obtain ⟨left, rfl⟩ := hwhole
        have hpos := List.length_pos_of_ne_nil (hm.ne_nil hempty)
        rw [List.length_append] at hfuel
        obtain ⟨fuel, rfl⟩ : ∃ n, fuel = n + 1 := ⟨fuel - 1, by omega⟩
        obtain ⟨done, rest, left, rfl, rfl, hwait, hdrain⟩ :=
          ih (fun m' hm' => hrec m' (List.mem_cons_of_mem _ hm'))
            ((List.prefix_append_right_inj _).mp hpre) (by omega : left.length ≤ fuel)
        refine ⟨m :: done, rest, left, rfl, ?_, hwait, ?_⟩
        · rw [List.flatMap_cons, List.append_assoc]
        · simp only [drain, hm.whole, hdrain]
      · -- the parser waits for the rest of it
        have hpart : buffer <+: encode m := by
          rcases List.prefix_or_prefix_of_prefix hpre (List.prefix_append _ _) with h | h
          · exact h
          · exact absurd h hwhole
        have hne : buffer ≠ encode m := by
          rintro rfl
          exact hwhole List.prefix_rfl
        refine ⟨[], m :: pending, buffer, rfl, rfl, ⟨hpart, hne⟩, ?_⟩
        cases fuel with
        | zero => rfl
        | succ fuel => simp only [drain, hm.shorter buffer hpart hne]

/-- A waiting parser that is fed the rest of the pending messages, in any
    pieces, finds exactly them. -/
theorem receiveAll_pending (hempty : parse [] = .incomplete) {pending : List μ}
    (hrec : ∀ m ∈ pending, Recognises parse encode m) {pieces : List (List β)} {buffer : List β}
    (hbytes : buffer ++ pieces.flatten = pending.flatMap encode)
    (hwait : Waiting encode buffer pending) :
    receiveAll parse buffer pieces = ([], pending) := by
  induction pieces generalizing buffer pending with
  | nil =>
      rw [List.flatten_nil, List.append_nil] at hbytes
      cases pending with
      | nil =>
          rw [hwait]
          rfl
      | cons m pending =>
          obtain ⟨hpart, hne⟩ := hwait
          rw [hbytes, List.flatMap_cons] at hpart hne
          have hlen := hpart.length_le
          rw [List.length_append] at hlen
          have hnil : pending.flatMap encode = [] := List.eq_nil_of_length_eq_zero (by omega)
          rw [hnil, List.append_nil] at hne
          exact absurd rfl hne
  | cons piece pieces ih =>
      rw [List.flatten_cons, ← List.append_assoc] at hbytes
      have hpre : buffer ++ piece <+: pending.flatMap encode := ⟨_, hbytes⟩
      obtain ⟨done, rest, left, rfl, hsplit, hleft, hdrain⟩ :=
        drain_beginning hempty hrec hpre le_rfl
      have hrest : left ++ pieces.flatten = rest.flatMap encode := by
        rw [hsplit, List.flatMap_append, List.append_assoc] at hbytes
        exact List.append_cancel_left hbytes
      have htail := ih (fun m hm => hrec m (List.mem_append_right _ hm)) hrest hleft
      simp only [receiveAll, receive, hdrain, htail]

/-- From an empty buffer: the messages found are the messages encoded, however
    the bytes were cut. -/
theorem receiveAll_encoded (hempty : parse [] = .incomplete) {messages : List μ}
    (hrec : ∀ m ∈ messages, Recognises parse encode m) {pieces : List (List β)}
    (hbytes : pieces.flatten = messages.flatMap encode) :
    receiveAll parse [] pieces = ([], messages) := by
  refine receiveAll_pending hempty hrec hbytes ?_
  cases messages with
  | nil => rfl
  | cons m messages =>
      have hne := (hrec m List.mem_cons_self).ne_nil hempty
      exact ⟨List.nil_prefix, hne.symm⟩

end

end Parties.ByteStream

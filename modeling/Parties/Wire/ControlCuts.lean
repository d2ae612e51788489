import Parties.Lib.StreamCuts
import Parties.Wire.ControlFraming

/-!
# Control streams that are not well formed

A length outside of `2 .. 1 MiB` empties the buffer of either control parser: the
bytes that have arrived are gone, and those that arrive later are read as if a
message began there. So it depends on the pieces what is read behind such a
length.
-/

namespace Parties.Wire

open ByteStream

/-- The first four bytes, little-endian. -/
def lengthOf (bytes : Bytes) : Nat := readLe (bytes.take 4)

/-- A whole header whose length the parsers refuse. -/
def RefusedLength (bytes : Bytes) : Prop :=
  6 ≤ bytes.length ∧ (lengthOf bytes < 2 ∨ 1024 * 1024 < lengthOf bytes)

/-- No message stands behind a refused length that follows whole messages. -/
def NothingBehindRefused (bytes : Bytes) : Prop :=
  ∀ (done : List ControlMessage) (junk : Bytes) (message : ControlMessage) (after : Bytes),
    (∀ m ∈ done, m.payload.length ≤ 1024 * 1024 - 2) →
    message.payload.length ≤ 1024 * 1024 - 2 →
    bytes = done.flatMap encodeControl ++ (junk ++ (encodeControl message ++ after)) →
    ¬ RefusedLength junk

section

variable {maxLength : BitVec 32}

theorem lengthOf_lt (bytes : Bytes) : lengthOf bytes < 2 ^ 32 := by
  have hlt := readLe_lt (bytes.take 4)
  have hle : (bytes.take 4).length ≤ 4 := List.length_take_le ..
  exact lt_of_lt_of_le hlt (Nat.pow_le_pow_right (by decide : 0 < 256) hle)

/-- The parser in terms of the numbers it reads. -/
theorem parseControl_eq (hmax : maxLength.toNat + 4 < 2 ^ 32) (buffer : Bytes) :
    parseControl maxLength buffer =
      if buffer.length < 6 then .incomplete
      else if lengthOf buffer < 2 ∨ maxLength.toNat < lengthOf buffer then .invalid
      else if buffer.length < 4 + lengthOf buffer then .incomplete
      else .message
        { type := BitVec.ofNat 16 (readLe ((buffer.drop 4).take 2))
          payload := (buffer.drop 6).take (lengthOf buffer - 2) }
        (buffer.drop (4 + lengthOf buffer)) := by
  have hlt := lengthOf_lt buffer
  have hlen : (BitVec.ofNat 32 (readLe (buffer.take 4))).toNat = lengthOf buffer := by
    rw [BitVec.toNat_ofNat]
    exact Nat.mod_eq_of_lt hlt
  have hrefused : (BitVec.ofNat 32 (readLe (buffer.take 4)) < 2 ∨
      maxLength < BitVec.ofNat 32 (readLe (buffer.take 4))) ↔
      (lengthOf buffer < 2 ∨ maxLength.toNat < lengthOf buffer) := by
    rw [BitVec.lt_def, BitVec.lt_def, hlen]
    rfl
  unfold parseControl
  simp only [hrefused]
  by_cases hbad : lengthOf buffer < 2 ∨ maxLength.toNat < lengthOf buffer
  · simp only [if_pos hbad]
  · have htotal : (4 + BitVec.ofNat 32 (readLe (buffer.take 4))).toNat = 4 + lengthOf buffer := by
      have hfour : (4 : BitVec 32).toNat = 4 := rfl
      rw [BitVec.toNat_add, hlen, hfour]
      omega
    have hbody : (BitVec.ofNat 32 (readLe (buffer.take 4)) - 2).toNat = lengthOf buffer - 2 := by
      have htwo : (2 : BitVec 32).toNat = 2 := rfl
      rw [BitVec.toNat_sub, hlen, htwo]
      omega
    have hpayload : (if 0 < lengthOf buffer - 2 then (buffer.drop 6).take (lengthOf buffer - 2)
        else []) = (buffer.drop 6).take (lengthOf buffer - 2) := by
      split
      · rfl
      next hempty =>
        rw [Nat.eq_zero_of_not_pos hempty, List.take_zero]
    simp only [if_neg hbad, htotal, hbody, hpayload]

theorem parseControl_invalid (hmax : maxLength.toNat + 4 < 2 ^ 32) (buffer : Bytes) :
    parseControl maxLength buffer = .invalid ↔
      6 ≤ buffer.length ∧ (lengthOf buffer < 2 ∨ maxLength.toNat < lengthOf buffer) := by
  rw [parseControl_eq hmax]
  split
  · simp
    omega
  · split
    next hsix hrefused =>
      exact ⟨fun _ => ⟨not_lt.mp hsix, hrefused⟩, fun _ => rfl⟩
    · split <;> simp <;> omega

/-- What the parser finds was encoded there. -/
theorem parseControl_message (hmax : maxLength.toNat + 4 < 2 ^ 32) {buffer rest : Bytes}
    {message : ControlMessage} (h : parseControl maxLength buffer = .message message rest) :
    2 + message.payload.length ≤ maxLength.toNat ∧ buffer = encodeControl message ++ rest := by
  rw [parseControl_eq hmax] at h
  split at h
  · cases h
  next hsix =>
    split at h
    · cases h
    next haccepted =>
      split at h
      · cases h
      next hwhole =>
        cases h
        have hpayload : ((buffer.drop 6).take (lengthOf buffer - 2)).length =
            lengthOf buffer - 2 := by
          rw [List.length_take, List.length_drop]
          omega
        refine ⟨by dsimp only; omega, ?_⟩
        have hlength : le 4 (lengthOf buffer) = buffer.take 4 := by
          have hfour : (buffer.take 4).length = 4 := by rw [List.length_take]; omega
          have hread := le_readLe (buffer.take 4)
          rwa [hfour] at hread
        have htype : le 2 (BitVec.ofNat 16 (readLe ((buffer.drop 4).take 2))).toNat =
            (buffer.drop 4).take 2 := by
          have htwo : ((buffer.drop 4).take 2).length = 2 := by
            rw [List.length_take, List.length_drop]
            omega
          have hread := le_readLe ((buffer.drop 4).take 2)
          have hlt : readLe ((buffer.drop 4).take 2) < 2 ^ 16 := by
            have hlt := readLe_lt ((buffer.drop 4).take 2)
            rwa [htwo] at hlt
          rw [htwo] at hread
          rwa [BitVec.toNat_ofNat, Nat.mod_eq_of_lt hlt]
        have hfield : (BitVec.ofNat 32 (2 + (lengthOf buffer - 2))).toNat = lengthOf buffer := by
          rw [BitVec.toNat_ofNat, Nat.mod_eq_of_lt (by omega)]
          omega
        rw [encodeControl]
        dsimp only
        rw [hpayload, hfield, hlength, htype]
        have hrest : buffer.drop (4 + lengthOf buffer) =
            (buffer.drop 6).drop (lengthOf buffer - 2) := by
          rw [List.drop_drop]
          congr 1
          omega
        rw [hrest, List.append_assoc, List.take_append_drop, List.append_assoc]
        rw [show 6 = 4 + 2 from rfl, ← List.drop_drop, List.take_append_drop,
          List.take_append_drop]

/-- The parser reads encoded messages, and a refused length stays refused. -/
theorem frames_parseControl (hmax : maxLength.toNat + 4 < 2 ^ 32) :
    Frames (parseControl maxLength) encodeControl
      (fun message => 2 + message.payload.length ≤ maxLength.toNat) where
  empty := if_pos (by decide)
  whole _ rest hfits := parseControl_encode hmax hfits rest
  message _ _ _ h := parseControl_message hmax h
  invalid buffer more h := by
    obtain ⟨hsix, hrefused⟩ := (parseControl_invalid hmax buffer).mp h
    have hsame : lengthOf (buffer ++ more) = lengthOf buffer := by
      rw [lengthOf, List.take_append_of_le_length (by omega)]
      rfl
    apply (parseControl_invalid hmax _).mpr
    rw [hsame, List.length_append]
    exact ⟨by omega, hrefused⟩

/-- Of the generic condition what it says about the bytes. -/
theorem undisturbed_iff {maxLength : BitVec 32} (hmax : maxLength.toNat = 1024 * 1024)
    (bytes : Bytes) :
    Undisturbed (parseControl maxLength) encodeControl
        (fun message => 2 + message.payload.length ≤ maxLength.toNat) bytes ↔
      NothingBehindRefused bytes := by
  have hfits : ∀ m : ControlMessage,
      2 + m.payload.length ≤ maxLength.toNat ↔ m.payload.length ≤ 1024 * 1024 - 2 := by
    intro m
    omega
  have hinvalid : ∀ junk, parseControl maxLength junk = .invalid ↔ RefusedLength junk := by
    intro junk
    rw [parseControl_invalid (by omega) junk, hmax]
    rfl
  unfold Undisturbed NothingBehindRefused
  simp only [hfits, ne_eq, hinvalid]

end

/-! ### The two sides -/

/-- The messages the client takes from a stream cut into these pieces. -/
def NetClient.dispatched (pieces : List Bytes) : List ControlMessage :=
  (pieces.foldl NetClient.processStreamData {}).incoming

/-- The messages of one session the server takes from the pieces of all of them. -/
def QuicServer.dispatched (arrivals : List Arrival) (sid : BitVec 32) : List ControlMessage :=
  (arrivals.foldl QuicServer.processStreamData {}).messagesOf sid

theorem NetClient.dispatched_eq (pieces : List Bytes) :
    dispatched pieces = (receiveAll parseFront [] pieces).2 := by
  rw [dispatched, processStreamData_foldl]
  rfl

theorem QuicServer.dispatched_eq (arrivals : List Arrival) (sid : BitVec 32) :
    dispatched arrivals sid = (receiveAll parseFront [] (piecesOf arrivals sid)).2 := by
  rw [dispatched, (processStreamData_foldl {} arrivals sid).2]
  rfl

/-- Every cutting of a session's stream arrives in some run. -/
theorem QuicServer.piecesOf_map (sid : BitVec 32) (pieces : List Bytes) :
    piecesOf (pieces.map fun data => { sessionId := sid, data }) sid = pieces := by
  rw [piecesOf, List.filter_eq_self.mpr, List.map_map]
  · exact List.map_id pieces
  · intro arrival harrival
    obtain ⟨data, _, rfl⟩ := List.mem_map.mp harrival
    exact decide_eq_true rfl

/-- Chunk independence holds on exactly those byte strings in which no message
stands behind a refused length: on the client for every two ways to cut them, on
the server for every session and every two runs in which the session's stream is
these bytes, whatever the other sessions send in between. -/
theorem chunks_agree_iff (bytes : Bytes) :
    ((∀ pieces pieces' : List Bytes, pieces.flatten = bytes → pieces'.flatten = bytes →
        NetClient.dispatched pieces = NetClient.dispatched pieces') ↔
      NothingBehindRefused bytes) ∧
    ∀ sid,
      ((∀ arrivals arrivals' : List Arrival,
          (QuicServer.piecesOf arrivals sid).flatten = bytes →
          (QuicServer.piecesOf arrivals' sid).flatten = bytes →
          QuicServer.dispatched arrivals sid = QuicServer.dispatched arrivals' sid) ↔
        NothingBehindRefused bytes) := by
  have hclient := ((@frames_parseControl NetClient.MAX_LENGTH (by decide)).cuts_agree_iff
    bytes).trans (undisturbed_iff (by decide) bytes)
  have hserver := ((@frames_parseControl QuicServer.MAX_LENGTH (by decide)).cuts_agree_iff
    bytes).trans (undisturbed_iff (by decide) bytes)
  constructor
  · simp only [NetClient.dispatched_eq]
    exact hclient
  · intro sid
    apply Iff.trans ?_ hserver
    simp only [QuicServer.dispatched_eq]
    constructor
    · intro h pieces pieces' hpieces hpieces'
      have hagree := h (pieces.map fun data => { sessionId := sid, data })
        (pieces'.map fun data => { sessionId := sid, data })
      rw [QuicServer.piecesOf_map, QuicServer.piecesOf_map] at hagree
      exact hagree hpieces hpieces'
    · intro h arrivals arrivals' harrivals harrivals'
      exact h _ _ harrivals harrivals'

/-- A length of zero and behind it a whole message: in one piece both are
dropped, cut in front of the message the message is read. -/
theorem not_chunks_agree :
    ¬ (∀ (bytes : Bytes) (pieces pieces' : List Bytes),
        pieces.flatten = bytes → pieces'.flatten = bytes →
        NetClient.dispatched pieces = NetClient.dispatched pieces') ∧
      ¬ (∀ (bytes : Bytes) (sid : BitVec 32) (arrivals arrivals' : List Arrival),
        (QuicServer.piecesOf arrivals sid).flatten = bytes →
        (QuicServer.piecesOf arrivals' sid).flatten = bytes →
        QuicServer.dispatched arrivals sid = QuicServer.dispatched arrivals' sid) := by
  constructor
  · intro h
    have hsame := h [0, 0, 0, 0, 0, 0, 2, 0, 0, 0, 2, 0]
      [[0, 0, 0, 0, 0, 0, 2, 0, 0, 0, 2, 0]] [[0, 0, 0, 0, 0, 0], [2, 0, 0, 0, 2, 0]] rfl rfl
    exact absurd hsame (by decide)
  · intro h
    have hsame := h [0, 0, 0, 0, 0, 0, 2, 0, 0, 0, 2, 0] 1
      [⟨1, [0, 0, 0, 0, 0, 0, 2, 0, 0, 0, 2, 0]⟩]
      [⟨1, [0, 0, 0, 0, 0, 0]⟩, ⟨1, [2, 0, 0, 0, 2, 0]⟩] rfl rfl
    exact absurd hsame (by decide)

end Parties.Wire

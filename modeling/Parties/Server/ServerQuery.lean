import Parties.Server.State
import Parties.Wire.FieldSequences

/-!
# The connectionless server query

Mirror of the query codec (`common/src/server_query.cpp`), of
`QuicServer::on_unconnected_query`, and of the part of the MsQuic patch that raises the event
and sends the reply (`vendor/ports/msquic/0001-unconnected-query.patch`). A request names a
token; the reply repeats it in front of what the server tells about itself.
-/

namespace Parties.ServerQuery

open Wire Wire.BinaryReader

def SERVER_QUERY_MAGIC : Bytes := 0xC0 :: ['P', 'A', 'R', 'T', 'Y', 'Q', '1'].map Char.toUInt8
def SERVER_QUERY_REPLY_MARKER : Bytes := ['P', 'Q', 'R', '1'].map Char.toUInt8
def SERVER_QUERY_TOKEN_OFFSET : Nat := 8
def SERVER_QUERY_MIN_REQUEST : Nat := 12
def SERVER_QUERY_REQUEST_SIZE : Nat := 256
def SERVER_QUERY_MAX_NAME : Nat := 200
def SERVER_QUERY_FLAG_PASSWORD_LOCKED : BitVec 8 := 1

/-- `PROTOCOL_VERSION`. -/
def PROTOCOL_VERSION : BitVec 16 := 0x0104

structure ServerQueryInfo where
  protocolVersion : BitVec 16 := 0
  serverName : Bytes := []
  currentUsers : BitVec 16 := 0
  maxUsers : BitVec 16 := 0
  passwordLocked : Bool := false
deriving DecidableEq, Repr

/-! ### The request -/

def buildServerQueryRequest (token : BitVec 32) : Bytes :=
  SERVER_QUERY_MAGIC ++ writeU32 token ++
    List.replicate (SERVER_QUERY_REQUEST_SIZE - SERVER_QUERY_MIN_REQUEST) 0

/-- The bytes behind a pointer that may be null. -/
def isServerQueryRequest : Option Bytes → Bool
  | none => false
  | some data =>
    SERVER_QUERY_MAGIC.length ≤ data.length &&
      data.take SERVER_QUERY_MAGIC.length = SERVER_QUERY_MAGIC

def serverQueryRequestToken : Option Bytes → BitVec 32
  | none => 0
  | some data =>
    if data.length < SERVER_QUERY_MIN_REQUEST then 0
    else BitVec.ofNat 32 (ByteStream.readLe ((data.drop SERVER_QUERY_TOKEN_OFFSET).take 4))

/-! ### The reply -/

/-- The name is clamped. -/
def clampName (name : Bytes) : Bytes :=
  if SERVER_QUERY_MAX_NAME < name.length then name.take SERVER_QUERY_MAX_NAME else name

def flagsOf (info : ServerQueryInfo) : BitVec 8 :=
  if info.passwordLocked then SERVER_QUERY_FLAG_PASSWORD_LOCKED else 0

def buildServerQueryReply (token : BitVec 32) (info : ServerQueryInfo) : Bytes :=
  SERVER_QUERY_REPLY_MARKER ++ writeU32 token ++ writeU16 info.protocolVersion ++
    writeU16 info.currentUsers ++ writeU16 info.maxUsers ++ writeU8 (flagsOf info) ++
    writeText (clampName info.serverName)

def readInfo : Reads ServerQueryInfo := do
  let protocolVersion ← readU16
  let currentUsers ← readU16
  let maxUsers ← readU16
  let flags ← readU8
  let serverName ← readString
  return {
    protocolVersion := protocolVersion
    currentUsers := currentUsers
    maxUsers := maxUsers
    passwordLocked := flags &&& SERVER_QUERY_FLAG_PASSWORD_LOCKED ≠ 0
    serverName := serverName }

/-- Whether the reply was parsed, and the output, which is `out` otherwise. -/
def parseServerQueryReply (data : Option Bytes) (expectedToken : BitVec 32)
    (out : ServerQueryInfo) : Bool × ServerQueryInfo :=
  match data with
  | none => (false, out)
  | some data =>
    if data.length < SERVER_QUERY_REPLY_MARKER.length then (false, out)
    else if data.take SERVER_QUERY_REPLY_MARKER.length ≠ SERVER_QUERY_REPLY_MARKER then (false, out)
    else
      let marker := (readBytes (List.replicate SERVER_QUERY_REPLY_MARKER.length 0)).run
        { rest := data }
      let token := readU32.run marker.2
      if token.1 ≠ expectedToken then (false, out)
      else
        let info := readInfo.run token.2
        if info.2.error then (false, out) else (true, info.1)

/-! ### The server -/

/-- What the server was told to report about itself. -/
structure ReportedInfo where
  queryServerName : Bytes
  queryMaxUsers : BitVec 16
  queryPasswordLocked : Bool

def serverInfo (s : Server) (reported : ReportedInfo) : ServerQueryInfo where
  protocolVersion := PROTOCOL_VERSION
  serverName := reported.queryServerName
  maxUsers := reported.queryMaxUsers
  passwordLocked := reported.queryPasswordLocked
  currentUsers := BitVec.ofNat 16
    (s.sessionTable.countP fun sid => (s.sessions sid).authenticated)

/-- The application answers the event: what it writes into the reply buffer, and the length
it leaves there. -/
def onUnconnectedQuery (s : Server) (reported : ReportedInfo) (payload : Bytes)
    (replyBufferLength : BitVec 16) : Bytes × BitVec 16 :=
  if !isServerQueryRequest (some payload) then ([], 0)
  else
    let token := serverQueryRequestToken (some payload)
    let reply := buildServerQueryReply token (serverInfo s reported)
    if replyBufferLength.toNat < reply.length then ([], 0)
    else (reply, BitVec.ofNat 16 reply.length)

/-- MsQuic raises the event for a datagram and sends the reply. There may be no listener, and
`alloc` may have no buffer; otherwise it says how long the buffer is. -/
def processUnconnectedQuery (s : Server) (reported : ReportedInfo) (listener : Bool)
    (maxUdpPayloadLength : BitVec 16) (alloc : BitVec 16 → Option (BitVec 32))
    (payload : Bytes) : Option Bytes :=
  if !listener then none
  else
    let availBufferLength := BitVec.ofNat 16 payload.length
    let replyCap := if maxUdpPayloadLength < availBufferLength then maxUdpPayloadLength
      else availBufferLength
    match alloc replyCap with
    | none => none
    | some length =>
      let (buffer, replyLength) := onUnconnectedQuery s reported payload (length.setWidth 16)
      if replyLength = 0 ∨ replyCap < replyLength then none
      else some (buffer.take replyLength.toNat)

/-- A datagram arrives; one without the magic is a QUIC packet. -/
def receiveDatagram (s : Server) (reported : ReportedInfo) (listener : Bool)
    (maxUdpPayloadLength : BitVec 16) (alloc : BitVec 16 → Option (BitVec 32))
    (payload : Bytes) : Option Bytes :=
  if isServerQueryRequest (some payload) then
    processUnconnectedQuery s reported listener maxUdpPayloadLength alloc payload
  else none

/-! ### Parsing what was built -/

variable {token expectedToken : BitVec 32} {info out : ServerQueryInfo}

theorem clampName_eq (name : Bytes) : clampName name = name.take SERVER_QUERY_MAX_NAME := by
  unfold clampName
  split
  · rfl
  next hshort =>
    exact (List.take_of_length_le (Nat.le_of_not_lt hshort)).symm

theorem length_clampName (name : Bytes) : (clampName name).length ≤ 200 := by
  rw [clampName_eq]
  exact List.length_take_le _ _

/-- The fields of a reply. -/
def replyFields (token : BitVec 32) (info : ServerQueryInfo) : List Field :=
  [.bytes SERVER_QUERY_REPLY_MARKER, .u32 token, .u16 info.protocolVersion, .u16 info.currentUsers,
    .u16 info.maxUsers, .u8 (flagsOf info), .string (clampName info.serverName)]

def replyReads : List Read :=
  [.bytes ⟨List.replicate SERVER_QUERY_REPLY_MARKER.length 0, by decide⟩, .u32, .u16, .u16, .u16,
    .u8, .string]

theorem encodings_replyFields (token : BitVec 32) (info : ServerQueryInfo) :
    encodings (replyFields token info) = buildServerQueryReply token info := by
  simp [encodings, replyFields, Field.encoding, buildServerQueryReply]

theorem reads_replyFields : List.Forall₂ Read.Reads replyReads (replyFields token info) :=
  .cons rfl (.cons trivial (.cons trivial (.cons trivial (.cons trivial
    (.cons trivial (.cons trivial .nil))))))

theorem fits_replyFields : ∀ field ∈ replyFields token info, field.Fits := by
  have hname := length_clampName info.serverName
  simp only [replyFields, List.forall_mem_cons, List.not_mem_nil, Field.Fits]
  exact ⟨trivial, trivial, trivial, trivial, trivial, trivial, by omega, fun _ h => h.elim⟩

theorem readsBack_marker : ReadsBack
    (readBytes (List.replicate SERVER_QUERY_REPLY_MARKER.length 0)) SERVER_QUERY_REPLY_MARKER
    SERVER_QUERY_REPLY_MARKER := readsBack_bytes (List.length_replicate ..)

/-- The reader behind the last field. -/
theorem run_replyReads (data : Bytes) :
    ((readFields replyReads).run { rest := SERVER_QUERY_REPLY_MARKER ++ data }).2 =
      (readInfo.run (readU32.run { rest := data }).2).2 := by
  have hpure : ∀ {α : Type} (a : α) (r : BinaryReader), (Pure.pure a : Reads α).run r = (a, r) :=
    fun _ _ => rfl
  have hmarker := congrArg (fun p : Bytes × BinaryReader =>
    (readInfo.run (readU32.run p.2).2).2) (readsBack_marker data)
  refine Eq.trans ?_ hmarker
  simp only [readInfo, replyReads, readFields, readField, run_bind, hpure]

theorem flags_locked (info : ServerQueryInfo) :
    decide (flagsOf info &&& SERVER_QUERY_FLAG_PASSWORD_LOCKED ≠ 0) = info.passwordLocked := by
  unfold flagsOf
  cases info.passwordLocked <;> decide

theorem readsBack_info (info : ServerQueryInfo) :
    ReadsBack readInfo (writeU16 info.protocolVersion ++ (writeU16 info.currentUsers ++
      (writeU16 info.maxUsers ++ (writeU8 (flagsOf info) ++
        writeText (clampName info.serverName)))))
      { info with serverName := clampName info.serverName } := by
  have hname := length_clampName info.serverName
  unfold readInfo
  refine (readsBack_u16 _).bind ((readsBack_u16 _).bind ((readsBack_u16 _).bind
    ((readsBack_u8 _).bind ?_)))
  rw [flags_locked]
  exact (readsBack_text (by omega)).map _

/-- A reply in front of the parser: its marker and token, and what follows. -/
theorem parse_marker (data : Bytes) (expectedToken : BitVec 32) (out : ServerQueryInfo) :
    parseServerQueryReply (some (SERVER_QUERY_REPLY_MARKER ++ data)) expectedToken out =
      if (readU32.run { rest := data }).1 ≠ expectedToken then (false, out)
      else if (readInfo.run (readU32.run { rest := data }).2).2.error then (false, out)
      else (true, (readInfo.run (readU32.run { rest := data }).2).1) := by
  have hlong : ¬ (SERVER_QUERY_REPLY_MARKER ++ data).length < SERVER_QUERY_REPLY_MARKER.length := by
    rw [List.length_append]
    omega
  unfold parseServerQueryReply
  dsimp only
  rw [if_neg hlong, List.take_left, if_neg (not_not_intro rfl), readsBack_marker data]

theorem parse_unmarked {data : Bytes} (h : ¬ SERVER_QUERY_REPLY_MARKER <+: data) :
    parseServerQueryReply (some data) expectedToken out = (false, out) := by
  unfold parseServerQueryReply
  dsimp only
  by_cases hshort : data.length < SERVER_QUERY_REPLY_MARKER.length
  · rw [if_pos hshort]
  · rw [if_neg hshort, if_pos fun htake => h (List.prefix_iff_eq_take.mpr htake.symm)]

/-- The token of a built reply is read, and then its info. -/
theorem parse_built (token expectedToken : BitVec 32) (info out : ServerQueryInfo) :
    parseServerQueryReply (some (buildServerQueryReply token info)) expectedToken out =
      if token ≠ expectedToken then (false, out)
      else (true, { info with serverName := info.serverName.take SERVER_QUERY_MAX_NAME }) := by
  have htoken := readsBack_u32 token (writeU16 info.protocolVersion ++
    (writeU16 info.currentUsers ++ (writeU16 info.maxUsers ++ (writeU8 (flagsOf info) ++
      writeText (clampName info.serverName)))))
  have hinfo := readsBack_info info []
  rw [List.append_nil] at hinfo
  simp only [buildServerQueryReply, List.append_assoc]
  rw [parse_marker, htoken, hinfo, clampName_eq]
  rfl

theorem parse_cut {n : Nat} (hn : n < (buildServerQueryReply token info).length) :
    parseServerQueryReply (some ((buildServerQueryReply token info).take n)) expectedToken out =
      (false, out) := by
  by_cases hmarked : SERVER_QUERY_REPLY_MARKER <+: (buildServerQueryReply token info).take n
  · obtain ⟨data, hdata⟩ : ∃ data : Bytes, SERVER_QUERY_REPLY_MARKER ++ data =
        (buildServerQueryReply token info).take n := hmarked
    rw [← encodings_replyFields] at hn hdata
    obtain ⟨k, hk, hle, hlt⟩ := first_short hn
    have hfailed := (readFields_cut reads_replyFields fits_replyFields hk hle hlt).2
    have hlength : k < replyReads.length := by rwa [reads_replyFields.length_eq]
    have herror := hfailed replyReads.length hlength []
    rw [List.take_length, List.append_nil, ← hdata] at herror
    have hbehind := (congrArg BinaryReader.error (run_replyReads data)).symm.trans herror
    rw [← encodings_replyFields, ← hdata, parse_marker, hbehind, if_pos rfl, ite_self]
  · exact parse_unmarked hmarked

/-! ### No amplification -/

variable {s : Server} {reported : ReportedInfo} {listener : Bool} {maxUdpPayloadLength : BitVec 16}
  {alloc : BitVec 16 → Option (BitVec 32)} {payload reply : Bytes}

/-- What MsQuic sends fits into the capacity, which is at most the length of the request. -/
theorem length_processUnconnectedQuery (h : reply ∈ processUnconnectedQuery s reported listener
    maxUdpPayloadLength alloc payload) : reply.length ≤ payload.length := by
  have havail : (BitVec.ofNat 16 payload.length).toNat ≤ payload.length := Nat.mod_le _ _
  unfold processUnconnectedQuery at h
  dsimp only at h
  generalize hcap : (if maxUdpPayloadLength < BitVec.ofNat 16 payload.length then
    maxUdpPayloadLength else BitVec.ofNat 16 payload.length) = replyCap at h
  have hle : replyCap.toNat ≤ (BitVec.ofNat 16 payload.length).toNat := by
    rw [← hcap]
    split
    next hlt =>
      exact (BitVec.lt_def.mp hlt).le
    · exact le_rfl
  split at h
  · cases h
  · cases halloc : alloc replyCap with
    | none =>
        rw [halloc] at h
        cases h
    | some length =>
        rw [halloc] at h
        dsimp only at h
        generalize onUnconnectedQuery s reported payload (length.setWidth 16) = written at h
        split at h
        · cases h
        next hsent =>
          obtain rfl := Option.some.inj h
          have hshort : written.2.toNat ≤ replyCap.toNat :=
            Nat.le_of_not_lt fun hlt => hsent (.inr (BitVec.lt_def.mpr hlt))
          rw [List.length_take]
          omega

/-! ### The codec and the server -/

/-- What is built is parsed with its token, with the name clamped; another token, a strict
prefix and a wrong marker are refused, and the output stays; no reply is longer than its
request. -/
theorem query_codec :
    (∀ token info out, parseServerQueryReply (some (buildServerQueryReply token info)) token out =
      (true, { info with serverName := info.serverName.take SERVER_QUERY_MAX_NAME })) ∧
    (∀ token expectedToken info out, token ≠ expectedToken →
      parseServerQueryReply (some (buildServerQueryReply token info)) expectedToken out =
        (false, out)) ∧
    (∀ token expectedToken info out, ∀ n < (buildServerQueryReply token info).length,
      parseServerQueryReply (some ((buildServerQueryReply token info).take n)) expectedToken out =
        (false, out)) ∧
    (∀ data expectedToken out, ¬ SERVER_QUERY_REPLY_MARKER <+: data →
      parseServerQueryReply (some data) expectedToken out = (false, out)) ∧
    ∀ s reported listener maxUdpPayloadLength alloc payload,
      ∀ reply ∈ receiveDatagram s reported listener maxUdpPayloadLength alloc payload,
        reply.length ≤ payload.length := by
  refine ⟨fun token info out => ?_, fun token expectedToken info out htoken => ?_,
    fun token expectedToken info out n hn => parse_cut hn,
    fun data expectedToken out hmarker => parse_unmarked hmarker,
    fun s reported listener maxUdpPayloadLength alloc payload reply hreply => ?_⟩
  · rw [parse_built, if_neg (not_not_intro rfl)]
  · rw [parse_built, if_pos htoken]
  · unfold receiveDatagram at hreply
    split at hreply
    · exact length_processUnconnectedQuery hreply
    · cases hreply

/-! ### A query is answered -/

theorem token_request (token : BitVec 32) :
    serverQueryRequestToken (some (buildServerQueryRequest token)) = token := by
  have hmagic : SERVER_QUERY_MAGIC.length = SERVER_QUERY_TOKEN_OFFSET := rfl
  have hlong : ¬ (buildServerQueryRequest token).length < SERVER_QUERY_MIN_REQUEST := by
    simp [buildServerQueryRequest, SERVER_QUERY_MAGIC, SERVER_QUERY_MIN_REQUEST]
  have hwindow : ((buildServerQueryRequest token).drop SERVER_QUERY_TOKEN_OFFSET).take 4 =
      writeU32 token := by
    rw [buildServerQueryRequest, List.append_assoc, ← hmagic, List.drop_left,
      List.take_left' (length_writeU32 token)]
  unfold serverQueryRequestToken
  dsimp only
  rw [if_neg hlong, hwindow, writeU32, ByteStream.readLe_le token.isLt, BitVec.ofNat_toNat,
    BitVec.setWidth_eq]

theorem length_buildServerQueryReply (token : BitVec 32) (info : ServerQueryInfo) :
    (buildServerQueryReply token info).length ≤ 217 := by
  have hname := length_clampName info.serverName
  have hmarker : SERVER_QUERY_REPLY_MARKER.length = 4 := rfl
  simp only [buildServerQueryReply, List.length_append, hmarker, length_writeU32, length_writeU16,
    length_writeU8, length_writeText]
  omega

/-- The padding leaves room for every reply, and the client reads what the server reports. -/
theorem query_answered (s : Server) (reported : ReportedInfo) (token : BitVec 32)
    (out : ServerQueryInfo) : parseServerQueryReply
      (some (onUnconnectedQuery s reported (buildServerQueryRequest token) 256).1) token out =
        (true, { serverInfo s reported with
          serverName := reported.queryServerName.take SERVER_QUERY_MAX_NAME }) := by
  have hrequest : isServerQueryRequest (some (buildServerQueryRequest token)) = true := by
    simp [isServerQueryRequest, buildServerQueryRequest]
  have hfits := length_buildServerQueryReply token (serverInfo s reported)
  have hcapacity : (256 : BitVec 16).toNat = 256 := rfl
  unfold onUnconnectedQuery
  rw [hrequest, Bool.not_true, if_neg Bool.false_ne_true, token_request, if_neg (by omega),
    parse_built, if_neg (not_not_intro rfl)]
  rfl

end Parties.ServerQuery

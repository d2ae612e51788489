import Mathlib.Algebra.Group.Action.Defs
import Mathlib.Algebra.Order.BigOperators.Group.List
import Mathlib.Algebra.Order.Ring.Nat
import Parties.Client.ChatReading
import Parties.Server.WholeSends
import Parties.Wire.ControlCuts

/-!
# Reading a channel page by page

The client shows the newest page of a channel and asks for what is before the oldest
message it has, as long as the last answer said that there is more. Stored messages stand
in the order of their ids, so a page is the end of what is before its bound, and what is
left for the next page is exactly the rest. `hasMore` is the question whether that rest is
empty, so the loop ends with the page that empties it.

A page counts its messages and not their bytes. One of more than 1 MiB is sent, and thrown away
by the parser of the client: no answer comes, and everything from that page on stays out of
reach. With pages small enough the loop reads the whole channel, and only with these.
-/

namespace Parties

open Parties.ByteStream Parties.Wire Parties.Wire.BinaryReader

namespace ChatDatabase

/-! ### A page is the end of what is before it -/

/-- The messages of a channel before an id, or all, in the order they are stored in. -/
def before (db : ChatDatabase) (channel : BitVec 32) (bound : BitVec 64) : List StoredMessage :=
  db.messages.filter (inPage channel bound)

theorem newestFirst_of_ascending {rows : List StoredMessage}
    (h : rows.Pairwise fun m m' => m.id.toInt < m'.id.toInt) : newestFirst rows = rows.reverse := by
  have hperm : (newestFirst rows).Perm rows.reverse :=
    (List.perm_insertionSort _ rows).trans (List.reverse_perm rows).symm
  refine hperm.eq_of_pairwise ?_ (pairwise_newestFirst h) (List.pairwise_reverse.mpr h)
  intro m m' _ _ hlt hgt
  omega

theorem Sound.ascending_before {db : ChatDatabase} (hs : db.Sound) (channel : BitVec 32)
    (bound : BitVec 64) :
    (db.before channel bound).Pairwise fun m m' => m.id.toInt < m'.id.toInt :=
  hs.ascending.filter _

/-- The newest rows of a page are the last ones. -/
theorem Sound.getMessages_eq {db : ChatDatabase} (hs : db.Sound) (channel : BitVec 32)
    (bound : BitVec 64) (limit : Nat) :
    db.getMessages channel bound limit =
      ((db.before channel bound).drop ((db.before channel bound).length - limit)).map
        StoredMessage.toMessageRow := by
  rw [getMessages, ← before, newestFirst_of_ascending (hs.ascending_before channel bound),
    ← List.map_reverse, List.reverse_take, List.reverse_reverse, List.length_reverse]

/-- What is before a message of the channel is what stands in front of it. -/
theorem Sound.before_message {db : ChatDatabase} (hs : db.Sound) {channel : BitVec 32}
    {front : StoredMessage} {pre rest : List StoredMessage}
    (hall : db.before channel 0 = pre ++ front :: rest) : db.before channel front.id = pre := by
  have hmem : front ∈ db.before channel 0 := by
    rw [hall]
    exact List.mem_append_right _ List.mem_cons_self
  have hne : front.id ≠ 0 := by
    intro hzero
    obtain ⟨hpos, _⟩ := hs.used front (List.mem_of_mem_filter hmem)
    rw [hzero] at hpos
    exact absurd hpos (by decide)
  have hbefore : db.before channel front.id =
      (db.before channel 0).filter fun m => decide (m.id.toInt < front.id.toInt) := by
    have hbound : decide (front.id = 0) = false := decide_eq_false hne
    rw [before, before, List.filter_filter]
    refine List.filter_congr fun m _ => ?_
    unfold inPage
    rw [hbound, Bool.false_or, decide_eq_true (show (0 : BitVec 64) = 0 from rfl), Bool.true_or,
      Bool.and_true, Bool.and_comm]
  have hasc := hs.ascending_before channel 0
  rw [hall] at hasc
  obtain ⟨_, hrest, hcross⟩ := List.pairwise_append.mp hasc
  rw [hbefore, hall, List.filter_append]
  have hpre : pre.filter (fun m => decide (m.id.toInt < front.id.toInt)) = pre :=
    List.filter_eq_self.mpr fun m hm => decide_eq_true (hcross m hm front List.mem_cons_self)
  have hbehind : (front :: rest).filter (fun m => decide (m.id.toInt < front.id.toInt)) = [] := by
    refine List.filter_eq_nil_iff.mpr fun m hm hlt => ?_
    have hlt' := of_decide_eq_true hlt
    rcases List.mem_cons.mp hm with rfl | hm
    · omega
    · have hafter := (List.pairwise_cons.mp hrest).1 m hm
      omega
  rw [hpre, hbehind, List.append_nil]

end ChatDatabase

namespace ChatServer

open ChatDatabase

variable {c : ChatServer} {sid : SessionId} {channel : BitVec 32} {bound : BitVec 64}

/-- A page says that there is more exactly if something is left. -/
theorem hasMore_left (hs : c.db.Sound) {left page : List StoredMessage}
    (hempty : page = [] → left = [])
    (hfront : ∀ front rest, page = front :: rest → c.db.before channel front.id = left) :
    (match page.map StoredMessage.toMessageRow with
      | [] => false
      | front :: _ => !(c.db.getMessages channel front.id 1).isEmpty) = !left.isEmpty := by
  cases hcons : page with
  | nil =>
      -- an empty page has nothing before it
      rw [hempty hcons]
      rfl
  | cons front rest =>
      show (!(c.db.getMessages channel front.id 1).isEmpty) = !left.isEmpty
      rw [hs.getMessages_eq, hfront front rest hcons, List.isEmpty_map]
      cases left with
      | nil => rfl
      | cons oldest others => simp [List.drop_eq_nil_iff]

/-- A page cuts the end off what is before its bound, and says whether something is left. -/
theorem historyPage_cuts (hs : c.db.Sound) {limit : BitVec 16} (hlimit : 1 ≤ limit.toNat)
    {pre suf : List StoredMessage} (hall : c.db.before channel 0 = pre ++ suf)
    (hbound : c.db.before channel bound = pre) :
    ∃ left page, pre = left ++ page ∧ page.length = min pre.length (min limit.toNat 100) ∧
      c.historyPage ⟨channel, bound, limit⟩ =
        (page.map StoredMessage.toMessageRow, !left.isEmpty) ∧
      ∀ front rest, page = front :: rest → c.db.before channel front.id = left := by
  set count := min limit.toNat 100 with hcount
  set left := pre.take (pre.length - count) with hleft
  set page := pre.drop (pre.length - count) with hpage
  have hcut : pre = left ++ page := (List.take_append_drop _ pre).symm
  have hfront : ∀ front rest, page = front :: rest → c.db.before channel front.id = left := by
    intro front rest hcons
    have hsplit : c.db.before channel 0 = left ++ front :: (rest ++ suf) := by
      rw [hall, hcut, hcons, List.append_assoc, List.cons_append]
    exact hs.before_message hsplit
  refine ⟨left, page, hcut, ?_, ?_, hfront⟩
  · rw [hpage, List.length_drop]
    omega
  · have hmessages : c.db.getMessages channel bound count =
        page.map StoredMessage.toMessageRow := by
      rw [hs.getMessages_eq, hbound]
    have hempty : page = [] → left = [] := by
      intro hnil
      rw [hpage, List.drop_eq_nil_iff] at hnil
      rw [hleft, List.take_eq_nil_iff]
      omega
    rw [historyPage, ← hcount, hmessages]
    exact Prod.ext rfl (hasMore_left hs hempty hfront)

/-- The answer to a history request. -/
theorem handle_historyReq (hin : sid ∈ c.server.sessionTable)
    (hauth : (c.session sid).authenticated = true) (channel : BitVec 32) (bound : BitVec 64)
    (limit : BitVec 16) :
    (c.handle sid (.chatHistoryReq (writeU32 channel ++ (writeU64 bound ++ writeU16 limit)))).2 =
      [(sid, .chatHistoryResp channel (c.historyPage ⟨channel, bound, limit⟩).2
        ((c.historyPage ⟨channel, bound, limit⟩).1.map c.withAttachments))] := by
  have hreads : ReadsBack readChatHistoryReq
      (writeU32 channel ++ (writeU64 bound ++ writeU16 limit)) ⟨channel, bound, limit⟩ :=
    (readsBack_u32 channel).bind ((readsBack_u64 bound).bind ((readsBack_u16 limit).map _))
  have hhandle : c.handle sid (.chatHistoryReq
      (writeU32 channel ++ (writeU64 bound ++ writeU16 limit))) =
      c.chatHistoryReq sid (writeU32 channel ++ (writeU64 bound ++ writeU16 limit)) :=
    if_neg (not_not.mpr hin)
  rw [hhandle, chatHistoryReq, if_neg (by simp [hauth]), parse_readsBack_all hreads]
  rfl

end ChatServer

/-! ### The loop -/

namespace Client.ChatClient

open ChatServer ChatDatabase

/-- The bound of the next request, if the client asks for more. -/
def olderThan (k : ChatClient) : Option (BitVec 64) :=
  match k.messages with
  | [] => none
  | front :: _ => if !k.hasMoreHistory then none else some front.id

theorem loadMoreHistory_eq (k : ChatClient) :
    k.loadMoreHistory = (k.olderThan.map (historyReq k.activeChannel)).toList := by
  unfold loadMoreHistory olderThan
  cases k.messages with
  | nil => rfl
  | cons front rest => cases k.hasMoreHistory <;> rfl

/-- The message the parser of the client finds in the bytes of a reply, which the transport
brings in pieces. Between two replies its buffer is empty. -/
def receiveReply (cut : Bytes → List Bytes) (reply : ChatReply) :
    Option Wire.ControlMessage :=
  match (cut (QuicServer.sendControlOnStream reply.encode)).foldl NetClient.processStreamData {} with
  | ⟨[], [message]⟩ => some message
  | _ => none

/-- Request the page before `bound` and go on as long as there is more: the pages, newest
first, and the client at the end; none if an answer is missing, or never found by the client,
or `fuel` requests are not enough. -/
def browse (c : ChatServer) (sid : SessionId) (limit : BitVec 16) (cut : Bytes → List Bytes) :
    Nat → BitVec 64 → ChatClient → Option (List (List ChatMessage) × ChatClient)
  | 0, _, _ => none
  | fuel + 1, bound, k =>
    let request := writeU32 k.activeChannel ++ (writeU64 bound ++ writeU16 limit)
    match (c.handle sid (.chatHistoryReq request)).2 with
    | [(_, .chatHistoryResp channel hasMore page)] =>
      match receiveReply cut (.chatHistoryResp channel hasMore page) with
      | none => none
      | some message =>
        let k := (k.handleServerMessage message).1
        match k.olderThan with
        | none => some ([page], k)
        | some bound => (browse c sid limit cut fuel bound k).map fun r => (page :: r.1, r.2)
    | _ => none

/-- The page that the request number `i` brings. -/
def pageAt (rows : List StoredMessage) (count i : Nat) : List StoredMessage :=
  (rows.take (rows.length - i * count)).drop (rows.length - (i + 1) * count)

theorem pageAt_zero (rows : List StoredMessage) (count : Nat) :
    pageAt rows count 0 = rows.drop (rows.length - count) := by
  simp [pageAt]

/-- The pages of what the first one leaves. -/
theorem pageAt_succ (rows : List StoredMessage) (count i : Nat) :
    pageAt rows count (i + 1) = pageAt (rows.take (rows.length - count)) count i := by
  have hlength : (rows.take (rows.length - count)).length = rows.length - count := by
    rw [List.length_take]
    omega
  have hfirst : rows.length - count - i * count = rows.length - (i + 1) * count := by
    rw [Nat.succ_mul]
    omega
  have hsecond : rows.length - count - (i + 1) * count = rows.length - (i + 1 + 1) * count := by
    rw [Nat.succ_mul (i + 1)]
    omega
  rw [pageAt, pageAt, hlength, List.take_take, hfirst, hsecond]
  congr 2
  rw [Nat.succ_mul]
  omega

variable {c : ChatServer} {sid : SessionId} {limit : BitVec 16} {k : ChatClient}
  {cut : Bytes → List Bytes}

/-- A stored message as it travels. -/
def sentForm (c : ChatServer) (m : StoredMessage) : ChatMessage :=
  c.withAttachments m.toMessageRow

/-- A stored message as the client shows it. -/
def onScreen (c : ChatServer) (k : ChatClient) (m : StoredMessage) : ShownMessage :=
  (sentForm c m).shown k.userId

/-- The page passes the parser of the client. -/
def PageFits (c : ChatServer) (page : List StoredMessage) : Prop :=
  7 + (page.map fun m => (sentForm c m).size).sum ≤ ChatReply.MAX_PAYLOAD

theorem length_page (channel : BitVec 32) (hasMore : Bool) (page : List StoredMessage) :
    (ChatReply.chatHistoryResp channel hasMore (page.map (sentForm c))).encode.payload.length =
      7 + (page.map fun m => (sentForm c m).size).sum := by
  have hsizes : ((page.map (sentForm c)).map ChatMessage.write).map List.length =
      page.map fun m => (sentForm c m).size := by
    rw [List.map_map, List.map_map]
    exact List.map_congr_left fun m _ => (sentForm c m).length_write
  have hhead : (ChatReply.head (.chatHistoryResp channel hasMore
      (page.map (sentForm c)))).length = 5 := by
    simp [ChatReply.head]
  rw [ChatReply.length_payload, hhead, ChatReply.elements, hsizes]
  rfl

theorem pageFits_iff (channel : BitVec 32) (hasMore : Bool) (page : List StoredMessage) :
    PageFits c page ↔ 2 + (ChatReply.chatHistoryResp channel hasMore
      (page.map (sentForm c))).encode.payload.length ≤ NetClient.MAX_LENGTH.toNat := by
  rw [ChatReply.withinLimit_iff, length_page]
  rfl

/-- However it is cut, a reply within the limit is found. -/
theorem receiveReply_of_withinLimit (hcut : ∀ bytes, (cut bytes).flatten = bytes)
    {reply : ChatReply} (hlimit : 2 + reply.encode.payload.length ≤ NetClient.MAX_LENGTH.toNat) :
    receiveReply cut reply = some reply.encode := by
  rw [receiveReply, ChatReply.received_of_withinLimit hlimit (hcut _)]

/-- A longer one that comes in one piece is not. -/
theorem receiveReply_of_long {reply : ChatReply} (hlong : NetClient.MAX_LENGTH.toNat <
    2 + reply.encode.payload.length) (hwidth : 2 + reply.encode.payload.length < 2 ^ 32) :
    receiveReply (fun bytes => [bytes]) reply = none := by
  have hfield : lengthOf (encodeControl reply.encode) = 2 + reply.encode.payload.length := by
    rw [lengthOf, encodeControl_eq, List.take_left' (length_le 4 _), readLe_le (BitVec.isLt _),
      lengthField, BitVec.toNat_ofNat, Nat.mod_eq_of_lt hwidth]
  have hinvalid : NetClient.parseFront (encodeControl reply.encode) = .invalid := by
    refine (parseControl_invalid (by decide) _).mpr ⟨?_, .inr ?_⟩
    · rw [length_encodeControl]
      omega
    · rw [hfield]
      exact hlong
  have hempty : NetClient.processStreamData {} (encodeControl reply.encode) = {} := by
    have hnone := receive_invalid hinvalid
    simp only [NetClient.processStreamData, hnone, List.append_nil]
  simp only [receiveReply, QuicServer.sendControlOnStream, List.foldl_cons, List.foldl_nil, hempty]

theorem sentForm_fits (hs : c.db.Sound) {channel : BitVec 32} {bound : BitVec 64}
    {m : StoredMessage} (h : m ∈ c.db.before channel bound) : (sentForm c m).Fits :=
  withAttachments_fits hs (hs.rowsFit m (List.mem_of_mem_filter h))

/-- What the client makes of a page. -/
theorem handle_page (hs : c.db.Sound) {bound : BitVec 64} {left page : List StoredMessage}
    (hbound : c.db.before k.activeChannel bound = left ++ page) (hshort : page.length ≤ 100)
    (hasMore : Bool) :
    (k.handleServerMessage
        (ChatReply.chatHistoryResp k.activeChannel hasMore (page.map (sentForm c))).encode).1 =
      { k with
        messages := page.map (onScreen c k) ++ k.messages
        hasMoreHistory := hasMore } := by
  rw [handleServerMessage_encode]
  · show k.takeHistory k.activeChannel hasMore (page.map (sentForm c)) = _
    rw [takeHistory, if_neg (not_not.mpr rfl), List.map_map]
    rfl
  · refine ⟨?_, ?_⟩
    · rw [List.length_map]
      omega
    · intro m hm
      obtain ⟨stored, hstored, rfl⟩ := List.mem_map.mp hm
      have hin : stored ∈ c.db.before k.activeChannel bound := by
        rw [hbound]
        exact List.mem_append_right _ hstored
      exact sentForm_fits hs hin

/-- The client with a page in front of what it shows. -/
def withPage (c : ChatServer) (k : ChatClient) (page : List StoredMessage) (hasMore : Bool) :
    ChatClient :=
  { k with
    messages := page.map (onScreen c k) ++ k.messages
    hasMoreHistory := hasMore }

theorem withPage_shown (page : List StoredMessage) {suf : List StoredMessage} (hasMore : Bool)
    (hshown : k.messages = suf.map (onScreen c k)) :
    (k.withPage c page hasMore).messages =
      (page ++ suf).map (onScreen c (k.withPage c page hasMore)) := by
  show page.map (onScreen c k) ++ k.messages = (page ++ suf).map (onScreen c k)
  rw [hshown, List.map_append]

/-- A request that is answered with a page. -/
theorem browse_answer (hin : sid ∈ c.server.sessionTable)
    (hauth : (c.session sid).authenticated = true) {bound : BitVec 64} {page : List StoredMessage}
    {hasMore : Bool} (hpage : c.historyPage ⟨k.activeChannel, bound, limit⟩ =
      (page.map StoredMessage.toMessageRow, hasMore)) (fuel : Nat) :
    browse c sid limit cut (fuel + 1) bound k =
      match receiveReply cut (.chatHistoryResp k.activeChannel hasMore (page.map (sentForm c))) with
      | none => none
      | some message =>
        match (k.handleServerMessage message).1.olderThan with
        | none => some ([page.map (sentForm c)], (k.handleServerMessage message).1)
        | some bound =>
          (browse c sid limit cut fuel bound (k.handleServerMessage message).1).map fun r =>
            (page.map (sentForm c) :: r.1, r.2) := by
  have hanswer := handle_historyReq hin hauth k.activeChannel bound limit
  rw [hpage, List.map_map] at hanswer
  change _ = [(sid, ChatReply.chatHistoryResp k.activeChannel hasMore
    (page.map (sentForm c)))] at hanswer
  rw [browse]
  simp only [hanswer]

/-- A page that fits is put in front of what the client shows. -/
theorem browse_page (hin : sid ∈ c.server.sessionTable)
    (hauth : (c.session sid).authenticated = true) (hs : c.db.Sound)
    (hcut : ∀ bytes, (cut bytes).flatten = bytes) {bound : BitVec 64}
    {left page : List StoredMessage} (hbound : c.db.before k.activeChannel bound = left ++ page)
    (hshort : page.length ≤ 100) (hfits : PageFits c page) {hasMore : Bool}
    (hpage : c.historyPage ⟨k.activeChannel, bound, limit⟩ =
      (page.map StoredMessage.toMessageRow, hasMore)) (fuel : Nat) :
    browse c sid limit cut (fuel + 1) bound k =
      match (k.withPage c page hasMore).olderThan with
      | none => some ([page.map (sentForm c)], k.withPage c page hasMore)
      | some bound =>
        (browse c sid limit cut fuel bound (k.withPage c page hasMore)).map fun r =>
          (page.map (sentForm c) :: r.1, r.2) := by
  have hreceived := receiveReply_of_withinLimit hcut
    ((pageFits_iff k.activeChannel hasMore page).mp hfits)
  have hhandle := handle_page (k := k) hs hbound hshort hasMore
  rw [browse_answer hin hauth hpage, hreceived]
  dsimp only
  rw [hhandle]
  rfl

/-- A message has some 33 MB at most, with its attachments. -/
theorem size_lt {m : ChatMessage} (h : m.Fits) : m.size < 34000000 := by
  have hname : m.row.senderName.length < 2 ^ 16 := h.row.senderName
  have htext : m.row.text.length < 2 ^ 16 := h.row.text
  have hattachment : ∀ n ∈ m.attachments.map ChatAttachment.size, n ≤ 131091 := by
    intro n hn
    obtain ⟨a, ha, rfl⟩ := List.mem_map.mp hn
    have hfileName : a.fileName.length < 2 ^ 16 := (h.attachments a ha).fileName
    have hmimeType : a.mimeType.length < 2 ^ 16 := (h.attachments a ha).mimeType
    rw [ChatAttachment.size]
    omega
  have hsum := List.sum_le_card_nsmul _ _ hattachment
  have hcount := h.count
  rw [List.length_map, smul_eq_mul] at hsum
  rw [ChatMessage.size, MessageRow.size]
  omega

/-- The length of a page does not wrap around in the 32 bits it is sent in. -/
theorem length_page_lt (hs : c.db.Sound) {bound : BitVec 64} {left page : List StoredMessage}
    (hbound : c.db.before k.activeChannel bound = left ++ page) (hshort : page.length ≤ 100)
    (hasMore : Bool) : 2 + (ChatReply.chatHistoryResp k.activeChannel hasMore
      (page.map (sentForm c))).encode.payload.length < 2 ^ 32 := by
  have hsmall : ∀ n ∈ page.map fun m => (sentForm c m).size, n ≤ 34000000 := by
    intro n hn
    obtain ⟨m, hm, rfl⟩ := List.mem_map.mp hn
    have hin : m ∈ c.db.before k.activeChannel bound := by
      rw [hbound]
      exact List.mem_append_right _ hm
    exact (size_lt (sentForm_fits hs hin)).le
  have hsum := List.sum_le_card_nsmul _ _ hsmall
  rw [List.length_map, smul_eq_mul] at hsum
  rw [length_page]
  omega

/-- After a page that does not fit, and comes in one piece, nothing is left to ask with. -/
theorem browse_long_page (hin : sid ∈ c.server.sessionTable)
    (hauth : (c.session sid).authenticated = true) (hs : c.db.Sound) {bound : BitVec 64}
    {left page : List StoredMessage} (hbound : c.db.before k.activeChannel bound = left ++ page)
    (hshort : page.length ≤ 100) (hlong : ¬ PageFits c page) {hasMore : Bool}
    (hpage : c.historyPage ⟨k.activeChannel, bound, limit⟩ =
      (page.map StoredMessage.toMessageRow, hasMore)) (fuel : Nat) :
    browse c sid limit (fun bytes => [bytes]) (fuel + 1) bound k = none := by
  rw [pageFits_iff k.activeChannel hasMore page, not_le] at hlong
  have hnone := receiveReply_of_long hlong (length_page_lt hs hbound hshort hasMore)
  rw [browse_answer hin hauth hpage, hnone]

/-- The first page of what is left, and the others. -/
theorem pageAt_cut {pre left page : List StoredMessage} {count : Nat} (hcut : pre = left ++ page)
    (hlength : page.length = min pre.length count) :
    pageAt pre count 0 = page ∧ ∀ i, pageAt pre count (i + 1) = pageAt left count i := by
  have hleft : pre.length - count = left.length := by
    rw [hcut, List.length_append] at hlength ⊢
    omega
  constructor
  · rw [pageAt_zero, hleft, hcut, List.drop_left]
  · intro i
    rw [pageAt_succ, hleft, hcut, List.take_left]

/-- From a client that shows everything from `bound` on. -/
theorem browse_from (hin : sid ∈ c.server.sessionTable)
    (hauth : (c.session sid).authenticated = true) (hs : c.db.Sound)
    (hcuts : ∀ bytes, (cut bytes).flatten = bytes)
    (hlimit : 1 ≤ limit.toNat) {bound : BitVec 64} {pre suf : List StoredMessage} {fuel : Nat}
    (hall : c.db.before k.activeChannel 0 = pre ++ suf)
    (hbound : c.db.before k.activeChannel bound = pre)
    (hfits : ∀ i, PageFits c (pageAt pre (min limit.toNat 100) i))
    (hshown : k.messages = suf.map (onScreen c k)) (hfuel : pre.length < fuel) :
    ∃ pages k', browse c sid limit cut fuel bound k = some (pages, k') ∧
      pages.reverse.flatten = pre.map (sentForm c) ∧
      (∀ page ∈ pages, page.length ≤ min limit.toNat 100) ∧
      k' = { k with
        messages := (c.db.before k.activeChannel 0).map (onScreen c k)
        hasMoreHistory := false } := by
  induction fuel generalizing k bound pre suf with
  | zero => exact absurd hfuel (Nat.not_lt_zero _)
  | succ fuel ih =>
      obtain ⟨left, page, hcut, hlength, hpage, hfront⟩ :=
        historyPage_cuts hs hlimit hall hbound
      obtain ⟨hfirst, hothers⟩ := pageAt_cut hcut hlength
      have hcount : page.length ≤ min limit.toNat 100 := by
        rw [hlength]
        exact min_le_right _ _
      have hpageFits : PageFits c page := hfirst ▸ hfits 0
      have hleftFits : ∀ i, PageFits c (pageAt left (min limit.toNat 100) i) :=
        fun i => hothers i ▸ hfits (i + 1)
      have hshown' := withPage_shown page (!left.isEmpty) hshown
      have hall' : c.db.before k.activeChannel 0 = left ++ (page ++ suf) := by
        rw [← List.append_assoc, ← hcut]
        exact hall
      rw [browse_page hin hauth hs hcuts (hbound.trans hcut) (hcount.trans (min_le_right _ _))
        hpageFits hpage]
      cases left with
      | nil =>
          have hlast : (k.withPage c page false).olderThan = none := by
            unfold olderThan
            cases (k.withPage c page false).messages <;> rfl
          refine ⟨_, k.withPage c page false, by rw [List.isEmpty_nil, Bool.not_true, hlast],
            ?_, ?_, ?_⟩
          · rw [hcut]
            simp
          · intro page' hpage'
            rw [List.mem_singleton.mp hpage', List.length_map]
            exact hcount
          · rw [hall', List.nil_append, List.map_append, ← hshown]
            rfl
      | cons oldest others =>
          obtain ⟨front, rest, hcons⟩ : ∃ front rest, page = front :: rest := by
            apply List.exists_cons_of_length_pos
            rw [hlength, hcut, List.length_append, List.length_cons]
            omega
          have holder : (k.withPage c page true).olderThan = some front.id := by
            rw [hcons]
            rfl
          have hleft : (oldest :: others).length < fuel := by
            rw [hcut, List.length_append, hcons, @List.length_cons _ front rest] at hfuel
            omega
          obtain ⟨pages, k', hrun, hpages, hbounds, hk'⟩ := ih (k := k.withPage c page true) hall'
            (hfront front rest hcons) hleftFits hshown' hleft
          refine ⟨page.map (sentForm c) :: pages, k', ?_, ?_, ?_, hk'⟩
          · rw [List.isEmpty_cons, Bool.not_false, holder]
            dsimp only
            rw [hrun]
            rfl
          · rw [List.reverse_cons, List.flatten_append, hpages, hcut, List.map_append]
            simp
          · intro page' hpage'
            rcases List.mem_cons.mp hpage' with rfl | hrest
            · rw [List.length_map]
              exact hcount
            · exact hbounds page' hrest

/-- A loop that ends, with answers in one piece each, has had pages that fit. -/
theorem pagesFit_of_browse (hin : sid ∈ c.server.sessionTable)
    (hauth : (c.session sid).authenticated = true) (hs : c.db.Sound)
    (hlimit : 1 ≤ limit.toNat) {bound : BitVec 64} {pre suf : List StoredMessage} {fuel : Nat}
    (hall : c.db.before k.activeChannel 0 = pre ++ suf)
    (hbound : c.db.before k.activeChannel bound = pre)
    (hends : browse c sid limit (fun bytes => [bytes]) fuel bound k ≠ none) (i : Nat) :
    PageFits c (pageAt pre (min limit.toNat 100) i) := by
  induction fuel generalizing k bound pre suf i with
  | zero => exact absurd rfl hends
  | succ fuel ih =>
      obtain ⟨left, page, hcut, hlength, hpage, hfront⟩ :=
        historyPage_cuts hs hlimit hall hbound
      obtain ⟨hfirst, hothers⟩ := pageAt_cut hcut hlength
      have hcount : page.length ≤ 100 := by
        rw [hlength]
        exact (min_le_right _ _).trans (min_le_right _ _)
      have hpageFits : PageFits c page := by
        by_contra hlong
        exact hends (browse_long_page hin hauth hs (hbound.trans hcut) hcount hlong hpage fuel)
      have hall' : c.db.before k.activeChannel 0 = left ++ (page ++ suf) := by
        rw [← List.append_assoc, ← hcut]
        exact hall
      rw [browse_page hin hauth hs (fun bytes => List.flatten_singleton) (hbound.trans hcut) hcount
        hpageFits hpage] at hends
      cases i with
      | zero => exact hfirst.symm ▸ hpageFits
      | succ i =>
          rw [hothers i]
          cases left with
          | nil =>
              have hnone : pageAt [] (min limit.toNat 100) i = [] := by simp [pageAt]
              rw [hnone]
              exact (by decide : 7 ≤ 1048574)
          | cons oldest others =>
              obtain ⟨front, rest, hcons⟩ : ∃ front rest, page = front :: rest := by
                apply List.exists_cons_of_length_pos
                rw [hlength, hcut, List.length_append, List.length_cons]
                omega
              have holder : (k.withPage c page true).olderThan = some front.id := by
                rw [hcons]
                rfl
              rw [List.isEmpty_cons, Bool.not_false, holder] at hends
              refine ih (k := k.withPage c page true) hall' (hfront front rest hcons) ?_ i
              intro hnone
              dsimp only at hends
              rw [hnone] at hends
              exact hends rfl

/-- A client that selects the channel and asks for more until there is no more ends, and the
pages it got, the last one first, are the messages of the channel that are not deleted, in
ascending order, each once. -/
def ReadsAll (c : ChatServer) (sid : SessionId) (limit : BitVec 16) (cut : Bytes → List Bytes)
    (fuel : Nat) (k : ChatClient) (channel : BitVec 32) : Prop :=
  ∃ pages k', browse c sid limit cut fuel 0 (k.selectChannel channel).1 = some (pages, k') ∧
    pages.reverse.flatten =
      (c.db.messages.filter fun m => m.channelId = channel && !m.deleted).map (sentForm c) ∧
    (pages.reverse.flatten.Pairwise fun m m' => m.row.id.toInt < m'.row.id.toInt) ∧
    (∀ page ∈ pages, page.length ≤ min limit.toNat 100) ∧
    k'.messages = pages.reverse.flatten.map (ChatMessage.shown k.userId) ∧
    k'.hasMoreHistory = false

/-- The pages of a channel pass the parser of the client. -/
def PagesFit (c : ChatServer) (limit : BitVec 16) (channel : BitVec 32) : Prop :=
  ∀ i, PageFits c (pageAt (c.db.messages.filter fun m => m.channelId = channel && !m.deleted)
    (min limit.toNat 100) i)

theorem before_zero (c : ChatServer) (channel : BitVec 32) : c.db.before channel 0 =
    c.db.messages.filter fun m => m.channelId = channel && !m.deleted := by
  refine List.filter_congr fun m _ => ?_
  simp [inPage]

/-- For every set of stored messages and every page size but zero, with requests enough and
however the answers are cut: the client reads the whole channel if its pages fit. -/
theorem readsAll_of_pagesFit (hin : sid ∈ c.server.sessionTable)
    (hauth : (c.session sid).authenticated = true) (hs : c.db.Sound)
    (hlimit : 1 ≤ limit.toNat) (hcut : ∀ bytes, (cut bytes).flatten = bytes) (k : ChatClient)
    {channel : BitVec 32} {fuel : Nat} (hfuel : c.db.messages.length < fuel)
    (hfits : PagesFit c limit channel) : ReadsAll c sid limit cut fuel k channel := by
  have hall := before_zero c channel
  have hshort : (c.db.before channel 0).length < fuel :=
    lt_of_le_of_lt (List.length_filter_le _ _) hfuel
  rw [PagesFit, ← hall] at hfits
  obtain ⟨pages, k', hrun, hpages, hbounds, hk'⟩ :=
    browse_from (k := (k.selectChannel channel).1) hin hauth hs hcut hlimit
      (List.append_nil _).symm rfl hfits rfl hshort
  change pages.reverse.flatten = (c.db.before channel 0).map (sentForm c) at hpages
  refine ⟨pages, k', hrun, hall ▸ hpages, ?_, hbounds, ?_, ?_⟩
  · rw [hpages, List.pairwise_map]
    exact hs.ascending_before channel 0
  · rw [hk', hpages, List.map_map]
    rfl
  · rw [hk']

/-- Answers in one piece are enough to see it: a client that reads the channel to its end was sent
pages that fit. -/
theorem pagesFit_of_readsAll (hin : sid ∈ c.server.sessionTable)
    (hauth : (c.session sid).authenticated = true) (hs : c.db.Sound)
    (hlimit : 1 ≤ limit.toNat) {channel : BitVec 32} {fuel : Nat}
    (hreads : ReadsAll c sid limit (fun bytes => [bytes]) fuel k channel) :
    PagesFit c limit channel := by
  obtain ⟨pages, k', hrun, -⟩ := hreads
  rw [PagesFit, ← before_zero c channel]
  have hends : browse c sid limit (fun bytes => [bytes]) fuel 0 (k.selectChannel channel).1 ≠
      none := by
    rw [hrun]
    exact nofun
  exact pagesFit_of_browse (k := (k.selectChannel channel).1) hin hauth hs hlimit
    (List.append_nil _).symm rfl hends

/-- For every set of stored messages, every page size but zero and requests enough: the client
reads the whole channel, however the answers are cut, exactly if no page is too long for its
parser. -/
theorem history_complete_iff (hin : sid ∈ c.server.sessionTable)
    (hauth : (c.session sid).authenticated = true) (hs : c.db.Sound)
    (hlimit : 1 ≤ limit.toNat) (k : ChatClient) (channel : BitVec 32) {fuel : Nat}
    (hfuel : c.db.messages.length < fuel) :
    (∀ cut, (∀ bytes, (cut bytes).flatten = bytes) → ReadsAll c sid limit cut fuel k channel) ↔
      PagesFit c limit channel := by
  constructor
  · intro hreads
    exact pagesFit_of_readsAll hin hauth hs hlimit (hreads _ fun _ => List.flatten_singleton)
  · intro hfits cut hcut
    exact readsAll_of_pagesFit hin hauth hs hlimit hcut k hfuel hfits

def letter (id : BitVec 64) (deleted : Bool) : StoredMessage where
  id := id
  channelId := 1
  senderId := 1
  senderName := [97]
  text := [104]
  deleted := deleted

/-- Three messages, the second of them deleted. -/
def threeLetters : ChatServer :=
  { oneTextChannel with
    db := { messages := [letter 1 false, letter 2 true, letter 3 false], lastMessageId := 3 } }

theorem sound_threeLetters : threeLetters.db.Sound where
  bounded := by decide
  ascending := by decide
  used := by decide
  rowsFit := by
    intro m hm
    have hfits : ∀ m ∈ threeLetters.db.messages,
        m.senderName.length < 2 ^ 16 ∧ m.text.length < 2 ^ 16 := by decide
    exact ⟨(hfits m hm).1, (hfits m hm).2⟩
  attachmentsUsed := by simp [threeLetters]
  attachmentsFit := by simp [threeLetters]
  attachmentsFew := by simp [threeLetters]

/-- Page by page of one message. -/
theorem history_complete_iff_letters :
    (∀ cut, (∀ bytes, (cut bytes).flatten = bytes) →
        ReadsAll threeLetters 1 1 cut 4 { userId := 1 } 1) ↔ PagesFit threeLetters 1 1 :=
  history_complete_iff (by decide) (by decide) sound_threeLetters (by decide) { userId := 1 } 1
    (by decide)

/-- A message of 60000 bytes, where the configuration allows them. -/
def longMessage (i : Nat) : StoredMessage where
  id := BitVec.ofNat 64 (i + 1)
  channelId := 1
  senderId := 1
  senderName := [97]
  text := List.replicate 60000 97

/-- Eighteen of them, on one page of the usual size. -/
def longMessages : ChatServer :=
  { oneTextChannel with
    config := { maxMessageLength := 60000 }
    db := { messages := (List.range 18).map longMessage, lastMessageId := 18 } }

theorem sound_longMessages : longMessages.db.Sound where
  bounded := by decide
  ascending := by
    have hids : (List.range 18).Pairwise fun i j =>
        (BitVec.ofNat 64 (i + 1)).toInt < (BitVec.ofNat 64 (j + 1)).toInt := by decide
    exact List.pairwise_map.mpr hids
  used := by
    intro m hm
    obtain ⟨i, hi, rfl⟩ := List.mem_map.mp hm
    have hids : ∀ i ∈ List.range 18,
        0 < (BitVec.ofNat 64 (i + 1)).toInt ∧ (BitVec.ofNat 64 (i + 1)).toInt ≤ 18 := by decide
    exact hids i hi
  rowsFit := by
    intro m hm
    obtain ⟨i, -, rfl⟩ := List.mem_map.mp hm
    refine ⟨(by decide : 1 < 2 ^ 16), ?_⟩
    show (List.replicate 60000 (97 : UInt8)).length < 2 ^ 16
    rw [List.length_replicate]
    omega
  attachmentsUsed := by simp [longMessages]
  attachmentsFit := by simp [longMessages]
  attachmentsFew := by simp [longMessages]

theorem not_pagesFit_longMessages : ¬ PagesFit longMessages 50 1 := by
  intro hfits
  have hrows : (longMessages.db.messages.filter fun m => m.channelId = 1 && !m.deleted) =
      (List.range 18).map longMessage := by
    refine List.filter_eq_self.mpr fun m hm => ?_
    obtain ⟨i, -, rfl⟩ := List.mem_map.mp hm
    rfl
  have hpage : pageAt ((List.range 18).map longMessage) (min (50 : BitVec 16).toNat 100) 0 =
      (List.range 18).map longMessage := by
    rw [pageAt_zero, List.length_map, List.length_range]
    rfl
  have hfirst := hfits 0
  rw [hrows, hpage, PageFits, List.map_map] at hfirst
  have hlong : ∀ i ∈ List.range 18, 60000 ≤ (sentForm longMessages (longMessage i)).size := by
    intro i _
    have htext : (sentForm longMessages (longMessage i)).row.text.length = 60000 := List.length_replicate
    rw [ChatMessage.size, MessageRow.size, htext]
    omega
  have hsum : ((List.range 18).map fun _ => 60000).sum ≤
      ((List.range 18).map fun i => (sentForm longMessages (longMessage i)).size).sum :=
    List.sum_le_sum hlong
  have htotal : ((List.range 18).map fun _ => 60000).sum = 1080000 := by decide
  have hmax : ChatReply.MAX_PAYLOAD = 1048574 := rfl
  rw [htotal] at hsum
  rw [hmax] at hfirst
  simp only [Function.comp_def] at hfirst
  omega

/-- The first page of these messages is thrown away, and the client asks in vain. -/
theorem not_history_complete :
    ¬ ∀ (c : ChatServer) (sid : SessionId) (limit : BitVec 16) (k : ChatClient)
      (channel : BitVec 32) (fuel : Nat) (cut : Bytes → List Bytes),
      sid ∈ c.server.sessionTable → (c.session sid).authenticated = true → c.db.Sound →
      1 ≤ limit.toNat → c.db.messages.length < fuel → (∀ bytes, (cut bytes).flatten = bytes) →
      ReadsAll c sid limit cut fuel k channel := by
  intro hclaim
  have hreads := hclaim longMessages 1 50 { userId := 1 } 1 19 (fun bytes => [bytes]) (by decide)
    (by decide) sound_longMessages (by decide) (by decide) fun _ => List.flatten_singleton
  exact not_pagesFit_longMessages (pagesFit_of_readsAll (by decide) (by decide) sound_longMessages (by decide)
    hreads)

end Client.ChatClient

end Parties

import Parties.Client.ChatHop
import Parties.Client.PinUpdates
import Parties.Lib.Announcements

/-!
# The messages on screen

The list of the selected channel is put together from history pages in front, new
messages behind, and updates and deletions in place. Nothing merges them: a page is
prepended whatever stands there by now, and an update of a message that is not loaded
is appended like a new one. The list is in order as long as every page finds the list
it was asked for and every such update is of a message on screen.
-/

namespace Parties

open Parties.Wire.BinaryReader Parties.ChatServer Parties.Client Parties.Announcements

/-! ### What is on screen -/

namespace Client.ChatClient

/-- The ids in the list of the selected channel. -/
def shownIds (k : ChatClient) : List (BitVec 64) :=
  if k.activeChannel = 0 then [] else k.messages.map ShownMessage.id

/-- `putMessage`, on the ids. -/
def putId (id : BitVec 64) (ids : List (BitVec 64)) : List (BitVec 64) :=
  if id ∈ ids then ids else ids ++ [id]

theorem map_id_putMessage (msg : ShownMessage) (msgs : List ShownMessage) :
    (putMessage msg msgs).map ShownMessage.id = putId msg.id (msgs.map ShownMessage.id) := by
  induction msgs with
  | nil => rfl
  | cons m msgs ih =>
      rw [putMessage]
      split
      next heq =>
        rw [List.map_cons, List.map_cons, putId, heq, if_pos List.mem_cons_self]
      next hne =>
        rw [List.map_cons, ih, List.map_cons, putId, putId]
        by_cases hmem : msg.id ∈ msgs.map ShownMessage.id
        · rw [if_pos hmem, if_pos (List.mem_cons_of_mem _ hmem)]
        · have hnot : msg.id ∉ m.id :: msgs.map ShownMessage.id := by
            rw [List.mem_cons, not_or]
            exact ⟨Ne.symm hne, hmem⟩
          rw [if_neg hmem, if_neg hnot, List.cons_append]

theorem SameView.shownIds {k k' : ChatClient} (h : SameView k k') : k.shownIds = k'.shownIds := by
  rw [ChatClient.shownIds, ChatClient.shownIds, h.activeChannel, h.messages]

theorem shownIds_eq {k : ChatClient} (h : k.activeChannel ≠ 0) :
    k.shownIds = k.messages.map ShownMessage.id := if_neg h

theorem map_id_markFileReady (messageId attachmentId : BitVec 64) (msgs : List ShownMessage) :
    (markFileReady messageId attachmentId msgs).map ShownMessage.id =
      msgs.map ShownMessage.id := by
  induction msgs with
  | nil => rfl
  | cons m msgs ih =>
      rw [markFileReady]
      split
      · rfl
      · rw [List.map_cons, ih, List.map_cons]

theorem shownIds_onChatFileReady (k : ChatClient) (payload : Bytes) :
    (k.onChatFileReady payload).activeChannel = k.activeChannel ∧
      (k.onChatFileReady payload).shownIds = k.shownIds := by
  rw [onChatFileReady]
  split
  · exact ⟨rfl, rfl⟩
  · refine ⟨rfl, ?_⟩
    rw [shownIds, map_id_markFileReady]
    rfl

/-- A message of the selected channel takes its place or the last one. -/
theorem shownIds_takeMessage (k : ChatClient) (m : ChatMessage) :
    (m.row.channelId = k.activeChannel ∧
        (k.takeMessage m).1.shownIds.Sublist (putId m.row.id k.shownIds)) ∨
      m.row.channelId ≠ k.activeChannel ∧ (k.takeMessage m).1.shownIds = k.shownIds := by
  have hids : ∀ k' : ChatClient, k'.activeChannel = k.activeChannel →
      k'.shownIds = if k.activeChannel = 0 then [] else k'.messages.map ShownMessage.id := by
    intro k' hactive
    rw [shownIds, hactive]
  rw [hids _ (takeMessage_activeChannel k m), hids k rfl]
  by_cases hactive : k.activeChannel = 0
  · rw [if_pos hactive, if_pos hactive]
    by_cases heq : m.row.channelId = k.activeChannel
    · exact .inl ⟨heq, List.nil_sublist _⟩
    · exact .inr ⟨heq, rfl⟩
  · rw [if_neg hactive, if_neg hactive]
    rcases k.takeMessage_messages m with ⟨heq, hsub⟩ | ⟨hne, heq⟩
    · have hput := hsub.map ShownMessage.id
      rw [map_id_putMessage] at hput
      exact .inl ⟨heq, hput⟩
    · exact .inr ⟨hne, by rw [heq]⟩

theorem shownIds_takeHistory (k : ChatClient) (channel : BitVec 32) (hasMore : Bool)
    (msgs : List ChatMessage) :
    (k.takeHistory channel hasMore msgs).shownIds =
      if channel = k.activeChannel ∧ k.activeChannel ≠ 0 then
        msgs.map (fun m => m.row.id) ++ k.shownIds
      else k.shownIds := by
  rw [takeHistory]
  by_cases hchannel : channel = k.activeChannel
  · rw [if_neg (not_not.mpr hchannel)]
    by_cases hactive : k.activeChannel = 0
    · rw [if_neg (fun h => h.2 hactive)]
      exact (if_pos hactive).trans (if_pos hactive).symm
    · rw [if_pos ⟨hchannel, hactive⟩, shownIds_eq hactive]
      refine (if_neg hactive).trans ?_
      rw [List.map_append, List.map_map]
      rfl
  · rw [if_pos hchannel, if_neg (fun h => hchannel h.1)]

theorem shownIds_takeDeleted (k : ChatClient) (id : BitVec 64) (channel : BitVec 32) :
    (k.takeDeleted id channel).shownIds =
      if channel = k.activeChannel then k.shownIds.filter fun shown => shown ≠ id
      else k.shownIds := by
  rw [takeDeleted]
  by_cases hchannel : channel = k.activeChannel
  · rw [if_neg (not_not.mpr hchannel), if_pos hchannel]
    by_cases hactive : k.activeChannel = 0
    · rw [shownIds, shownIds, if_pos hactive, if_pos hactive, List.filter_nil]
    · rw [shownIds_eq hactive]
      refine (if_neg hactive).trans ?_
      rw [List.filter_map]
      rfl
  · rw [if_pos hchannel, if_neg hchannel]

end Client.ChatClient

/-! ### What is on its way -/

def ChatRequest.isSend : ChatRequest → Bool
  | .chatSend .. => true
  | _ => false

/-- The id before which older messages are asked for; zero asks for the newest. -/
def ChatRequest.before : ChatRequest → BitVec 64
  | .chatHistoryReq payload =>
    match parse readChatHistoryReq payload with
    | some (req, _) => req.before
    | none => 0
  | _ => 0

/-- The rows that a reply brings to the list of a channel. -/
def ChatReply.rows : ChatReply → List MessageRow
  | .chatMessage m => [m.row]
  | .chatHistoryResp _ _ msgs => msgs.map ChatMessage.row
  | _ => []

/-- The id a reply withdraws. -/
def ChatReply.withdraws : ChatReply → BitVec 64 → Prop
  | .chatMessageDeleted id _, id' => id = id'
  | _, _ => False

namespace Client

namespace SentReply

def mentions (r : SentReply) : List (BitVec 64) := r.reply.rows.map MessageRow.id

def withdraws (r : SentReply) (id : BitVec 64) : Prop := r.reply.withdraws id

/-- The message was sent as it is announced. -/
def live (r : SentReply) : Prop := r.cause.isSend = true

/-- The reply finds the list it is meant for: a history page that answers a selection an
empty list, a page of older messages nothing older than the id it was asked before, an
update a message on screen, or only older ones. -/
def OnTime (r : SentReply) (k : ChatClient) : Prop :=
  match r.reply with
  | .chatHistoryResp channel _ msgs => channel = k.activeChannel → msgs ≠ [] →
      ∀ shown ∈ k.shownIds, r.cause.before ≠ 0 ∧ r.cause.before.toInt ≤ shown.toInt
  | .chatMessage m => m.row.channelId = k.activeChannel → r.cause.isSend = false →
      m.row.id ∈ k.shownIds ∨ ∀ shown ∈ k.shownIds, shown.toInt < m.row.id.toInt
  | _ => True

/-- What the server has put into a reply. -/
structure Meant (db : ChatDatabase) (r : SentReply) : Prop where
  readable : r.reply.Readable
  held : ∀ row ∈ r.reply.rows, db.Holds row.id row.channelId
  noticeHeld : ∀ id channel, r.reply = .chatMessageDeleted id channel → db.Holds id channel
  pageChannel : ∀ channel hasMore msgs, r.reply = .chatHistoryResp channel hasMore msgs →
    ∀ m ∈ msgs, m.row.channelId = channel
  pageAscending : ∀ channel hasMore msgs, r.reply = .chatHistoryResp channel hasMore msgs →
    msgs.Pairwise fun m m' => m.row.id.toInt < m'.row.id.toInt
  pageBefore : ∀ channel hasMore msgs, r.reply = .chatHistoryResp channel hasMore msgs →
    r.cause.before ≠ 0 → ∀ m ∈ msgs, m.row.id.toInt < r.cause.before.toInt

theorem Meant.mono {db db' : ChatDatabase} {r : SentReply} (h : Meant db r)
    (hholds : ∀ id channel, db.Holds id channel → db'.Holds id channel) : Meant db' r where
  readable := h.readable
  held := fun row hrow => hholds _ _ (h.held row hrow)
  noticeHeld := fun id channel heq => hholds _ _ (h.noticeHeld id channel heq)
  pageChannel := h.pageChannel
  pageAscending := h.pageAscending
  pageBefore := h.pageBefore

/-- A reply that brings nothing to a list. -/
theorem meant_aside {db : ChatDatabase} {r : SentReply} (hreadable : r.reply.Readable)
    (hrows : r.reply.rows = []) (hnotice : ∀ id, ¬ r.withdraws id) : Meant db r := by
  have hpage : ∀ channel hasMore msgs, r.reply = .chatHistoryResp channel hasMore msgs →
      msgs = [] := by
    intro channel hasMore msgs heq
    rw [heq] at hrows
    exact List.map_eq_nil_iff.mp hrows
  exact {
    readable := hreadable
    held := by
      rw [hrows]
      intro row hrow
      cases hrow
    noticeHeld := by
      intro id channel heq
      refine absurd ?_ (hnotice id)
      rw [withdraws, heq]
      rfl
    pageChannel := by
      intro channel hasMore msgs heq
      rw [hpage _ _ _ heq]
      intro m hm
      cases hm
    pageAscending := by
      intro channel hasMore msgs heq
      rw [hpage _ _ _ heq]
      exact List.Pairwise.nil
    pageBefore := by
      intro channel hasMore msgs heq _
      rw [hpage _ _ _ heq]
      intro m hm
      cases hm }

/-- A message of its own. -/
theorem meant_chatMessage {db : ChatDatabase} {cause : ChatRequest}
    {answers : Option (List Bytes)} {m : ChatMessage} (hfits : m.Fits)
    (hheld : db.Holds m.row.id m.row.channelId) :
    Meant db ⟨cause, answers, .chatMessage m⟩ where
  readable := fun _ => hfits
  held := by
    intro row hrow
    rw [List.mem_singleton.mp hrow]
    exact hheld
  noticeHeld := by
    intro id channel heq
    cases heq
  pageChannel := by
    intro channel hasMore msgs heq
    cases heq
  pageAscending := by
    intro channel hasMore msgs heq
    cases heq
  pageBefore := by
    intro channel hasMore msgs heq
    cases heq

/-- A history page. -/
theorem meant_history {h : ChatHop} {me : SessionId} {userId : UserId} (at' : Connected me userId)
    (hs : h.db.Sound) {payload : Bytes} {req : ChatHistoryReq} {reader : Wire.BinaryReader}
    (hparse : parse readChatHistoryReq payload = some (req, reader))
    (answers : Option (List Bytes)) :
    Meant h.db ⟨.chatHistoryReq payload, answers, .chatHistoryResp req.channel
      ((h.chatServer at').historyPage req).2
      (((h.chatServer at').historyPage req).1.map (h.chatServer at').withAttachments)⟩ := by
  have hbefore : ChatRequest.before (.chatHistoryReq payload) = req.before := by
    rw [ChatRequest.before, hparse]
  have hrow : ∀ row ∈ ((h.chatServer at').historyPage req).1, ∃ m ∈ h.db.messages,
      m.toMessageRow = row ∧ ChatDatabase.inPage req.channel req.before m = true :=
    fun row hrow => ChatDatabase.mem_getMessages hrow
  have hchannel : ∀ m : StoredMessage,
      ChatDatabase.inPage req.channel req.before m = true → m.channelId = req.channel := by
    intro m hpage
    rw [ChatDatabase.inPage, Bool.and_eq_true, Bool.and_eq_true, decide_eq_true_eq] at hpage
    exact hpage.1.1
  exact {
    readable := by
      refine fun _ => ⟨?_, ?_⟩
      · have hlength := ChatDatabase.length_getMessages h.db req.channel req.before
          (min req.limit.toNat 100)
        rw [List.length_map]
        show (h.db.getMessages _ _ _).length < 2 ^ 16
        omega
      · intro m hm
        obtain ⟨row, hrow', rfl⟩ := List.mem_map.mp hm
        obtain ⟨stored, hstored, rfl, _⟩ := hrow row hrow'
        exact withAttachments_fits hs (hs.rowsFit stored hstored)
    held := by
      intro row hmem
      obtain ⟨m, hm, rfl⟩ := List.mem_map.mp hmem
      obtain ⟨row, hrow', rfl⟩ := List.mem_map.mp hm
      obtain ⟨stored, hstored, rfl, _⟩ := hrow row hrow'
      exact ⟨stored, hstored, rfl, rfl⟩
    noticeHeld := by
      intro id channel heq
      cases heq
    pageChannel := by
      intro channel hasMore msgs heq m hm
      cases heq
      obtain ⟨row, hrow', rfl⟩ := List.mem_map.mp hm
      obtain ⟨stored, _, rfl, hpage⟩ := hrow row hrow'
      exact hchannel stored hpage
    pageAscending := by
      intro channel hasMore msgs heq
      cases heq
      exact List.pairwise_map.mpr (hs.pairwise_getMessages _ _ _)
    pageBefore := by
      intro channel hasMore msgs heq hne m hm
      cases heq
      rw [hbefore] at hne ⊢
      obtain ⟨row, hrow', rfl⟩ := List.mem_map.mp hm
      obtain ⟨stored, _, rfl, hpage⟩ := hrow row hrow'
      rw [ChatDatabase.inPage, Bool.and_eq_true, Bool.or_eq_true, decide_eq_true_eq,
        decide_eq_true_eq] at hpage
      exact hpage.2.resolve_left hne }

end SentReply

/-! ### The invariant -/

/-- The id is that of an older message. -/
def Older (id id' : BitVec 64) : Prop := id.toInt < id'.toInt

namespace ChatHop

variable {me : SessionId} {userId : UserId}

/-- The list of the selected channel is in the order of its ids, each once; it has only
messages of that channel, and of the deleted ones only those whose `CHAT_MESSAGE_DELETED`
is still on its way. -/
structure Consistent (h : ChatHop) : Prop where
  ascending : h.client.shownIds.Pairwise Older
  channel : ∀ id ∈ h.client.shownIds, h.db.Holds id h.client.activeChannel
  kept : ∀ id ∈ h.client.shownIds, ∀ m ∈ h.db.messages, m.id = id → m.deleted = true →
    Noticed SentReply.withdraws id h.replies

structure Orderly (h : ChatHop) : Prop where
  sound : h.db.Sound
  consistent : Consistent h
  meant : ∀ r ∈ h.replies, r.Meant h.db
  newest : NewestLast Older SentReply.mentions SentReply.live h.client.shownIds h.replies
  withdrawn : ∀ m ∈ h.db.messages, m.deleted = true →
    Withdrawn SentReply.mentions SentReply.withdraws m.id h.replies

variable {h : ChatHop}

/-- What is on screen is in the table. -/
theorem Orderly.mention_held (ho : Orderly h) {r : SentReply} (hr : r ∈ h.replies)
    {id : BitVec 64} (hid : id ∈ r.mentions) : ∃ channel, h.db.Holds id channel := by
  obtain ⟨row, hrow, rfl⟩ := List.mem_map.mp hid
  exact ⟨_, (ho.meant r hr).held row hrow⟩

/-- The client shows less, and nothing else has changed. -/
theorem Orderly.view (ho : Orderly h) {client : ChatClient} {requests : List SentRequest}
    (hshown : client.shownIds.Sublist h.client.shownIds)
    (hactive : client.shownIds ≠ [] → client.activeChannel = h.client.activeChannel) :
    Orderly { h with client, requests } where
  sound := ho.sound
  consistent := {
    ascending := ho.consistent.ascending.sublist hshown
    channel := by
      intro id hid
      show h.db.Holds id client.activeChannel
      rw [hactive (List.ne_nil_of_mem hid)]
      exact ho.consistent.channel id (hshown.subset hid)
    kept := fun id hid => ho.consistent.kept id (hshown.subset hid) }
  meant := ho.meant
  newest := ho.newest.mono fun _ hid => hshown.subset hid
  withdrawn := ho.withdrawn

/-- Tables with the same messages. -/
theorem Orderly.tables (ho : Orderly h) {db : ChatDatabase} (hsound : db.Sound)
    (hmessages : db.messages = h.db.messages) : Orderly { h with db } := by
  have hholds : ∀ id channel, h.db.Holds id channel → db.Holds id channel := by
    intro id channel hold
    rw [ChatDatabase.Holds, hmessages]
    exact hold
  exact {
    sound := hsound
    consistent := {
      ascending := ho.consistent.ascending
      channel := fun id hid => hholds _ _ (ho.consistent.channel id hid)
      kept := by
        intro id hid m hm
        exact ho.consistent.kept id hid m (hmessages ▸ hm) }
    meant := fun r hr => (ho.meant r hr).mono hholds
    newest := ho.newest
    withdrawn := fun m hm => ho.withdrawn m (hmessages ▸ hm) }

/-- The server puts a reply behind the others. What it announces as new is newer than the
whole table; what is deleted it does not bring, and it says what it has just deleted. -/
theorem Orderly.concat (ho : Orderly h) {db : ChatDatabase} {r : SentReply} (hsound : db.Sound)
    (hholds : ∀ id channel, h.db.Holds id channel → db.Holds id channel)
    (hmeant : r.Meant db)
    (hlive : r.live → ∀ id ∈ r.mentions, ∀ old channel, h.db.Holds old channel → Older old id)
    (hdeleted : ∀ m ∈ db.messages, m.deleted = true → m.id ∉ r.mentions ∧
      (r.withdraws m.id ∨ ∃ old ∈ h.db.messages, old.id = m.id ∧ old.deleted = true)) :
    Orderly { h with db, replies := h.replies ++ [r] } where
  sound := hsound
  consistent := {
    ascending := ho.consistent.ascending
    channel := fun id hid => hholds _ _ (ho.consistent.channel id hid)
    kept := by
      intro id hid m hm hmid hmdeleted
      rcases (hdeleted m hm hmdeleted).2 with hnotice | ⟨old, hold, holdid, holddeleted⟩
      · rw [hmid] at hnotice
        exact noticed_concat hnotice
      · exact (ho.consistent.kept id hid old hold (holdid.trans hmid) holddeleted).concat }
  meant := by
    intro r' hr'
    rcases List.mem_append.mp hr' with hold | hnew
    · exact (ho.meant r' hold).mono hholds
    · rw [List.mem_singleton.mp hnew]
      exact hmeant
  newest := by
    refine ho.newest.concat ?_
    intro hr id hid
    refine ⟨?_, ?_⟩
    · intro old hold
      exact hlive hr id hid old _ (ho.consistent.channel old hold)
    · intro r' hr' old hold
      obtain ⟨channel, hheld⟩ := ho.mention_held hr' hold
      exact hlive hr id hid old channel hheld
  withdrawn := by
    intro m hm hmdeleted
    obtain ⟨hno, hnotice | ⟨old, hold, holdid, holddeleted⟩⟩ := hdeleted m hm hmdeleted
    · exact withdrawn_concat hno hnotice
    · rw [← holdid] at hno ⊢
      exact (ho.withdrawn old hold holddeleted).concat hno

/-- A reply that brings nothing to a list leaves the tables as they are. -/
theorem Orderly.aside (ho : Orderly h) {r : SentReply} (hmeant : r.Meant h.db)
    (hrows : r.reply.rows = []) : Orderly { h with replies := h.replies ++ [r] } := by
  have hmentions : r.mentions = [] := by
    rw [SentReply.mentions, hrows]
    rfl
  refine ho.concat ho.sound (fun _ _ => id) hmeant ?_ ?_
  · intro _ id hid
    rw [hmentions] at hid
    cases hid
  · intro m hm hmdeleted
    rw [hmentions]
    exact ⟨List.not_mem_nil, .inr ⟨m, hm, rfl, hmdeleted⟩⟩

/-! ### One request -/

/-- An update of a message that is not deleted, and its announcement. -/
theorem Orderly.repinned (ho : Orderly h) {row : MessageRow}
    (hrow : h.db.getMessage row.id = some row) {picks : StoredMessage → Bool}
    {f : StoredMessage → StoredMessage} (hid : ∀ m, (f m).id = m.id)
    (hchannel : ∀ m, (f m).channelId = m.channelId) (hkept : ∀ m, (f m).deleted = m.deleted)
    (hsound : (h.db.updateMessage picks f).Sound) (pinned : Bool) {cause : ChatRequest}
    (hcause : cause.isSend = false) (answers : Option (List Bytes)) :
    Orderly { h with
      db := h.db.updateMessage picks f
      replies := h.replies ++ [⟨cause, answers, .chatMessage ⟨{ row with pinned }, []⟩⟩] } := by
  obtain ⟨stored, hstored, hstoredRow, hstoredId, hstoredKept⟩ := ChatDatabase.getMessage_some hrow
  have hfits := ho.sound.getMessage_fits hrow
  have hholds : ∀ id channel, h.db.Holds id channel →
      (h.db.updateMessage picks f).Holds id channel :=
    fun _ _ hold => ChatDatabase.holds_updateMessage hid hchannel hold
  have hheld : h.db.Holds row.id row.channelId := ⟨stored, hstored, hstoredId, by rw [← hstoredRow]⟩
  refine ho.concat hsound hholds
    (SentReply.meant_chatMessage (bare_fits ⟨hfits.senderName, hfits.text⟩) (hholds _ _ hheld)) ?_ ?_
  · intro hlive
    rw [SentReply.live, hcause] at hlive
    cases hlive
  · intro m hm hmdeleted
    obtain ⟨old, hold, rfl⟩ := List.mem_map.mp hm
    have holdId : (if picks old then f old else old).id = old.id := by
      split
      · exact hid old
      · rfl
    have holdDeleted : old.deleted = true := by
      rw [← hmdeleted]
      split
      · exact (hkept old).symm
      · rfl
    rw [holdId]
    refine ⟨?_, .inr ⟨old, hold, rfl, holdDeleted⟩⟩
    intro hmentioned
    have heq : old = stored :=
      ho.sound.row_unique hold hstored ((List.mem_singleton.mp hmentioned).trans hstoredId.symm)
    rw [heq, hstoredKept] at holdDeleted
    cases holdDeleted

/-- A new message, and its announcement. -/
theorem Orderly.stored (ho : Orderly h) {channel sender : BitVec 32} {senderName text : Bytes}
    {now id : BitVec 64} {ok : Bool} {inserted db : ChatDatabase}
    (hinsert : h.db.insertMessage channel sender senderName text now ok = some (id, inserted))
    (hsound : db.Sound) (hmessages : db.messages = inserted.messages) {cause : ChatRequest}
    {answers : Option (List Bytes)} {m : ChatMessage} (hfits : m.Fits) (hid : m.row.id = id)
    (hchannel : m.row.channelId = channel) :
    Orderly { h with db, replies := h.replies ++ [⟨cause, answers, .chatMessage m⟩] } := by
  obtain ⟨hroom, hnew, hinserted⟩ := ChatDatabase.insertMessage_eq hinsert
  have hidInt : id.toInt = (h.db.lastMessageId + 1 : Nat) := by
    rw [hnew]
    exact ChatDatabase.toInt_rowId hroom
  have holder : ∀ old channel, h.db.Holds old channel → Older old id := by
    intro old channel hold
    have hused := ho.sound.holds_used hold
    rw [Older, hidInt]
    push_cast
    omega
  rw [hinserted] at hmessages
  refine ho.concat hsound ?_ (SentReply.meant_chatMessage hfits ?_) ?_ ?_
  · rintro old channel ⟨row, hrow, hrowId, hrowChannel⟩
    refine ⟨row, ?_, hrowId, hrowChannel⟩
    rw [hmessages]
    exact List.mem_append_left _ hrow
  · rw [ChatDatabase.Holds, hmessages, hid, hchannel]
    exact ⟨_, List.mem_append_right _ (List.mem_singleton.mpr rfl), rfl, rfl⟩
  · intro _ id' hid' old channel hold
    rw [List.mem_singleton.mp hid', hid]
    exact holder old channel hold
  · intro row hrow hrowDeleted
    rw [hmessages] at hrow
    rcases List.mem_append.mp hrow with hold | hnewRow
    · refine ⟨?_, .inr ⟨row, hold, rfl, hrowDeleted⟩⟩
      intro hmentioned
      have hlt := holder row.id row.channelId ⟨row, hold, rfl, rfl⟩
      rw [List.mem_singleton.mp hmentioned, hid] at hlt
      exact absurd hlt (lt_irrefl _)
    · rw [List.mem_singleton.mp hnewRow] at hrowDeleted
      cases hrowDeleted

/-- A deletion, and its announcement. A statement that fails picks no row. -/
theorem Orderly.deleted (ho : Orderly h) {row : MessageRow}
    (hrow : h.db.getMessage row.id = some row) {picks : StoredMessage → Bool}
    (hpicks : ∀ m, picks m = true → m.id = row.id) (cause : ChatRequest)
    (answers : Option (List Bytes)) :
    Orderly { h with
      db := h.db.updateMessage picks fun m => { m with deleted := true }
      replies := h.replies ++ [⟨cause, answers, .chatMessageDeleted row.id row.channelId⟩] } := by
  obtain ⟨stored, hstored, hstoredRow, hstoredId, _⟩ := ChatDatabase.getMessage_some hrow
  have hholds : ∀ id channel, h.db.Holds id channel →
      (h.db.updateMessage picks fun m => { m with deleted := true }).Holds id channel :=
    fun _ _ hold => @ChatDatabase.holds_updateMessage h.db picks
      (fun m => { m with deleted := true }) (fun _ => rfl) (fun _ => rfl) _ _ hold
  have hsound : (h.db.updateMessage picks fun m => { m with deleted := true }).Sound :=
    ho.sound.updateMessage _ (fun _ => rfl) fun _ hfits => ⟨hfits.senderName, hfits.text⟩
  have hheld : h.db.Holds row.id row.channelId := ⟨stored, hstored, hstoredId, by rw [← hstoredRow]⟩
  refine ho.concat hsound hholds ?_ ?_ ?_
  · exact {
      readable := fun _ => trivial
      held := by
        intro row hrow
        cases hrow
      noticeHeld := by
        intro id channel heq
        cases heq
        exact hholds _ _ hheld
      pageChannel := by
        intro channel hasMore msgs heq
        cases heq
      pageAscending := by
        intro channel hasMore msgs heq
        cases heq
      pageBefore := by
        intro channel hasMore msgs heq
        cases heq }
  · intro _ id hid
    cases hid
  · intro m hm hmdeleted
    refine ⟨List.not_mem_nil, ?_⟩
    obtain ⟨old, hold, rfl⟩ := List.mem_map.mp hm
    by_cases hpicked : picks old = true
    · left
      show row.id = _
      rw [if_pos hpicked, hpicks old hpicked]
    · right
      rw [if_neg hpicked] at hmdeleted ⊢
      exact ⟨old, hold, rfl, hmdeleted⟩

/-- A pin or its end that fails, and its announcement. -/
theorem Orderly.misreported (ho : Orderly h) {row : MessageRow}
    (hrow : h.db.getMessage row.id = some row) (pinned : Bool) {cause : ChatRequest}
    (hcause : cause.isSend = false) (answers : Option (List Bytes)) :
    Orderly { h with
      replies := h.replies ++ [⟨cause, answers, .chatMessage ⟨{ row with pinned }, []⟩⟩] } := by
  have hsame := h.db.updateMessage_never fun m => m
  have hsound : (h.db.updateMessage (fun _ => false) fun m => m).Sound := hsame.symm ▸ ho.sound
  have hrepinned := ho.repinned hrow (fun _ => rfl) (fun _ => rfl) (fun _ => rfl) hsound pinned
    hcause answers
  rwa [hsame] at hrepinned

/-- Whatever a request does. -/
theorem Orderly.serve (ho : Orderly h) (at' : Connected me userId) (sid : SessionId)
    (request : ChatRequest) (answers : Option (List Bytes)) :
    Orderly (h.serve at' sid request answers) := by
  have hhandles := (h.chatServer at').handle_handles sid request
  have hreadable := readable_handle (c := h.chatServer at') ho.sound at'.namesFit sid request
  have hsound := sound_handle (c := h.chatServer at') ho.sound at'.namesFit sid request
  rw [ChatHop.serve]
  generalize (h.chatServer at').handle sid request = outcome at hhandles hreadable hsound ⊢
  have hreply : ∀ message : ChatReply, message.Readable → message.rows = [] →
      (∀ id, ¬ message.withdraws id) → outcome = (h.chatServer at').reply sid message →
      Orderly { h with
        db := outcome.1
        replies := h.replies ++ (sentTo me outcome.2).map fun reply => ⟨request, answers, reply⟩ } := by
    intro message hmessage hrows hnotice houtcome
    rw [houtcome, sentTo_reply]
    split
    · exact ho.aside (SentReply.meant_aside hmessage hrows hnotice) hrows
    · rw [List.map_nil, List.append_nil]
      exact ho
  cases hhandles with
  | ignored =>
      rw [sentTo_ignore, List.map_nil, List.append_nil]
      exact ho
  | refused | channels | users | pinnedList | searched =>
      exact hreply _ (hreadable _ (List.mem_singleton.mpr rfl)) rfl (fun _ => id) rfl
  | @history payload req reader hparse =>
      rw [sentTo_reply]
      split
      · refine ho.concat ho.sound (fun _ _ => id)
          (SentReply.meant_history at' ho.sound hparse answers) (fun hlive => by cases hlive) ?_
        intro m hm hmdeleted
        refine ⟨?_, .inr ⟨m, hm, rfl, hmdeleted⟩⟩
        intro hmentioned
        obtain ⟨row, hrow, hrowId⟩ := List.mem_map.mp hmentioned
        obtain ⟨msg, hmsg, rfl⟩ := List.mem_map.mp hrow
        obtain ⟨paged, hpaged, rfl⟩ := List.mem_map.mp hmsg
        obtain ⟨stored, hstored, rfl, hpage⟩ := ChatDatabase.mem_getMessages hpaged
        have heq : m = stored := ho.sound.row_unique hm hstored hrowId.symm
        rw [ChatDatabase.inPage, ← heq, hmdeleted, Bool.not_true, Bool.and_false,
          Bool.false_and] at hpage
        cases hpage
      · rw [List.map_nil, List.append_nil]
        exact ho
  | @pinned _ dbOk _ hrow =>
      obtain ⟨_, _, _, hget⟩ := namedMessage_some.mp hrow
      rw [sentTo_broadcast]
      cases dbOk with
      | false => exact ho.misreported hget true rfl answers
      | true =>
          exact ho.repinned hget (f := fun m => { m with pinned := true }) (fun _ => rfl)
            (fun _ => rfl) (fun _ => rfl) hsound true rfl answers
  | @unpinned _ dbOk _ hrow =>
      obtain ⟨_, _, _, hget⟩ := namedMessage_some.mp hrow
      rw [sentTo_broadcast]
      cases dbOk with
      | false => exact ho.misreported hget false rfl answers
      | true =>
          exact ho.repinned hget (f := fun m => { m with pinned := false }) (fun _ => rfl)
            (fun _ => rfl) (fun _ => rfl) hsound false rfl answers
  | @deleted payload dbOk row hrow =>
      obtain ⟨_, _, _, hget⟩ := namedMessage_some.mp hrow
      rw [sentTo_broadcast]
      cases dbOk with
      | false =>
          have hnone : ∀ m : StoredMessage, (fun _ => false) m = true → m.id = row.id :=
            fun _ hfalse => absurd hfalse Bool.false_ne_true
          have hdeleted := ho.deleted hget hnone (.chatDelete payload false) answers
          rwa [ChatDatabase.updateMessage_never] at hdeleted
      | true => exact ho.deleted hget (fun _ => of_decide_eq_true) _ answers
  | stored hin hauth hparse hinsert =>
      have hfits := hreadable (me, _) (List.mem_map.mpr
        ⟨me, List.mem_filter.mpr ⟨at'.listed, at'.authenticated⟩, rfl⟩) (by simp)
      rw [sentTo_broadcast]
      exact ho.stored hinsert hsound
        (messages_storeAttachments _ _ _ _ (fun a ha => textFits_readAttachments ha) _)
        hfits rfl rfl

/-! ### One delivery -/

theorem mem_putId {id shown : BitVec 64} {ids : List (BitVec 64)}
    (h : shown ∈ ChatClient.putId id ids) : shown ∈ ids ∨ shown = id := by
  rw [ChatClient.putId] at h
  split at h
  · exact .inl h
  · exact (List.mem_append.mp h).imp_right List.mem_singleton.mp

/-- A message is put where it belongs if it is there already or newer than what is. -/
theorem pairwise_putId {id : BitVec 64} {ids : List (BitVec 64)} (h : ids.Pairwise Older)
    (hnew : id ∈ ids ∨ ∀ shown ∈ ids, Older shown id) :
    (ChatClient.putId id ids).Pairwise Older := by
  rw [ChatClient.putId]
  split
  · exact h
  next hnot =>
    refine List.pairwise_append.mpr ⟨h, List.pairwise_singleton _ _, ?_⟩
    intro shown hshown id' hid'
    rw [List.mem_singleton.mp hid']
    exact hnew.resolve_left hnot shown hshown

/-- The client takes the first reply: it shows what it showed and what the reply brings, in
order, of its channel, and nothing that the reply withdraws. -/
theorem Orderly.received (ho : Orderly h) {r : SentReply} {replies : List SentReply}
    (hreplies : h.replies = r :: replies) {client : ChatClient} {uploads : List Upload}
    {echoes : List Echo}
    (hactive : client.activeChannel = h.client.activeChannel)
    (hshown : ∀ id ∈ client.shownIds, id ∈ h.client.shownIds ∨ id ∈ r.mentions)
    (hascending : client.shownIds.Pairwise Older)
    (hchannel : ∀ id ∈ client.shownIds, h.db.Holds id h.client.activeChannel)
    (hkept : ∀ id ∈ client.shownIds, ¬ r.withdraws id) :
    Orderly { h with client, replies, uploads, echoes } := by
  have hmeant := ho.meant
  have hnewest := ho.newest
  have hwithdrawn := ho.withdrawn
  have hnoticed := ho.consistent.kept
  rw [hreplies] at hmeant hnewest hwithdrawn hnoticed
  exact {
    sound := ho.sound
    consistent := {
      ascending := hascending
      channel := by
        intro id hid
        show h.db.Holds id client.activeChannel
        rw [hactive]
        exact hchannel id hid
      kept := by
        intro id hid m hm hmid hmdeleted
        rcases hshown id hid with hold | hbrought
        · obtain ⟨r', hr', hnotice⟩ := hnoticed id hold m hm hmid hmdeleted
          rcases List.mem_cons.mp hr' with rfl | hrest
          · exact absurd hnotice (hkept id hid)
          · exact ⟨r', hrest, hnotice⟩
        · have hm' := (hwithdrawn m hm hmdeleted).1
          rw [hmid] at hm'
          exact hm' hbrought }
    meant := fun r' hr' => hmeant r' (List.mem_cons_of_mem _ hr')
    newest := by
      refine hnewest.2.mono ?_
      intro id hid
      exact List.mem_append.mpr (hshown id hid)
    withdrawn := fun m hm hmdeleted => (hwithdrawn m hm hmdeleted).2 }

/-- A reply that brings nothing to the list. -/
theorem Orderly.receivedAside (ho : Orderly h) {r : SentReply} {replies : List SentReply}
    (hreplies : h.replies = r :: replies) {client : ChatClient} {uploads : List Upload}
    {echoes : List Echo} (hactive : client.activeChannel = h.client.activeChannel)
    (hshown : client.shownIds = h.client.shownIds)
    (hkept : ∀ id ∈ h.client.shownIds, ¬ r.withdraws id) :
    Orderly { h with client, replies, uploads, echoes } := by
  refine ho.received hreplies hactive ?_ ?_ ?_ ?_
  · intro id hid
    rw [hshown] at hid
    exact .inl hid
  · rw [hshown]
    exact ho.consistent.ascending
  · rw [hshown]
    exact ho.consistent.channel
  · rw [hshown]
    exact hkept

/-- A message of its own: a new one is the newest, another one is on time. -/
theorem Orderly.receivedMessage (ho : Orderly h) {cause : ChatRequest}
    {answers : Option (List Bytes)} {m : ChatMessage} {replies : List SentReply}
    (hreplies : h.replies = ⟨cause, answers, .chatMessage m⟩ :: replies)
    (htime : SentReply.OnTime ⟨cause, answers, .chatMessage m⟩ h.client) {client : ChatClient}
    {uploads : List Upload} {echoes : List Echo}
    (hactive : client.activeChannel = h.client.activeChannel)
    (hshown : client.shownIds = (h.client.takeMessage m).1.shownIds) :
    Orderly { h with client, replies, uploads, echoes } := by
  rcases h.client.shownIds_takeMessage m with ⟨hchannel, hsub⟩ | ⟨_, hsame⟩
  · rw [← hshown] at hsub
    have hnew : m.row.id ∈ h.client.shownIds ∨
        ∀ shown ∈ h.client.shownIds, Older shown m.row.id := by
      cases hsend : cause.isSend with
      | false => exact htime hchannel hsend
      | true =>
          have hnewest := ho.newest
          rw [hreplies] at hnewest
          exact .inr fun shown hold =>
            hnewest.1 hsend m.row.id (List.mem_singleton.mpr rfl) shown hold
    have hbrought : ∀ id ∈ client.shownIds, id ∈ h.client.shownIds ∨ id = m.row.id :=
      fun id hid => mem_putId (hsub.subset hid)
    have hmeant := ho.meant ⟨cause, answers, .chatMessage m⟩ (by rw [hreplies]; exact List.mem_cons_self)
    refine ho.received hreplies hactive ?_ ?_ ?_ (fun _ _ => id)
    · intro id hid
      exact (hbrought id hid).imp_right List.mem_singleton.mpr
    · exact (pairwise_putId ho.consistent.ascending hnew).sublist hsub
    · intro id hid
      rcases hbrought id hid with hold | rfl
      · exact ho.consistent.channel id hold
      · rw [← hchannel]
        exact hmeant.held m.row (List.mem_singleton.mpr rfl)
  · exact ho.receivedAside hreplies hactive (hshown.trans hsame) fun _ _ => id

/-- A history page that is on time. -/
theorem Orderly.receivedHistory (ho : Orderly h) {cause : ChatRequest}
    {answers : Option (List Bytes)} {channel : BitVec 32} {hasMore : Bool}
    {msgs : List ChatMessage} {replies : List SentReply}
    (hreplies : h.replies = ⟨cause, answers, .chatHistoryResp channel hasMore msgs⟩ :: replies)
    (htime : SentReply.OnTime ⟨cause, answers, .chatHistoryResp channel hasMore msgs⟩ h.client)
    {client : ChatClient} {uploads : List Upload} {echoes : List Echo}
    (hactive : client.activeChannel = h.client.activeChannel)
    (hshown : client.shownIds = (h.client.takeHistory channel hasMore msgs).shownIds) :
    Orderly { h with client, replies, uploads, echoes } := by
  rw [ChatClient.shownIds_takeHistory] at hshown
  split at hshown
  next hselected =>
    have hmeant := ho.meant ⟨cause, answers, .chatHistoryResp channel hasMore msgs⟩
      (by rw [hreplies]; exact List.mem_cons_self)
    have hpage : (msgs.map fun m => m.row.id).Pairwise Older :=
      List.pairwise_map.mpr (hmeant.pageAscending _ _ _ rfl)
    have hcross : ∀ id ∈ msgs.map (fun m => m.row.id), ∀ shown ∈ h.client.shownIds,
        Older id shown := by
      intro id hid shown hold
      obtain ⟨m, hm, rfl⟩ := List.mem_map.mp hid
      obtain ⟨hbefore, hle⟩ := htime hselected.1 (List.ne_nil_of_mem hm) shown hold
      exact lt_of_lt_of_le (hmeant.pageBefore _ _ _ rfl hbefore m hm) hle
    refine ho.received hreplies hactive ?_ ?_ ?_ (fun _ _ => id)
    · intro id hid
      rw [hshown] at hid
      rcases List.mem_append.mp hid with hnew | hold
      · right
        obtain ⟨m, hm, rfl⟩ := List.mem_map.mp hnew
        exact List.mem_map.mpr ⟨m.row, List.mem_map.mpr ⟨m, hm, rfl⟩, rfl⟩
      · exact .inl hold
    · rw [hshown]
      exact List.pairwise_append.mpr ⟨hpage, ho.consistent.ascending, hcross⟩
    · intro id hid
      rw [hshown] at hid
      rcases List.mem_append.mp hid with hnew | hold
      · obtain ⟨m, hm, rfl⟩ := List.mem_map.mp hnew
        have hheld := hmeant.held m.row (List.mem_map.mpr ⟨m, hm, rfl⟩)
        rw [hmeant.pageChannel _ _ _ rfl m hm, hselected.1] at hheld
        exact hheld
      · exact ho.consistent.channel id hold
  · exact ho.receivedAside hreplies hactive hshown fun _ _ => id

/-- A deletion, of the selected channel or of one whose messages are not on screen. -/
theorem Orderly.receivedDeleted (ho : Orderly h) {cause : ChatRequest}
    {answers : Option (List Bytes)} {id : BitVec 64} {channel : BitVec 32}
    {replies : List SentReply}
    (hreplies : h.replies = ⟨cause, answers, .chatMessageDeleted id channel⟩ :: replies)
    {client : ChatClient} {uploads : List Upload} {echoes : List Echo}
    (hactive : client.activeChannel = h.client.activeChannel)
    (hshown : client.shownIds = (h.client.takeDeleted id channel).shownIds) :
    Orderly { h with client, replies, uploads, echoes } := by
  have hmeant := ho.meant ⟨cause, answers, .chatMessageDeleted id channel⟩
    (by rw [hreplies]; exact List.mem_cons_self)
  rw [ChatClient.shownIds_takeDeleted] at hshown
  split at hshown
  · have hsub : client.shownIds.Sublist h.client.shownIds := by
      rw [hshown]
      exact List.filter_sublist
    refine ho.received hreplies hactive (fun shown hid => .inl (hsub.subset hid))
      (ho.consistent.ascending.sublist hsub)
      (fun shown hid => ho.consistent.channel shown (hsub.subset hid)) ?_
    intro shown hid hnotice
    rw [hshown] at hid
    exact of_decide_eq_true (List.mem_filter.mp hid).2 hnotice.symm
  next hother =>
    refine ho.receivedAside hreplies hactive hshown ?_
    intro shown hid hnotice
    obtain rfl : id = shown := hnotice
    exact hother (ho.sound.channel_unique (hmeant.noticeHeld _ _ rfl)
      (ho.consistent.channel _ hid))

theorem Orderly.deliver (ho : Orderly h)
    (htime : ∀ r replies, h.replies = r :: replies → r.OnTime h.client) : Orderly h.deliver := by
  rw [ChatHop.deliver]
  split
  · exact ho
  next r replies hreplies =>
    have htimely := htime r replies hreplies
    have hmeant := ho.meant r (by rw [hreplies]; exact List.mem_cons_self)
    obtain ⟨hview, -⟩ := h.client.handleServerMessage_view hmeant.readable
    have hactive := hview.activeChannel
    have hshown := hview.shownIds
    dsimp only
    rcases r with ⟨cause, answers, reply⟩
    cases reply with
    | chatMessage m =>
        exact ho.receivedMessage hreplies htimely
          (hactive.trans (h.client.takeMessage_activeChannel m)) hshown
    | chatHistoryResp channel hasMore msgs =>
        refine ho.receivedHistory hreplies htimely (hactive.trans ?_) hshown
        show (h.client.takeHistory channel hasMore msgs).activeChannel = _
        rw [ChatClient.takeHistory]
        split <;> rfl
    | chatMessageDeleted id channel =>
        refine ho.receivedDeleted hreplies (hactive.trans ?_) hshown
        show (h.client.takeDeleted id channel).activeChannel = _
        rw [ChatClient.takeDeleted]
        split <;> rfl
    | serverError | channelList | channelUserList | chatSearchResp | chatPinnedResp =>
        exact ho.receivedAside hreplies hactive hshown fun _ _ => id

/-! ### Runs -/

/-- The steps that keep the list in order: what arrives is on time. -/
def OnTime (h : ChatHop) : ChatOp me userId → Prop
  | .deliver => ∀ r ∈ h.replies.head?, r.OnTime h.client
  | _ => True

theorem Orderly.requestArrives (ho : Orderly h) (at' : Connected me userId) (env : ChatEnv) :
    Orderly (h.requestArrives at' env) := by
  rw [ChatHop.requestArrives]
  split
  · exact ho
  next sent requests hrequests =>
    have htaken : Orderly { h with requests } := ho.view (List.Sublist.refl _) fun _ => rfl
    split
    · exact htaken
    · exact htaken.serve at' me _ _

theorem Orderly.withClient (ho : Orderly h) {out : ChatClient × List Wire.ControlMessage}
    (files : List Bytes) (hshown : out.1.shownIds.Sublist h.client.shownIds)
    (hactive : out.1.shownIds ≠ [] → out.1.activeChannel = h.client.activeChannel) :
    Orderly (h.withClient out files) :=
  ho.view hshown hactive

theorem shownIds_sendMessage (k : ChatClient) (composeText : Bytes)
    (pendingFiles : List PendingFile) :
    (k.sendMessage composeText pendingFiles).1.activeChannel = k.activeChannel ∧
      (k.sendMessage composeText pendingFiles).1.shownIds = k.shownIds := by
  rw [ChatClient.sendMessage]
  split
  · exact ⟨rfl, rfl⟩
  · split <;> exact ⟨rfl, rfl⟩

theorem orderly_step (ho : Orderly h) (op : ChatOp me userId) (htime : h.OnTime op) :
    Orderly (h.step op) := by
  cases op with
  | requestArrives at' env => exact ho.requestArrives at' env
  | otherRequest at' sid request =>
      show Orderly (if sid = me then h else h.serve at' sid request none)
      split
      · exact ho
      · exact ho.serve at' sid request none
  | setTextChannels rows => exact ho.tables (ho.sound.textChannels rows) rfl
  | attachmentUploaded id => exact ho.tables (ho.sound.markAttachmentUploaded id) rfl
  | deliver =>
      refine ho.deliver ?_
      intro r replies hreplies
      exact htime r (by rw [hreplies]; rfl)
  | fileReady payload =>
      obtain ⟨hactive, hshown⟩ := h.client.shownIds_onChatFileReady payload
      exact ho.view (by rw [hshown]) fun _ => hactive
  | selectChannel channel =>
      have hnone : (h.client.selectChannel channel).1.shownIds = [] := by
        show (if channel = 0 then [] else List.map _ []) = []
        split <;> rfl
      refine ho.withClient [] ?_ (fun hne => absurd hnone hne)
      rw [hnone]
      exact List.nil_sublist _
  | joinChannel => exact ho.view (List.nil_sublist _) fun hne => absurd rfl hne
  | loadMoreHistory => exact ho.withClient [] (List.Sublist.refl _) fun _ => rfl
  | sendMessage composeText pendingFiles =>
      obtain ⟨hactive, hshown⟩ := shownIds_sendMessage h.client composeText pendingFiles
      exact ho.withClient _ (by rw [hshown]) fun _ => hactive
  | pinMessage | unpinMessage | deleteMessage =>
      exact ho.withClient [] (List.Sublist.refl _) fun _ => rfl

theorem orderly_new {db : ChatDatabase} (hdb : db.Reached) : Orderly (new db userId) where
  sound := hdb.sound
  consistent := {
    ascending := List.Pairwise.nil
    channel := by
      intro id hid
      cases hid
    kept := by
      intro id hid
      cases hid }
  meant := by
    intro r hr
    cases hr
  newest := trivial
  withdrawn := fun _ _ _ => trivial

/-- In every run in which everything arrives on time, the list of the selected channel is
strictly ascending, of that channel, and without deleted messages. -/
theorem view_consistent {db : ChatDatabase} (hdb : db.Reached) {ops : List (ChatOp me userId)}
    (htime : Machine.AllSteps step OnTime (new db userId) ops) : Consistent (run db ops) := by
  have hstep : ∀ (h : ChatHop) (op : ChatOp me userId), Orderly h → h.OnTime op →
      Orderly (h.step op) := fun _ op ho htime => orderly_step ho op htime
  have hrun := Machine.run_invariant hstep (orderly_new hdb) htime
  exact hrun.consistent

/-- One user, logged in on session 1. -/
def pinConnected : Connected 1 1 where
  server := pinServer
  listed := by decide
  nodup := by decide
  authenticated := rfl
  user := rfl
  alone := by
    intro sid hsid _ _
    exact List.mem_singleton.mp hsid
  namesFit := by
    intro sid
    show (pinServer.sessions sid).username.toUTF8.toList.length < 2 ^ 16
    rw [username_pinServer, toList_empty]
    decide

/-- The page with the one message there is. -/
def picturePage : SentReply where
  cause := .chatHistoryReq (ChatClient.historyReq 1 0).payload
  reply := .chatHistoryResp 1 false
    [ChatServer.withAttachments { server := pinServer, db := pictureSent } pictureRow]

/-- The channel is selected a second time before the first page has arrived. -/
def pagedTwice : List (ChatOp 1 1) :=
  [.selectChannel 1, .selectChannel 1, .requestArrives pinConnected {},
    .requestArrives pinConnected {}]

theorem replies_pagedTwice : (run pictureSent pagedTwice).replies = [picturePage, picturePage] := by
  rfl

theorem readable_picturePage : picturePage.reply.Readable := by
  refine fun _ => ⟨by decide, ?_⟩
  intro m hm
  rw [List.mem_singleton.mp hm]
  have hsound : pictureSent.Sound := reached_pictureSent.sound
  have hrow : pictureSent.getMessage 1 = some pictureRow := rfl
  exact withAttachments_fits hsound (hsound.getMessage_fits hrow)

/-- A page of the selected channel is put in front. -/
theorem deliver_page {h : ChatHop} {cause : ChatRequest} {answers : Option (List Bytes)}
    {channel : BitVec 32} {hasMore : Bool} {msgs : List ChatMessage} {replies : List SentReply}
    (hreplies : h.replies = ⟨cause, answers, .chatHistoryResp channel hasMore msgs⟩ :: replies)
    (hreadable : (ChatReply.chatHistoryResp channel hasMore msgs).Readable)
    (hactive : channel = h.client.activeChannel) (hselected : h.client.activeChannel ≠ 0) :
    h.deliver.replies = replies ∧ h.deliver.client.activeChannel = channel ∧
      h.deliver.client.shownIds = msgs.map (fun m => m.row.id) ++ h.client.shownIds := by
  obtain ⟨hview, -⟩ := h.client.handleServerMessage_view hreadable
  have hshown := h.client.shownIds_takeHistory channel hasMore msgs
  rw [if_pos ⟨hactive, hselected⟩] at hshown
  rw [ChatHop.deliver, hreplies]
  refine ⟨rfl, hview.activeChannel.trans ?_, hview.shownIds.trans hshown⟩
  show (h.client.takeHistory channel hasMore msgs).activeChannel = channel
  rw [ChatClient.takeHistory, if_neg (not_not.mpr hactive)]
  exact hactive.symm

/-- Both pages are put in front, and the message is on screen twice. -/
theorem not_view_consistent : ¬ ∀ (me : SessionId) (userId : UserId) (db : ChatDatabase),
    db.Reached → ∀ ops : List (ChatOp me userId), Consistent (run db ops) := by
  intro hall
  have hconsistent := hall 1 1 pictureSent reached_pictureSent (pagedTwice ++ [.deliver, .deliver])
  obtain ⟨hreplies, hactive, hfirst⟩ :=
    deliver_page replies_pagedTwice readable_picturePage rfl (by decide)
  obtain ⟨-, -, hsecond⟩ :=
    deliver_page hreplies readable_picturePage hactive.symm (by rw [hactive]; decide)
  have hshown : (run pictureSent (pagedTwice ++ [.deliver, .deliver])).client.shownIds =
      [1, 1] := by
    refine hsecond.trans ?_
    rw [hfirst]
    rfl
  have hascending := hconsistent.ascending
  rw [hshown, List.pairwise_pair] at hascending
  exact lt_irrefl _ hascending

/-- A send is one `CHAT_SEND`, or nothing. -/
theorem sendMessage_sent (k : ChatClient) (composeText : Bytes) (pendingFiles : List PendingFile) :
    (k.sendMessage composeText pendingFiles).2.length ≤ 1 ∧
      ∀ message ∈ (k.sendMessage composeText pendingFiles).2,
        message.type = ChatClient.CHAT_SEND := by
  rw [ChatClient.sendMessage]
  split
  · exact ⟨Nat.zero_le 1, fun _ hmessage => by cases hmessage⟩
  · split
    · exact ⟨Nat.zero_le 1, fun _ hmessage => by cases hmessage⟩
    · refine ⟨le_rfl, fun message hmessage => ?_⟩
      rw [List.mem_singleton.mp hmessage]
      rfl

/-- What answers a send or a deletion is on time wherever it arrives. -/
theorem onTime_served (h : ChatHop) (at' : Connected me userId) {request : ChatRequest}
    (hrequest : request.isSend = true ∨ ∃ payload dbOk, request = .chatDelete payload dbOk)
    {reply : ChatReply} (hreply : reply ∈ sentTo me ((h.chatServer at').handle me request).2)
    (answers : Option (List Bytes)) (k : ChatClient) :
    (⟨request, answers, reply⟩ : SentReply).OnTime k := by
  have hhandles := (h.chatServer at').handle_handles me request
  generalize (h.chatServer at').handle me request = outcome at hhandles hreply
  cases hhandles with
  | ignored => cases hreply
  | refused | channels | users | pinnedList | searched =>
      rw [sentTo_reply, if_pos rfl] at hreply
      rw [List.mem_singleton.mp hreply]
      trivial
  | stored hin hauth hparse hinsert =>
      rw [sentTo_broadcast] at hreply
      rw [List.mem_singleton.mp hreply]
      intro _ hlive
      cases hlive
  | deleted hrow =>
      rw [sentTo_broadcast] at hreply
      rw [List.mem_singleton.mp hreply]
      trivial
  | history | pinned | unpinned =>
      rcases hrequest with hsend | ⟨_, _, hdelete⟩
      · cases hsend
      · cases hdelete

/-- With nothing under way, a send or a deletion is answered on time. -/
theorem onTime_answered {h : ChatHop} (op : ChatOp me userId) (hop : h.OnTime op)
    (hsent : (h.step op).requests.length ≤ 1) (hreplies : (h.step op).replies = [])
    (htypes : ∀ sent ∈ (h.step op).requests, sent.message.type = ChatClient.CHAT_SEND ∨
      sent.message.type = ChatClient.CHAT_DELETE)
    (at' : Connected me userId) (env : ChatEnv) :
    let ops : List (ChatOp me userId) := [op, .requestArrives at' env, .deliver]
    Machine.AllSteps step OnTime h ops ∧ (Machine.run step h ops).requests = [] ∧
      (Machine.run step h ops).replies = [] := by
  intro ops
  obtain ⟨hnone, hleft⟩ := requestArrives_quiet hsent hreplies at' env
  obtain ⟨hgone, hsame⟩ := deliver_quiet hleft
  have htime : ((h.step op).requestArrives at' env).OnTime (.deliver : ChatOp me userId) := by
    intro r hr
    have hmem := List.mem_of_head? hr
    rw [requestArrives] at hmem ⊢
    split at hmem
    next hempty =>
      rw [hreplies] at hmem
      cases hmem
    next sent requests hcons =>
      have htype := htypes sent (by rw [hcons]; exact List.mem_cons_self)
      dsimp only at hmem ⊢
      split at hmem
      · rw [hreplies] at hmem
        cases hmem
      next request hrequest =>
        have hkind : request.isSend = true ∨ ∃ payload dbOk, request = .chatDelete payload dbOk := by
          rcases htype with hsend | hdelete
          · rw [readRequest, if_pos hsend] at hrequest
            exact .inl (by rw [← Option.some.inj hrequest]; rfl)
          · rw [readRequest, hdelete] at hrequest
            exact .inr ⟨_, _, (Option.some.inj hrequest).symm⟩
        rw [serve, hreplies, List.nil_append] at hmem
        obtain ⟨reply, hreply, rfl⟩ := List.mem_map.mp hmem
        exact onTime_served _ at' hkind hreply _ _
  exact ⟨⟨hop, trivial, htime, trivial⟩, hsame.trans hnone, hgone⟩

/-- A message of the user's own, and the deletion of an older one. -/
def sentAndDeleted : List (ChatOp 1 1) :=
  [.sendMessage [104] [], .requestArrives pinConnected {}, .deliver] ++
    [.deleteMessage 1, .requestArrives pinConnected {}, .deliver]

theorem onTime_deleteMessage {h : ChatHop} (hrequests : h.requests = []) (hreplies : h.replies = [])
    (id : BitVec 64) : Machine.AllSteps step OnTime h
      ([.deleteMessage id, .requestArrives pinConnected {}, .deliver] : List (ChatOp 1 1)) := by
  have hsent : (h.step (.deleteMessage id : ChatOp 1 1)).requests =
      [⟨ChatClient.deleteMessage id, []⟩] := by
    rw [step, send, withClient, hrequests]
    rfl
  have htypes : ∀ sent ∈ (h.step (.deleteMessage id : ChatOp 1 1)).requests,
      sent.message.type = ChatClient.CHAT_SEND ∨ sent.message.type = ChatClient.CHAT_DELETE := by
    intro sent hmem
    rw [hsent] at hmem
    rw [List.mem_singleton.mp hmem]
    exact .inr rfl
  exact (onTime_answered (.deleteMessage id) trivial (by rw [hsent]; rfl) hreplies htypes
    pinConnected {}).1

/-- A message is sent, and one that is on screen deleted. -/
theorem onTime_sentAndDeleted {h : ChatHop} (hrequests : h.requests = [])
    (hreplies : h.replies = []) : Machine.AllSteps step OnTime h sentAndDeleted := by
  obtain ⟨hone, hsend⟩ := sendMessage_sent h.client [104] []
  have hfirst : (h.step (.sendMessage [104] [] : ChatOp 1 1)).requests =
      (h.client.sendMessage [104] []).2.map fun message => ⟨message, []⟩ := by
    rw [step, withClient, hrequests, List.nil_append]
    rfl
  have htypes : ∀ sent ∈ (h.step (.sendMessage [104] [] : ChatOp 1 1)).requests,
      sent.message.type = ChatClient.CHAT_SEND ∨ sent.message.type = ChatClient.CHAT_DELETE := by
    intro sent hsent
    rw [hfirst] at hsent
    obtain ⟨message, hmessage, rfl⟩ := List.mem_map.mp hsent
    exact .inl (hsend message hmessage)
  obtain ⟨htime, hnone, hquiet⟩ := onTime_answered (.sendMessage [104] []) trivial
    (by rw [hfirst, List.length_map]; exact hone) hreplies htypes pinConnected {}
  rw [sentAndDeleted, Machine.allSteps_append]
  exact ⟨htime, onTime_deleteMessage hnone hquiet 1⟩

theorem view_consistent_selected : Consistent (run pictureSent
    ([.selectChannel 1, .requestArrives pinConnected {}, .deliver] ++ sentAndDeleted)) := by
  refine view_consistent reached_pictureSent ?_
  rw [Machine.allSteps_append]
  refine ⟨⟨trivial, trivial, ?_, trivial⟩, ?_⟩
  · intro r hr
    obtain rfl : picturePage = r := Option.some.inj hr
    intro _ _ shown hshown
    cases hshown
  · exact onTime_sentAndDeleted rfl rfl

end ChatHop

end Client

end Parties

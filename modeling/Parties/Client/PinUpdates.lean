import Parties.Client.ChatReading
import Parties.Lib.Machine

/-!
# Pin updates on screen

A series of `CHAT_PIN` and `CHAT_UNPIN` requests of any sessions, and a client that has
a message on screen and takes every update. In the database nothing but the pinned
flags changes. The copy of the client is replaced by the update as a whole, and the
update comes without attachments. It also says what was asked for, whether or not the
statement that stores it has succeeded.
-/

namespace Parties.Client

open Parties.Wire Parties.Wire.BinaryReader Parties.ChatServer

/-- A `CHAT_PIN` or `CHAT_UNPIN` request, with the server it comes to. -/
structure PinRequest where
  server : Server
  sid : SessionId
  pin : Bool
  payload : Bytes
  dbOk : Bool := true

namespace PinRequest

def request (r : PinRequest) : ChatRequest :=
  if r.pin then .chatPin r.payload r.dbOk else .chatUnpin r.payload r.dbOk

/-- The request comes from a session that is logged in, and it names the message. -/
def Names (r : PinRequest) (id : BitVec 64) : Prop :=
  r.sid ∈ r.server.sessionTable ∧ (r.server.sessions r.sid).authenticated = true ∧
    (parse readU64 r.payload).map Prod.fst = some id

instance (r : PinRequest) (id : BitVec 64) : Decidable (r.Names id) :=
  inferInstanceAs (Decidable (_ ∧ _ ∧ _))

/-- The flag after some requests, of which those that `takes` picks set it. -/
def lastPin (takes : PinRequest → Bool) (pinned : Bool) (requests : List PinRequest) : Bool :=
  requests.foldl (fun pinned r => if takes r then r.pin else pinned) pinned

/-- What the clients are told last of the flag of a message. -/
def toldPin (id : BitVec 64) : Bool → List PinRequest → Bool :=
  lastPin fun r => r.Names id

/-- What is stored of it. -/
def storedPin (id : BitVec 64) : Bool → List PinRequest → Bool :=
  lastPin fun r => r.Names id ∧ r.dbOk = true

theorem lastPin_of_forall_not {takes : PinRequest → Bool} {requests : List PinRequest}
    (h : ∀ r ∈ requests, takes r = false) (pinned : Bool) :
    lastPin takes pinned requests = pinned := by
  induction requests with
  | nil => rfl
  | cons r requests ih =>
      have hrest := ih fun r' hr' => h r' (List.mem_cons_of_mem _ hr')
      rw [lastPin, List.foldl_cons, h r List.mem_cons_self]
      exact hrest

/-- What the server sends to every client reaches this one. -/
def Reaches (r : PinRequest) (me : SessionId) : Prop :=
  me ∈ r.server.sessionTable ∧ (r.server.sessions me).authenticated = true

end PinRequest

/-- The chat tables, and a client. -/
structure PinnedView where
  db : ChatDatabase
  client : ChatClient

namespace PinnedView

variable (me : SessionId)

/-- The client takes what was sent to it. -/
def receive (k : ChatClient) (sent : List (SessionId × ChatReply)) : ChatClient :=
  (sent.filter fun s => s.1 = me).foldl (fun k s => (k.handleServerMessage s.2.encode).1) k

def step (v : PinnedView) (r : PinRequest) : PinnedView :=
  let c : ChatServer := { server := r.server, db := v.db }
  let outcome := c.handle r.sid r.request
  { db := outcome.1, client := receive me v.client outcome.2 }

def run (v : PinnedView) (requests : List PinRequest) : PinnedView :=
  Machine.run (step me) v requests

end PinnedView

/-- A stored message as a client should show it. -/
def storedView (db : ChatDatabase) (userId : UserId) (row : MessageRow) : ShownMessage :=
  ChatMessage.shown userId
    ⟨row, (db.getAttachmentsForMessage row.id).map AttachmentRow.toChatAttachment⟩

/-- The message stands on screen at most once, and then as `view`. -/
def ShowsOnly (k : ChatClient) (view : ShownMessage) : Prop :=
  (k.messages.filter fun m => m.id = view.id).Sublist [view]

theorem ShowsOnly.eq {k : ChatClient} {view copy : ShownMessage} (h : ShowsOnly k view)
    (hcopy : copy ∈ k.messages) (hid : copy.id = view.id) : copy = view :=
  List.mem_singleton.mp
    (h.subset (List.mem_filter.mpr ⟨hcopy, decide_eq_true hid⟩))

/-! ### What one update does to the screen -/

namespace ChatClient

theorem filter_putMessage_ne {msg : ShownMessage} {id : BitVec 64} (h : msg.id ≠ id)
    (msgs : List ShownMessage) :
    (putMessage msg msgs).filter (fun m => m.id = id) = msgs.filter fun m => m.id = id := by
  induction msgs with
  | nil =>
      rw [putMessage, List.filter_cons_of_neg (by simpa using h)]
  | cons m msgs ih =>
      rw [putMessage]
      split
      next heq =>
        rw [List.filter_cons_of_neg (by simpa using h),
          List.filter_cons_of_neg (by simpa [heq] using h)]
      · rw [List.filter_cons, List.filter_cons, ih]

theorem filter_putMessage_self {msg : ShownMessage} {msgs : List ShownMessage}
    (h : (msgs.filter fun m => m.id = msg.id).length ≤ 1) :
    (putMessage msg msgs).filter (fun m => m.id = msg.id) = [msg] := by
  induction msgs with
  | nil =>
      rw [putMessage, List.filter_cons_of_pos (by simp), List.filter_nil]
  | cons m msgs ih =>
      rw [putMessage]
      split
      next heq =>
        rw [List.filter_cons_of_pos (by simpa using heq), List.length_cons] at h
        rw [List.filter_cons_of_pos (by simp),
          List.length_eq_zero_iff.mp (Nat.le_zero.mp (Nat.le_of_succ_le_succ h))]
      next hne =>
        rw [List.filter_cons_of_neg (by simpa using hne)] at h
        rw [List.filter_cons_of_neg (by simpa using hne), ih h]

/-- Another message leaves the copies of this one as they are. -/
theorem takeMessage_other {k : ChatClient} {m : ChatMessage} {view : ShownMessage}
    (hne : m.row.id ≠ view.id) (h : ShowsOnly k view) : ShowsOnly (k.takeMessage m).1 view := by
  rcases k.takeMessage_messages m with ⟨_, hsub⟩ | ⟨_, heq⟩
  · have hfilter := hsub.filter fun m => m.id = view.id
    rw [filter_putMessage_ne hne] at hfilter
    exact hfilter.trans h
  · rw [ShowsOnly, heq]
    exact h

/-- An update of the message becomes the copy. -/
theorem takeMessage_same {k : ChatClient} {m : ChatMessage} {view : ShownMessage}
    (hid : m.row.id = view.id) (hactive : m.row.channelId = k.activeChannel)
    (h : ShowsOnly k view) : ShowsOnly (k.takeMessage m).1 (m.shown k.userId) := by
  rcases k.takeMessage_messages m with ⟨_, hsub⟩ | ⟨hne, _⟩
  · have hfilter := hsub.filter fun m' => m'.id = (m.shown k.userId).id
    have hone : (k.messages.filter fun m' => m'.id = (m.shown k.userId).id).length ≤ 1 := by
      have hlength := h.length_le
      rw [← hid] at hlength
      exact hlength
    rw [filter_putMessage_self hone] at hfilter
    exact hfilter
  · exact absurd hactive hne

end ChatClient

/-! ### What one request does to the tables -/

/-- Set or clear the flag. -/
def setPinned (db : ChatDatabase) (id : BitVec 64) (pin : Bool) : ChatDatabase :=
  if pin then db.pinMessage id else db.unpinMessage id

theorem sound_setPinned {db : ChatDatabase} (hs : db.Sound) (id : BitVec 64) (pin : Bool) :
    (setPinned db id pin).Sound := by
  cases pin with
  | false => exact hs.unpinMessage id
  | true => exact hs.pinMessage id

theorem fileAttachments_setPinned (db : ChatDatabase) (id : BitVec 64) (pin : Bool) :
    (setPinned db id pin).fileAttachments = db.fileAttachments := by
  cases pin <;> rfl

/-- A message is found again after an update that keeps ids and deletions. -/
theorem getMessage_updateMessage (db : ChatDatabase) (picks : StoredMessage → Bool)
    {f : StoredMessage → StoredMessage} (hid : ∀ m, (f m).id = m.id)
    (hdeleted : ∀ m, (f m).deleted = m.deleted) (id : BitVec 64) :
    (db.updateMessage picks f).getMessage id =
      (db.messages.find? fun m => m.id = id && !m.deleted).map fun m =>
        (if picks m then f m else m).toMessageRow := by
  have hsame : ((fun m : StoredMessage => decide (m.id = id) && !m.deleted) ∘
      fun m => if picks m then f m else m) = fun m => decide (m.id = id) && !m.deleted := by
    funext m
    rw [Function.comp_apply]
    split
    · rw [hid, hdeleted]
    · rfl
  show ((db.messages.map _).find? _).map StoredMessage.toMessageRow = _
  rw [List.find?_map, hsame, Option.map_map]
  rfl

theorem getMessage_setPinned {db : ChatDatabase} {id : BitVec 64} {row : MessageRow}
    (hrow : db.getMessage id = some row) (other : BitVec 64) (pin : Bool) :
    (setPinned db other pin).getMessage id =
      some (if id = other then { row with pinned := pin } else row) := by
  obtain ⟨m, hfind, rfl⟩ := Option.map_eq_some_iff.mp hrow
  have hpred := List.find?_some hfind
  rw [Bool.and_eq_true, decide_eq_true_eq, Bool.not_eq_true'] at hpred
  obtain ⟨rfl, hkept⟩ := hpred
  cases pin with
  | false =>
      have hget := getMessage_updateMessage db (fun m => m.id = other)
        (f := fun m => { m with pinned := false }) (fun _ => rfl) (fun _ => rfl) m.id
      rw [hfind] at hget
      refine Eq.trans hget ?_
      by_cases hother : m.id = other <;> simp [hother]
  | true =>
      have hget := getMessage_updateMessage db (fun m => m.id = other && !m.deleted)
        (f := fun m => { m with pinned := true }) (fun _ => rfl) (fun _ => rfl) m.id
      rw [hfind] at hget
      refine Eq.trans hget ?_
      by_cases hother : m.id = other <;> simp [hother, hkept]

/-- The tables after a request that names the message. -/
def PinRequest.store (r : PinRequest) (db : ChatDatabase) (id : BitVec 64) : ChatDatabase :=
  if r.dbOk then setPinned db id r.pin else db

theorem sound_store {db : ChatDatabase} (hs : db.Sound) (r : PinRequest) (id : BitVec 64) :
    (r.store db id).Sound := by
  rw [PinRequest.store]
  split
  · exact sound_setPinned hs id r.pin
  · exact hs

theorem fileAttachments_store (r : PinRequest) (db : ChatDatabase) (id : BitVec 64) :
    (r.store db id).fileAttachments = db.fileAttachments := by
  rw [PinRequest.store]
  split
  · exact fileAttachments_setPinned db id r.pin
  · rfl

theorem getMessage_store {db : ChatDatabase} {id : BitVec 64} {row : MessageRow}
    (hrow : db.getMessage id = some row) (r : PinRequest) (other : BitVec 64) :
    (r.store db other).getMessage id =
      some (if id = other ∧ r.dbOk = true then { row with pinned := r.pin } else row) := by
  rw [PinRequest.store]
  cases r.dbOk with
  | false => simpa using hrow
  | true => simpa using getMessage_setPinned hrow other r.pin

/-! ### One request -/

/-- A request that names a message there is sets its flag and tells everybody. -/
theorem handle_named {c : ChatServer} {r : PinRequest} (hserver : c.server = r.server)
    (row : MessageRow) (hnames : r.Names row.id) (hrow : c.db.getMessage row.id = some row) :
    c.handle r.sid r.request = (r.store c.db row.id,
      c.broadcast (.chatMessage ⟨{ row with pinned := r.pin }, []⟩)) := by
  obtain ⟨hin, hauth, hparse⟩ := hnames
  rw [← hserver] at hin hauth
  obtain ⟨⟨id, reader⟩, hparse, hid⟩ := Option.map_eq_some_iff.mp hparse
  dsimp only at hid
  subst hid
  have hnamed : c.namedMessage r.sid r.payload = some row :=
    namedMessage_some.mpr ⟨hauth, reader, hparse, hrow⟩
  rw [PinRequest.request, PinRequest.store, setPinned]
  cases r.pin with
  | false =>
      show c.handle r.sid (.chatUnpin r.payload r.dbOk) = _
      unfold handle
      rw [if_neg (not_not.mpr hin)]
      show c.chatUnpin r.sid r.payload r.dbOk = _
      rw [chatUnpin, hnamed]
      rfl
  | true =>
      show c.handle r.sid (.chatPin r.payload r.dbOk) = _
      unfold handle
      rw [if_neg (not_not.mpr hin)]
      show c.chatPin r.sid r.payload r.dbOk = _
      rw [chatPin, hnamed]
      rfl

/-- Every request is of that kind, for some message, or it is ignored. -/
theorem handle_pin (c : ChatServer) {r : PinRequest} (hserver : c.server = r.server) :
    (c.handle r.sid r.request = c.ignore ∧
        ∀ row : MessageRow, c.db.getMessage row.id = some row → ¬ r.Names row.id) ∨
      ∃ row : MessageRow, r.Names row.id ∧ c.db.getMessage row.id = some row := by
  by_cases hsome : ∃ row : MessageRow, r.Names row.id ∧ c.db.getMessage row.id = some row
  · exact .inr hsome
  · refine .inl ⟨?_, fun row hrow hnames => hsome ⟨row, hnames, hrow⟩⟩
    unfold handle
    split
    · rfl
    next hin =>
      have hnone : c.namedMessage r.sid r.payload = none := by
        rw [Option.eq_none_iff_forall_ne_some]
        intro row hrow
        obtain ⟨hauth, reader, hparse, hget⟩ := namedMessage_some.mp hrow
        refine hsome ⟨row, ⟨?_, ?_, ?_⟩, hget⟩
        · rw [← hserver]
          exact not_not.mp hin
        · rw [← hserver]
          exact hauth
        · rw [hparse]
          rfl
      rw [PinRequest.request]
      cases r.pin with
      | false =>
          show c.chatUnpin r.sid r.payload r.dbOk = _
          rw [chatUnpin, hnone]
      | true =>
          show c.chatPin r.sid r.payload r.dbOk = _
          rw [chatPin, hnone]

/-! ### The copy over a run -/

namespace PinnedView

/-- What a broadcast of pin updates does to the client. -/
theorem receive_broadcast (me : SessionId) {k : ChatClient} (c : ChatServer) {m : ChatMessage}
    (hfits : m.Fits) {P : ChatClient → Prop} (hk : P k)
    (htake : ∀ k, P k → P (k.takeMessage m).1) : P (receive me k (c.broadcast (.chatMessage m))) := by
  rw [receive]
  refine List.foldlRecOn _ _ hk ?_
  intro k hk sent hsent
  obtain ⟨other, _, rfl⟩ := List.mem_map.mp (List.mem_of_mem_filter hsent)
  have htaken := k.handleServerMessage_encode (.chatMessage m) hfits
  rw [htaken]
  exact htake k hk

/-- A session that is listed and logged in gets a broadcast. -/
theorem receive_broadcast_reaches {me : SessionId} {k : ChatClient} {c : ChatServer}
    {m : ChatMessage} (hin : me ∈ c.server.sessionTable)
    (hauth : (c.session me).authenticated = true) (hfits : m.Fits) {P Q : ChatClient → Prop}
    (hk : P k) (htake : ∀ k, P k → P (k.takeMessage m).1 ∧ Q (k.takeMessage m).1) :
    Q (receive me k (c.broadcast (.chatMessage m))) := by
  rcases List.eq_nil_or_concat ((c.broadcast (.chatMessage m)).filter fun s => s.1 = me) with
    hnil | ⟨before, last, hconcat⟩
  · have hmem : (me, ChatReply.chatMessage m) ∈
        (c.broadcast (.chatMessage m)).filter fun s => s.1 = me :=
      List.mem_filter.mpr ⟨List.mem_map.mpr ⟨me, List.mem_filter.mpr ⟨hin, hauth⟩, rfl⟩,
        decide_eq_true rfl⟩
    rw [hnil] at hmem
    cases hmem
  · have hsame : ∀ sent ∈ before ++ [last], sent.2 = .chatMessage m := by
      intro sent hsent
      rw [← List.concat_eq_append, ← hconcat] at hsent
      obtain ⟨other, _, rfl⟩ := List.mem_map.mp (List.mem_of_mem_filter hsent)
      rfl
    have htaken := fun k : ChatClient =>
      k.handleServerMessage_encode (.chatMessage m) hfits
    have hbefore : P (before.foldl (fun k s => (k.handleServerMessage s.2.encode).1) k) := by
      refine List.foldlRecOn _ _ hk ?_
      intro k hk sent hsent
      rw [hsame sent (List.mem_append_left _ hsent), htaken]
      exact (htake k hk).1
    rw [receive, hconcat, List.concat_eq_append, List.foldl_append, List.foldl_cons,
      List.foldl_nil, hsame last (List.mem_append_right _ (List.mem_singleton.mpr rfl)), htaken]
    exact (htake _ hbefore).2

/-- The copy of a message after some requests, and whether one of them named it. -/
def expected (db : ChatDatabase) (userId : UserId) (row : MessageRow) (named : Bool) :
    ShownMessage :=
  if named then ChatMessage.shown userId ⟨row, []⟩ else storedView db userId row

theorem expected_id (db : ChatDatabase) (userId : UserId) (row : MessageRow) (named : Bool) :
    (expected db userId row named).id = row.id := by
  cases named <;> rfl

structure Tracked (db : ChatDatabase) (userId : UserId) (row : MessageRow)
    (stored told named : Bool) (v : PinnedView) : Prop where
  sound : v.db.Sound
  fileAttachments : v.db.fileAttachments = db.fileAttachments
  user : v.client.userId = userId
  active : v.client.activeChannel = row.channelId
  kept : v.db.getMessage row.id = some { row with pinned := stored }
  copy : ShowsOnly v.client (expected db userId { row with pinned := told } named)

variable {me : SessionId}

/-- The update of the message itself becomes the copy. -/
theorem shown_updated {k : ChatClient} (c : ChatServer) (row : MessageRow) {view : ShownMessage}
    (hin : me ∈ c.server.sessionTable) (hauth : (c.session me).authenticated = true)
    (hfits : ChatMessage.Fits ⟨row, []⟩) (hactive : k.activeChannel = row.channelId)
    (hview : view.id = row.id) (hshown : ShowsOnly k view) :
    ShowsOnly (receive me k (c.broadcast (.chatMessage ⟨row, []⟩)))
      (ChatMessage.shown k.userId ⟨row, []⟩) := by
  refine receive_broadcast_reaches
    (P := fun k' => k'.userId = k.userId ∧ k'.activeChannel = row.channelId ∧
      ∃ view, view.id = row.id ∧ ShowsOnly k' view)
    (Q := fun k' => ShowsOnly k' (ChatMessage.shown k.userId ⟨row, []⟩))
    hin hauth hfits ⟨rfl, hactive, view, hview, hshown⟩ ?_
  intro k' ⟨huser, hactive', view', hview', hshown'⟩
  have htaken := ChatClient.takeMessage_same (m := ⟨row, []⟩) hview'.symm hactive'.symm hshown'
  rw [huser] at htaken
  refine ⟨⟨?_, ?_, _, rfl, htaken⟩, htaken⟩
  · rw [ChatClient.takeMessage_userId, huser]
  · rw [ChatClient.takeMessage_activeChannel, hactive']

/-- The update of another message leaves it. -/
theorem shown_other {k : ChatClient} {c : ChatServer} {m : ChatMessage} {view : ShownMessage}
    (hfits : m.Fits) (hne : m.row.id ≠ view.id) (hshown : ShowsOnly k view) :
    ShowsOnly (receive me k (c.broadcast (.chatMessage m))) view :=
  receive_broadcast me c (P := fun k => ShowsOnly k view) hfits hshown fun _ hk =>
    ChatClient.takeMessage_other hne hk

theorem tracked_step {db : ChatDatabase} {userId : UserId} {row : MessageRow}
    {stored told named : Bool} {v : PinnedView} (h : Tracked db userId row stored told named v)
    {r : PinRequest} (hreach : r.Reaches me) :
    Tracked db userId row (if r.Names row.id ∧ r.dbOk = true then r.pin else stored)
      (if r.Names row.id then r.pin else told) (named || decide (r.Names row.id)) (step me v r) := by
  rcases handle_pin { server := r.server, db := v.db } (r := r) rfl with
    ⟨hignore, hother⟩ | ⟨other, hnames, hother⟩
  · have hno : ¬ r.Names row.id := hother { row with pinned := stored } h.kept
    have hstep : step me v r = v := by
      rw [step, hignore]
      rfl
    rw [hstep, decide_eq_false hno, Bool.or_false, if_neg hno, if_neg fun hboth => hno hboth.1]
    exact h
  · have hhandle := handle_named (c := { server := r.server, db := v.db }) rfl other hnames hother
    have hstep : step me v r = ⟨r.store v.db other.id,
        receive me v.client (broadcast { server := r.server, db := v.db }
          (.chatMessage ⟨{ other with pinned := r.pin }, []⟩))⟩ := by
      rw [step, hhandle]
    have hfits : ChatMessage.Fits ⟨{ other with pinned := r.pin }, []⟩ := by
      have hrowFits := h.sound.getMessage_fits hother
      exact bare_fits ⟨hrowFits.senderName, hrowFits.text⟩
    have hclient := receive_broadcast me { server := r.server, db := v.db } hfits
      (P := fun k => k.userId = userId ∧ k.activeChannel = row.channelId) ⟨h.user, h.active⟩
      (by
        intro k hk
        rw [ChatClient.takeMessage_userId, ChatClient.takeMessage_activeChannel]
        exact hk)
    have hattachments := (fileAttachments_store r v.db other.id).trans h.fileAttachments
    have hget := getMessage_store h.kept r other.id
    rw [hstep]
    by_cases hsame : row.id = other.id
    · have heq : other = { row with pinned := stored } := by
        rw [← hsame] at hother
        exact (Option.some.inj (h.kept.symm.trans hother)).symm
      subst heq
      have hshown := shown_updated { server := r.server, db := v.db }
        { row with pinned := r.pin } hreach.1 hreach.2 hfits h.active
        (expected_id db userId { row with pinned := told } named) h.copy
      rw [h.user] at hshown
      rw [decide_eq_true hnames, Bool.or_true, if_pos hnames]
      refine ⟨sound_store h.sound _ _, hattachments, hclient.1, hclient.2, ?_, hshown⟩
      by_cases hok : r.dbOk = true
      · rw [if_pos ⟨rfl, hok⟩] at hget
        rw [if_pos ⟨hnames, hok⟩]
        exact hget
      · rw [if_neg fun hboth => hok hboth.2] at hget
        rw [if_neg fun hboth => hok hboth.2]
        exact hget
    · have hno : ¬ r.Names row.id := by
        intro hnames'
        exact hsame (Option.some.inj (hnames'.2.2.symm.trans hnames.2.2))
      have hne : other.id ≠ (expected db userId { row with pinned := told } named).id := by
        rw [expected_id]
        exact Ne.symm hsame
      rw [if_neg fun hboth => hsame hboth.1] at hget
      rw [decide_eq_false hno, Bool.or_false, if_neg hno, if_neg fun hboth => hno hboth.1]
      exact ⟨sound_store h.sound _ _, hattachments, hclient.1, hclient.2, hget,
        shown_other hfits hne h.copy⟩

theorem tracked_run {db : ChatDatabase} {userId : UserId} {row : MessageRow}
    {stored told named : Bool} {v : PinnedView} (h : Tracked db userId row stored told named v)
    {requests : List PinRequest} (hreach : ∀ r ∈ requests, r.Reaches me) :
    Tracked db userId row (PinRequest.storedPin row.id stored requests)
      (PinRequest.toldPin row.id told requests)
      (named || requests.any fun r => r.Names row.id) (run me v requests) := by
  induction requests generalizing v stored told named with
  | nil =>
      rw [List.any_nil, Bool.or_false]
      exact h
  | cons r requests ih =>
      have hstep := tracked_step h (hreach r List.mem_cons_self)
      have hrun := ih hstep fun r hr => hreach r (List.mem_cons_of_mem _ hr)
      rw [Bool.or_assoc] at hrun
      simpa only [run, Machine.run_cons, PinRequest.storedPin, PinRequest.toldPin,
        PinRequest.lastPin, List.foldl_cons, List.any_cons, decide_eq_true_eq] using hrun

end PinnedView

/-! ### When the copy is the stored message -/

/-- Pinning changes nothing but the flag in the tables. A client that shows the message once and
as it is stored shows it so in the end exactly if no request has named it, or it has no
attachments and the flag that was announced last is the one that is stored. -/
theorem copies_match_iff {me : SessionId} {db : ChatDatabase} (hdb : db.Reached)
    {row : MessageRow} (hrow : db.getMessage row.id = some row) {k : ChatClient}
    (hactive : k.activeChannel = row.channelId) (hshown : ShowsOnly k (storedView db k.userId row))
    {requests : List PinRequest} (hreach : ∀ r ∈ requests, r.Reaches me) :
    let last := PinnedView.run me ⟨db, k⟩ requests
    let row' := { row with pinned := PinRequest.storedPin row.id row.pinned requests }
    last.db.getMessage row.id = some row' ∧ last.db.fileAttachments = db.fileAttachments ∧
      ∀ copy ∈ last.client.messages, copy.id = row.id →
        (copy = storedView last.db k.userId row' ↔
          (∀ r ∈ requests, ¬ r.Names row.id) ∨
            db.getAttachmentsForMessage row.id = [] ∧
              PinRequest.toldPin row.id row.pinned requests =
                PinRequest.storedPin row.id row.pinned requests) := by
  intro last row'
  have hstart : PinnedView.Tracked db k.userId row row.pinned row.pinned false ⟨db, k⟩ :=
    ⟨hdb.sound, rfl, rfl, hactive, hrow, hshown⟩
  have hrun := PinnedView.tracked_run hstart hreach
  refine ⟨hrun.kept, hrun.fileAttachments, ?_⟩
  intro copy hcopy hid
  have hsame : ∀ id, last.db.getAttachmentsForMessage id = db.getAttachmentsForMessage id := by
    intro id
    rw [ChatDatabase.getAttachmentsForMessage, hrun.fileAttachments]
    rfl
  have heq := hrun.copy.eq hcopy (by rw [PinnedView.expected_id, hid])
  rw [Bool.false_or] at heq
  rw [heq, storedView, hsame]
  by_cases hnamed : (requests.any fun r => r.Names row.id) = true
  · have hsome : ¬ ∀ r ∈ requests, ¬ r.Names row.id := by
      obtain ⟨r, hr, hr'⟩ := List.any_eq_true.mp hnamed
      exact fun hno => hno r hr (of_decide_eq_true hr')
    rw [PinnedView.expected, if_pos hnamed, or_iff_right hsome]
    constructor
    · intro hviews
      have hattachments := congrArg ShownMessage.attachments hviews
      have hpinned := congrArg ShownMessage.pinned hviews
      exact ⟨List.map_eq_nil_iff.mp (List.map_eq_nil_iff.mp hattachments.symm), hpinned⟩
    · rintro ⟨hnone, htold⟩
      show _ = ChatMessage.shown k.userId
        ⟨_, (db.getAttachmentsForMessage row.id).map AttachmentRow.toChatAttachment⟩
      rw [hnone, List.map_nil, htold]
  · have hnone : ∀ r ∈ requests, ¬ r.Names row.id := by
      intro r hr hnames
      exact hnamed (List.any_eq_true.mpr ⟨r, hr, decide_eq_true hnames⟩)
    have htold : PinRequest.toldPin row.id row.pinned requests = row.pinned :=
      PinRequest.lastPin_of_forall_not (fun r hr => decide_eq_false (hnone r hr)) _
    have hstored : PinRequest.storedPin row.id row.pinned requests = row.pinned :=
      PinRequest.lastPin_of_forall_not
        (fun r hr => decide_eq_false fun hboth => hnone r hr hboth.1) _
    rw [PinnedView.expected, if_neg hnamed, htold, storedView]
    simp only [row', hstored]
    exact ⟨fun _ => .inl hnone, fun _ => trivial⟩

/-- One user, logged in on session 1. -/
def pinServer : Server :=
  (Server.new .small (.ticking 1)).onNewConnection.modifySession 1 fun session =>
    { session with authenticated := true, userId := 1 }

/-- The tables after an empty message with one attachment of three bytes. -/
def pictureSent : ChatDatabase :=
  (ChatServer.handle { server := pinServer, db := { textChannels := [⟨1, [103], 0⟩] } } 1
    (.chatSend (writeU32 1 ++ (writeText [] ++ (writeU8 1 ++
      (writeText [97] ++ (writeU64 3 ++ writeText [98]))))) 5 [109] true fun _ => true)).1

def pictureRow : MessageRow where
  id := 1
  channelId := 1
  senderId := 1
  senderName := bindText "".toUTF8.toList
  text := []
  createdAt := 5

/-- The client shows the message as it is stored. -/
def pictureClient : ChatClient where
  userId := 1
  activeChannel := 1
  messages := [storedView pictureSent 1 pictureRow]

def pinPicture : PinRequest where
  server := pinServer
  sid := 1
  pin := true
  payload := writeU64 1

theorem toList_empty : "".toUTF8.toList = [] := by
  show ByteArray.toList.loop ByteArray.empty 0 [] = []
  rw [ByteArray.toList.loop]
  rfl

theorem username_pinServer (sid : SessionId) : (pinServer.sessions sid).username = "" := by
  by_cases hsid : sid = 1
  · subst hsid
    rfl
  · have hother : pinServer.sessions sid = (Server.new .small (.ticking 1)).sessions sid := by
      rw [pinServer, Server.modifySession, Server.onNewConnection]
      dsimp only
      rw [Function.update_of_ne hsid]
      exact Function.update_of_ne hsid _ _
    rw [hother]
    rfl

theorem reached_pictureSent : pictureSent.Reached := by
  refine .request (.fresh [⟨1, [103], 0⟩]) ?_ 1 _
  intro sid
  show (pinServer.sessions sid).username.toUTF8.toList.length < 2 ^ 16
  rw [username_pinServer, toList_empty]
  decide

theorem shows_pictureClient : ShowsOnly pictureClient (storedView pictureSent 1 pictureRow) :=
  List.Sublist.refl _

theorem reaches_pinPicture : ∀ r ∈ [pinPicture], r.Reaches 1 := by
  intro r hr
  rw [List.mem_singleton.mp hr]
  exact ⟨by decide, rfl⟩

/-- The one request leaves the message on screen without its attachment. -/
theorem messages_pinPicture :
    (PinnedView.run 1 ⟨pictureSent, pictureClient⟩ [pinPicture]).client.messages =
      [ChatMessage.shown 1 ⟨{ pictureRow with pinned := true }, []⟩] := by
  have hfits : ChatMessage.Fits ⟨{ pictureRow with pinned := true }, []⟩ := by
    refine bare_fits ⟨?_, by show (0 : Nat) < 2 ^ 16; decide⟩
    show (bindText "".toUTF8.toList).length < 2 ^ 16
    rw [toList_empty]
    decide
  have hhandle := handle_named (c := { server := pinServer, db := pictureSent })
    (r := pinPicture) rfl pictureRow ⟨by decide, rfl, by rfl⟩ rfl
  have hbroadcast : broadcast { server := pinServer, db := pictureSent }
      (.chatMessage ⟨{ pictureRow with pinned := true }, []⟩) =
        [(1, .chatMessage ⟨{ pictureRow with pinned := true }, []⟩)] := rfl
  show (PinnedView.step 1 ⟨pictureSent, pictureClient⟩ pinPicture).client.messages = _
  rw [PinnedView.step]
  show (PinnedView.receive 1 pictureClient (ChatServer.handle { server := pinServer, db := pictureSent }
    pinPicture.sid pinPicture.request).2).messages = _
  rw [hhandle]
  show (PinnedView.receive 1 pictureClient (broadcast { server := pinServer, db := pictureSent }
    (.chatMessage ⟨{ pictureRow with pinned := true }, []⟩))).messages = _
  rw [hbroadcast]
  show (pictureClient.handleServerMessage (ChatReply.encode _)).1.messages = _
  rw [pictureClient.handleServerMessage_encode (.chatMessage _) hfits]
  rfl

/-- The pinned message has lost its attachment. -/
theorem not_copies_match : ¬ ∀ (me : SessionId) (db : ChatDatabase), db.Reached →
    ∀ row : MessageRow, db.getMessage row.id = some row →
    ∀ k : ChatClient, k.activeChannel = row.channelId →
      ShowsOnly k (storedView db k.userId row) →
    ∀ requests : List PinRequest, (∀ r ∈ requests, r.Reaches me) →
    ∀ row', (PinnedView.run me ⟨db, k⟩ requests).db.getMessage row.id = some row' →
    ∀ copy ∈ (PinnedView.run me ⟨db, k⟩ requests).client.messages, copy.id = row.id →
      copy = storedView (PinnedView.run me ⟨db, k⟩ requests).db k.userId row' := by
  intro hall
  have heq := hall 1 pictureSent reached_pictureSent pictureRow rfl pictureClient rfl
    shows_pictureClient [pinPicture] reaches_pinPicture { pictureRow with pinned := true } rfl
    (ChatMessage.shown 1 ⟨{ pictureRow with pinned := true }, []⟩)
    (by rw [messages_pinPicture]; exact List.mem_singleton.mpr rfl) rfl
  have hattachments := congrArg (fun m : ShownMessage => m.attachments.length) heq
  exact absurd hattachments (by decide)

theorem copies_match_iff_pinned :
    let last := PinnedView.run 1 ⟨pictureSent, pictureClient⟩ [pinPicture]
    let row' := { pictureRow with pinned := PinRequest.storedPin 1 false [pinPicture] }
    last.db.getMessage 1 = some row' ∧ last.db.fileAttachments = pictureSent.fileAttachments ∧
      ∀ copy ∈ last.client.messages, copy.id = 1 →
        (copy = storedView last.db 1 row' ↔
          (∀ r ∈ [pinPicture], ¬ r.Names 1) ∨
            pictureSent.getAttachmentsForMessage 1 = [] ∧
              PinRequest.toldPin 1 false [pinPicture] =
                PinRequest.storedPin 1 false [pinPicture]) :=
  @copies_match_iff 1 pictureSent reached_pictureSent pictureRow rfl pictureClient rfl
    shows_pictureClient [pinPicture] reaches_pinPicture

end Parties.Client

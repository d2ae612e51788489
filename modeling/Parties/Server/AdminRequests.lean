import Parties.Server.ChannelDeletion
import Parties.Server.ChatHandlers
import Parties.Server.StoredRoles

/-!
# What admin requests report

Mirror of the admin cases of `Server::handle_message` that `Handlers` does not have, the
rename of a channel and the two for text channels, and of the way all of them treat a payload
that cannot be read. An answer is an error or a success. A success can be wrong: statements
that touch no row succeed, the write of a role is not looked at, names are stored up to their
first zero, and the loop of `ADMIN_KICK_USER` can find nobody or end with a refusal. The channel list
that goes to everyone in front of some results is no answer, and is looked at in `LobbyLists`.
-/

namespace Parties

open Parties.Wire

/-! ### The other admin requests -/

namespace Database

/-- `UPDATE channels SET name`. Names are unique, and an absent row is no error. -/
def renameChannel (db : Database) (channel : ChannelId) (newName : String) : Option Database :=
  if db.channels.any (fun c => c.id = channel) &&
      db.channels.any (fun c => c.id ≠ channel && c.name = bindName newName) then none
  else some { db with channels := db.channels.map fun c =>
      if c.id = channel then { c with name := bindName newName } else c }

end Database

/-- `newId` is the id of the new row; none when the statement fails. Names are unique. -/
def ChatDatabase.createTextChannel (db : ChatDatabase) (name : Bytes) (newId : Option (BitVec 32)) :
    Option ChatDatabase :=
  match newId with
  | none => none
  | some id =>
    if db.textChannels.any (fun c => c.name = bindText name) then none
    else some { db with textChannels := db.textChannels ++ [{ id := id, name := bindText name }] }

/-- An admin request; its arguments are absent when the payload cannot be read. -/
inductive AdminRequest where
  | createChannel (args : Option (String × BitVec 32)) (dbOk : Bool)
  | deleteChannel (channel : Option ChannelId) (dbOk : Bool)
  | renameChannel (args : Option (ChannelId × String)) (dbOk : Bool)
  | setRole (args : Option (UserId × Role)) (dbOk : Bool)
  | kickUser (target : Option UserId)
  | createTextChannel (name : Option Bytes) (newId : Option (BitVec 32))
  | deleteTextChannel (channel : Option (BitVec 32)) (dbOk : Bool)

/-- What a session needs for it. -/
def AdminRequest.permission : AdminRequest → Permissions
  | .createChannel .. | .renameChannel .. | .createTextChannel .. => Permissions.CREATE_CHANNEL
  | .deleteChannel .. | .deleteTextChannel .. => Permissions.DELETE_CHANNEL
  | .setRole .. => Permissions.MANAGE_ROLES
  | .kickUser _ => Permissions.KICK_FROM_SERVER

namespace Server

def adminRenameChannel (s : Server) (sid : SessionId) (channel : ChannelId) (newName : String)
    (dbOk : Bool) : Server :=
  if !(s.sessions sid).authenticated then s
  else if !hasPermission (s.sessions sid).role Permissions.CREATE_CHANNEL none then
    s.sendError sid "Permission denied"
  else if newName = "" then s
  else
    match (if dbOk then s.db.renameChannel channel newName else none) with
    | none => s.sendError sid "Failed to rename channel"
    | some db => { s with db := db }.sendTo sid (.adminResult "Channel renamed")

/-- The case of a payload that cannot be read: the permission is looked at first. -/
def dropUnread (s : Server) (sid : SessionId) (perm : Permissions)
    (code : ServerErrorCode := .generic) : Server :=
  if !(s.sessions sid).authenticated then s
  else if !hasPermission (s.sessions sid).role perm none then
    s.sendError sid "Permission denied" code
  else s

end Server

namespace ChatServer

def adminCreateTextChannel (c : ChatServer) (sid : SessionId) (name : Bytes)
    (newId : Option (BitVec 32)) : ChatServer :=
  if !(c.session sid).authenticated then c
  else if !hasPermission (c.session sid).role Permissions.CREATE_CHANNEL none then
    { c with server := c.server.sendError sid "Permission denied" }
  else if name = [] then c
  else
    match c.db.createTextChannel name newId with
    | none => { c with server := c.server.sendError sid "Failed to create text channel" }
    | some db =>
      { c with
        db := db
        server := c.server.sendTo sid (.adminResult "Text channel created") }

def adminDeleteTextChannel (c : ChatServer) (sid : SessionId) (channel : BitVec 32) (dbOk : Bool) :
    ChatServer :=
  if !(c.session sid).authenticated then c
  else if !hasPermission (c.session sid).role Permissions.DELETE_CHANNEL none then
    { c with server := c.server.sendError sid "Permission denied" }
  else if !dbOk then
    { c with server := c.server.sendError sid "Failed to delete text channel" }
  else
    { c with
      db := c.db.deleteTextChannel channel
      server := c.server.sendTo sid (.adminResult "Text channel deleted") }

def handleAdmin (c : ChatServer) (sid : SessionId) (request : AdminRequest) : ChatServer :=
  match request with
  | .createChannel (some (name, maxUsers)) dbOk =>
    { c with server := c.server.adminCreateChannel sid name maxUsers.toInt dbOk }
  | .deleteChannel (some channel) dbOk =>
    { c with server := c.server.adminDeleteChannel sid channel dbOk }
  | .renameChannel (some (channel, newName)) dbOk =>
    { c with server := c.server.adminRenameChannel sid channel newName dbOk }
  | .setRole (some (target, newRole)) dbOk =>
    { c with server := c.server.adminSetRole sid target newRole dbOk }
  | .kickUser (some target) => { c with server := c.server.adminKickUser sid target }
  | .createTextChannel (some name) newId => c.adminCreateTextChannel sid name newId
  | .deleteTextChannel (some channel) dbOk => c.adminDeleteTextChannel sid channel dbOk
  | .kickUser none =>
    { c with server := c.server.dropUnread sid request.permission .permissionDenied }
  | .createChannel none _ | .deleteChannel none _ | .renameChannel none _ | .setRole none _
  | .createTextChannel none _ | .deleteTextChannel none _ =>
    { c with server := c.server.dropUnread sid request.permission }

end ChatServer

/-! ### What the requester is told -/

def ServerMessage.isOutcome : ServerMessage → Bool
  | .serverError .. | .adminResult _ => true
  | _ => false

/-- The errors and successes `sid` was sent from `s` to `s'`. -/
def Server.outcomes (sid : SessionId) (s s' : Server) : List ServerMessage :=
  ((s'.sent.drop s.sent.length).filter fun m => m.1 = sid && m.2.isOutcome).map Prod.snd

namespace ChatServer

/-- The effect that was asked for is there. -/
def Applied (c c' : ChatServer) : AdminRequest → Prop
  | .createChannel (some (name, maxUsers)) _ => ∃ id, c'.server.db.channels =
      c.server.db.channels ++ [{ id := id, name := name, maxUsers := maxUsers.toInt }]
  | .deleteChannel (some channel) _ => c.server.db.getChannel channel ≠ none ∧
      c'.server.db.getChannel channel = none
  | .renameChannel (some (channel, newName)) _ => ∃ row,
      c.server.db.getChannel channel = some row ∧
      c'.server.db.getChannel channel = some { row with name := newName }
  | .setRole (some (target, newRole)) _ => ∃ user, c.server.db.getUserById target = some user ∧
      c'.server.db.getUserById target = some { user with role := newRole } ∧
      ∀ sid ∈ c.server.sessionTable, (c.server.sessions sid).userId = target →
        (c'.server.sessions sid).role = newRole
  | .kickUser (some target) => (∃ sid ∈ c.server.sessionTable,
      (c.server.sessions sid).userId = target ∧ (c.server.sessions sid).authenticated = true) ∧
      ∀ sid ∈ c.server.sessionTable, (c.server.sessions sid).userId = target →
        (c.server.sessions sid).authenticated = true → (c'.server.sessions sid).alive = false
  | .createTextChannel (some name) _ => ∃ id, c'.db.textChannels =
      c.db.textChannels ++ [{ id := id, name := name }]
  | .deleteTextChannel (some channel) _ => c.db.getTextChannel channel ≠ none ∧
      c'.db.getTextChannel channel = none
  | _ => False

/-- The requester hears of one outcome at most, and of a success if and only if the effect
was applied. A request for what is so already can be refused. -/
structure Reports (c c' : ChatServer) (sid : SessionId) (request : AdminRequest) : Prop where
  one : (Server.outcomes sid c.server c'.server).length ≤ 1
  applied : (∃ text, .adminResult text ∈ Server.outcomes sid c.server c'.server) →
    Applied c c' request
  told : Applied c c' request → ¬ Applied c c request →
    ∃ text, .adminResult text ∈ Server.outcomes sid c.server c'.server

/-- The checks that all cases make first. -/
def Permitted (c : ChatServer) (sid : SessionId) (request : AdminRequest) : Prop :=
  (c.session sid).authenticated = true ∧
    hasPermission (c.session sid).role request.permission none = true

/-- A request that is carried out concerns what is there, with a name that can be stored; its
write of a role succeeds or changes nothing, and everyone it kicks may be kicked. -/
def Concerns (c : ChatServer) (sid : SessionId) : AdminRequest → Prop
  | .createChannel (some (name, maxUsers)) dbOk => name ≠ "" → dbOk = true →
      c.server.db.createChannel name maxUsers.toInt ≠ none → bindName name = name
  | .deleteChannel (some channel) dbOk => dbOk = true → c.server.db.getChannel channel ≠ none
  | .renameChannel (some (channel, newName)) dbOk => newName ≠ "" → dbOk = true →
      c.server.db.renameChannel channel newName ≠ none →
      c.server.db.getChannel channel ≠ none ∧ bindName newName = newName
  | .setRole (some (target, newRole)) dbOk =>
      c.server.checkSetRole (c.session sid).role target newRole = .ok () →
      dbOk = true ∨ ∃ user, c.server.db.getUserById target = some user ∧ user.role = newRole
  | .kickUser (some target) => (∃ other ∈ c.server.sessionTable,
      (c.session other).userId = target ∧ (c.session other).authenticated = true) ∧
      ∀ other ∈ c.server.sessionTable, (c.session other).userId = target →
        (c.session other).authenticated = true →
        canModerate (c.session sid).role (c.session other).role = true
  | .createTextChannel (some name) newId => name ≠ [] →
      c.db.createTextChannel name newId ≠ none → bindText name = name
  | .deleteTextChannel (some channel) dbOk => dbOk = true → c.db.getTextChannel channel ≠ none
  | _ => True

/-! ### Outcomes -/

end ChatServer

namespace Server

variable {s s' t : Server} {sid : SessionId}

theorem outcomes_append {added : List (SessionId × ServerMessage)}
    (hsent : s'.sent = s.sent ++ added) : outcomes sid s s' =
      (added.filter fun m => m.1 = sid && m.2.isOutcome).map Prod.snd := by
  rw [outcomes, hsent, List.drop_left]

theorem outcomes_self : outcomes sid s s = [] := outcomes_append (List.append_nil _).symm

/-- An answer behind messages that are none. -/
theorem outcomes_answer {added : List (SessionId × ServerMessage)} {message : ServerMessage}
    (hsent : s'.sent = s.sent ++ added ++ [(sid, message)])
    (hadded : ∀ m ∈ added, m.1 = sid → m.2.isOutcome = false)
    (houtcome : message.isOutcome = true) : outcomes sid s s' = [message] := by
  have hnone : added.filter (fun m => m.1 = sid && m.2.isOutcome) = [] := by
    rw [List.filter_eq_nil_iff]
    intro m hm
    by_cases hsid : m.1 = sid
    · simp [hadded m hm hsid]
    · simp [hsid]
  rw [outcomes_append (hsent.trans (List.append_assoc _ _ _)), List.filter_append, hnone,
    List.nil_append, List.filter_singleton]
  simp [houtcome]

/-- An answer sent from a server that has sent nothing else of the kind. -/
theorem outcomes_sent {added : List (SessionId × ServerMessage)} {message : ServerMessage}
    (hsent : t.sent = s.sent ++ added) (hadded : ∀ m ∈ added, m.1 = sid → m.2.isOutcome = false)
    (houtcome : message.isOutcome = true) : outcomes sid s (t.sendTo sid message) = [message] := by
  refine outcomes_answer ?_ hadded houtcome
  rw [← hsent]
  rfl

theorem outcomes_sendTo (s : Server) (sid : SessionId) {message : ServerMessage}
    (houtcome : message.isOutcome = true) : outcomes sid s (s.sendTo sid message) = [message] :=
  outcomes_sent (List.append_nil _).symm (fun _ hm => by cases hm) houtcome

theorem announced_noOutcome : Announced fun message => message.isOutcome = false :=
  ⟨fun _ _ => rfl, fun _ _ _ _ _ => rfl, fun _ => rfl, fun _ _ => rfl⟩

end Server

namespace ChatServer

open Server

variable {c c' : ChatServer} {sid : SessionId} {request : AdminRequest}

theorem reports_silent (hout : outcomes sid c.server c'.server = [])
    (hsame : Applied c c' request → Applied c c request) : Reports c c' sid request where
  one := by
    rw [hout]
    exact Nat.zero_le _
  applied := by
    rw [hout]
    rintro ⟨text, hin⟩
    cases hin
  told happlied hnot := absurd (hsame happlied) hnot

theorem reports_error {code : ServerErrorCode} {text : String}
    (hout : outcomes sid c.server c'.server = [.serverError code text])
    (hsame : Applied c c' request → Applied c c request) : Reports c c' sid request where
  one := by
    rw [hout]
    exact le_rfl
  applied := by
    rw [hout]
    rintro ⟨text', hin⟩
    cases List.mem_singleton.mp hin
  told happlied hnot := absurd (hsame happlied) hnot

theorem reports_result_iff {text : String}
    (hout : outcomes sid c.server c'.server = [.adminResult text]) :
    Reports c c' sid request ↔ Applied c c' request := by
  constructor
  · intro h
    refine h.applied ⟨text, ?_⟩
    rw [hout]
    exact List.mem_singleton_self _
  · intro happlied
    refine ⟨?_, fun _ => happlied, fun _ _ => ⟨text, ?_⟩⟩
    · rw [hout]
      exact le_rfl
    · rw [hout]
      exact List.mem_singleton_self _

/-- A refusal that changes nothing is reported as one. -/
theorem reports_sendError (c : ChatServer) (sid : SessionId) (request : AdminRequest)
    (text : String) (code : ServerErrorCode) :
    Reports c { c with server := c.server.sendError sid text code } sid request :=
  reports_error (outcomes_sendTo c.server sid rfl) id

theorem reports_self (c : ChatServer) (sid : SessionId) (request : AdminRequest) :
    Reports c c sid request :=
  reports_silent outcomes_self id

/-! ### Requests that are not carried out -/

/-- Without the permission every case ends in the same way. -/
theorem handleAdmin_of_not_permitted (hnot : ¬ c.Permitted sid request) :
    c.handleAdmin sid request = c ∨ ∃ code, c.handleAdmin sid request =
      { c with server := c.server.sendError sid "Permission denied" code } := by
  by_cases hauth : (c.server.sessions sid).authenticated = true
  · right
    have hmay : hasPermission (c.server.sessions sid).role request.permission none = false := by
      rw [← Bool.not_eq_true]
      exact fun hmay => hnot ⟨hauth, hmay⟩
    unfold handleAdmin
    split
    case h_5 | h_8 =>
      refine ⟨.permissionDenied, ?_⟩
      simp_all [adminKickUser, dropUnread, AdminRequest.permission]
    all_goals
      refine ⟨.generic, ?_⟩
      simp_all [adminCreateChannel, adminDeleteChannel, adminRenameChannel, adminSetRole, dropUnread,
        adminCreateTextChannel, adminDeleteTextChannel, session, AdminRequest.permission]
  · left
    unfold handleAdmin
    split
    all_goals
      simp_all [adminCreateChannel, adminDeleteChannel, adminRenameChannel, adminSetRole, dropUnread,
        adminKickUser, adminCreateTextChannel, adminDeleteTextChannel, session]

/-! ### Channels -/

theorem reports_createChannel_iff (hauth : (c.server.sessions sid).authenticated = true)
    (hmay : hasPermission (c.server.sessions sid).role Permissions.CREATE_CHANNEL none = true)
    (name : String) (maxUsers : BitVec 32) (dbOk : Bool) :
    let request := AdminRequest.createChannel (some (name, maxUsers)) dbOk
    Reports c (c.handleAdmin sid request) sid request ↔ c.Concerns sid request := by
  have hresult : c.server.adminCreateChannel sid name maxUsers.toInt dbOk =
      if name = "" then c.server
      else match (if dbOk then c.server.db.createChannel name maxUsers.toInt else none) with
        | none => c.server.sendError sid "Failed to create channel"
        | some db => { c.server with db := db }.sendTo sid (.adminResult "Channel created") := by
    rw [adminCreateChannel, hauth, hmay]
    rfl
  unfold handleAdmin Concerns
  dsimp only
  rw [hresult]
  by_cases hname : name = ""
  · rw [if_pos hname]
    exact iff_of_true (reports_self _ _ _) fun hne => absurd hname hne
  · rw [if_neg hname]
    cases dbOk with
    | false =>
        refine iff_of_true (reports_sendError _ _ _ _ _) fun _ hok => ?_
        cases hok
    | true =>
        rw [if_pos rfl]
        cases hcreate : c.server.db.createChannel name maxUsers.toInt with
        | none => exact iff_of_true (reports_sendError _ _ _ _ _) fun _ _ hne => absurd rfl hne
        | some db =>
            have hdb : db.channels = c.server.db.channels ++ [{
                id := BitVec.ofNat 32 (c.server.db.lastChannelId + 1)
                name := bindName name
                maxUsers := maxUsers.toInt }] := by
              unfold Database.createChannel at hcreate
              split at hcreate
              · cases hcreate
              · rw [← Option.some.inj hcreate]
            refine (reports_result_iff (outcomes_sendTo c.server sid rfl)).trans ?_
            constructor
            · rintro ⟨id, hchannels⟩ _ _ _
              have hrow := List.singleton_inj.mp (List.append_cancel_left (hdb.symm.trans hchannels))
              exact congrArg ChannelRow.name hrow
            · intro hcondition
              refine ⟨BitVec.ofNat 32 (c.server.db.lastChannelId + 1), hdb.trans ?_⟩
              rw [hcondition hname rfl (Option.some_ne_none db)]

theorem reports_deleteChannel_iff (hauth : (c.server.sessions sid).authenticated = true)
    (hmay : hasPermission (c.server.sessions sid).role Permissions.DELETE_CHANNEL none = true)
    (channel : ChannelId) (dbOk : Bool) :
    let request := AdminRequest.deleteChannel (some channel) dbOk
    Reports c (c.handleAdmin sid request) sid request ↔ c.Concerns sid request := by
  obtain ⟨t, ht⟩ : ∃ t, t = (c.server.evictStreams channel).evictUsers channel := ⟨_, rfl⟩
  have hresult : c.server.adminDeleteChannel sid channel dbOk =
      if dbOk then { t with db := t.db.deleteChannel channel }.sendTo sid
          (.adminResult "Channel deleted")
      else t.sendError sid "Failed to delete channel" := by
    rw [adminDeleteChannel, hauth, hmay, ← ht]
    cases dbOk <;> rfl
  have hquiet : Quiet (fun message => message.isOutcome = false) c.server t := by
    rw [ht]
    exact ((Quiet.refl _ _).evictStreams announced_noOutcome channel).evictUsers
      announced_noOutcome channel
  have hdb : t.db = c.server.db := by
    rw [ht]
    exact db_evicted c.server channel
  obtain ⟨added, hsent, hadded⟩ := hquiet.sent
  unfold handleAdmin Concerns
  dsimp only
  rw [hresult]
  cases dbOk with
  | false =>
      refine iff_of_true ?_ fun hok => ?_
      · refine reports_error (outcomes_sent hsent (fun m hm _ => hadded m hm) rfl) ?_
        rintro ⟨hknown, hgone⟩
        have hgone' : t.db.getChannel channel = none := hgone
        rw [hdb] at hgone'
        exact absurd hgone' hknown
      · cases hok
  | true =>
      refine (reports_result_iff (outcomes_sent hsent (fun m hm _ => hadded m hm) rfl)).trans ?_
      exact ⟨fun happlied _ => happlied.1,
          fun hcondition => ⟨hcondition rfl, getChannel_deleteChannel t.db channel⟩⟩

/-- The row with a key, after the rows with that key were updated. -/
theorem find?_map_update {α β : Type} [DecidableEq β] {key : α → β} {update : α → α}
    (hkey : ∀ row, key (update row) = key row) (k : β) (rows : List α) :
    (rows.map fun row => if key row = k then update row else row).find?
        (fun row => decide (key row = k)) =
      (rows.find? fun row => decide (key row = k)).map update := by
  have hsame : ((fun row => decide (key row = k)) ∘ fun row =>
      if key row = k then update row else row) = fun row => decide (key row = k) := by
    funext row
    by_cases hid : key row = k
    · simp [hid, hkey]
    · simp [hid]
  rw [List.find?_map, hsame]
  cases hfind : rows.find? fun row => decide (key row = k) with
  | none => rfl
  | some row =>
      have hid : key row = k := by simpa using List.find?_some hfind
      rw [Option.map_some, Option.map_some, if_pos hid]

theorem getChannel_renameChannel {db db' : Database} {channel : ChannelId} {newName : String}
    (h : db.renameChannel channel newName = some db') : db'.getChannel channel =
      (db.getChannel channel).map fun row => { row with name := bindName newName } := by
  unfold Database.renameChannel at h
  split at h
  · cases h
  · obtain rfl := Option.some.inj h
    have hkey : ∀ row : ChannelRow, { row with name := bindName newName }.id = row.id :=
      fun _ => rfl
    exact find?_map_update hkey channel db.channels

theorem reports_renameChannel_iff (hauth : (c.server.sessions sid).authenticated = true)
    (hmay : hasPermission (c.server.sessions sid).role Permissions.CREATE_CHANNEL none = true)
    (channel : ChannelId) (newName : String) (dbOk : Bool) :
    let request := AdminRequest.renameChannel (some (channel, newName)) dbOk
    Reports c (c.handleAdmin sid request) sid request ↔ c.Concerns sid request := by
  have hresult : c.server.adminRenameChannel sid channel newName dbOk =
      if newName = "" then c.server
      else match (if dbOk then c.server.db.renameChannel channel newName else none) with
        | none => c.server.sendError sid "Failed to rename channel"
        | some db => { c.server with db := db }.sendTo sid (.adminResult "Channel renamed") := by
    rw [adminRenameChannel, hauth, hmay]
    rfl
  unfold handleAdmin Concerns
  dsimp only
  rw [hresult]
  by_cases hname : newName = ""
  · rw [if_pos hname]
    exact iff_of_true (reports_self _ _ _) fun hne => absurd hname hne
  · rw [if_neg hname]
    cases dbOk with
    | false =>
        refine iff_of_true (reports_sendError _ _ _ _ _) fun _ hok => ?_
        cases hok
    | true =>
        rw [if_pos rfl]
        cases hrename : c.server.db.renameChannel channel newName with
        | none => exact iff_of_true (reports_sendError _ _ _ _ _) fun _ _ hne => absurd rfl hne
        | some db =>
            have hrow := getChannel_renameChannel hrename
            refine (reports_result_iff (outcomes_sendTo c.server sid rfl)).trans ?_
            constructor
            · rintro ⟨row, hbefore, hafter⟩ _ _ _
              have hafter' : db.getChannel channel = some { row with name := newName } := hafter
              rw [hrow, hbefore] at hafter'
              refine ⟨?_, congrArg ChannelRow.name (Option.some.inj hafter')⟩
              rw [hbefore]
              exact Option.some_ne_none row
            · intro hcondition
              obtain ⟨hknown, hstored⟩ := hcondition hname rfl (Option.some_ne_none db)
              obtain ⟨row, hbefore⟩ := Option.ne_none_iff_exists'.mp hknown
              refine ⟨row, hbefore, hrow.trans ?_⟩
              rw [hbefore, hstored]
              rfl

/-! ### Text channels -/

theorem reports_createTextChannel_iff (hauth : (c.server.sessions sid).authenticated = true)
    (hmay : hasPermission (c.server.sessions sid).role Permissions.CREATE_CHANNEL none = true)
    (name : Bytes) (newId : Option (BitVec 32)) :
    let request := AdminRequest.createTextChannel (some name) newId
    Reports c (c.handleAdmin sid request) sid request ↔ c.Concerns sid request := by
  have hresult : c.adminCreateTextChannel sid name newId =
      if name = [] then c
      else match c.db.createTextChannel name newId with
        | none => { c with server := c.server.sendError sid "Failed to create text channel" }
        | some db => { c with
            db := db
            server := c.server.sendTo sid (.adminResult "Text channel created") } := by
    rw [adminCreateTextChannel, session, hauth, hmay]
    rfl
  unfold handleAdmin Concerns
  dsimp only
  rw [hresult]
  by_cases hname : name = []
  · rw [if_pos hname]
    exact iff_of_true (reports_self _ _ _) fun hne => absurd hname hne
  · rw [if_neg hname]
    cases hcreate : c.db.createTextChannel name newId with
    | none => exact iff_of_true (reports_sendError _ _ _ _ _) fun _ hne => absurd rfl hne
    | some db =>
        obtain ⟨id, hdb⟩ : ∃ id, db.textChannels =
            c.db.textChannels ++ [{ id := id, name := bindText name }] := by
          unfold ChatDatabase.createTextChannel at hcreate
          split at hcreate
          · cases hcreate
          · split at hcreate
            · cases hcreate
            · rw [← Option.some.inj hcreate]
              exact ⟨_, rfl⟩
        refine (reports_result_iff (outcomes_sendTo c.server sid rfl)).trans ?_
        constructor
        · rintro ⟨id', hchannels⟩ _ _
          have hrow := List.singleton_inj.mp (List.append_cancel_left (hdb.symm.trans hchannels))
          exact congrArg TextChannelRow.name hrow
        · intro hcondition
          refine ⟨id, hdb.trans ?_⟩
          rw [hcondition hname (Option.some_ne_none db)]

theorem getTextChannel_deleteTextChannel (db : ChatDatabase) (channel : BitVec 32) :
    (db.deleteTextChannel channel).getTextChannel channel = none := by
  rw [ChatDatabase.getTextChannel, ChatDatabase.deleteTextChannel, List.find?_filter,
    List.find?_eq_none]
  intro row _
  simp

theorem reports_deleteTextChannel_iff (hauth : (c.server.sessions sid).authenticated = true)
    (hmay : hasPermission (c.server.sessions sid).role Permissions.DELETE_CHANNEL none = true)
    (channel : BitVec 32) (dbOk : Bool) :
    let request := AdminRequest.deleteTextChannel (some channel) dbOk
    Reports c (c.handleAdmin sid request) sid request ↔ c.Concerns sid request := by
  have hresult : c.adminDeleteTextChannel sid channel dbOk =
      if dbOk then { c with
        db := c.db.deleteTextChannel channel
        server := c.server.sendTo sid (.adminResult "Text channel deleted") }
      else { c with server := c.server.sendError sid "Failed to delete text channel" } := by
    rw [adminDeleteTextChannel, session, hauth, hmay]
    cases dbOk <;> rfl
  unfold handleAdmin Concerns
  dsimp only
  rw [hresult]
  cases dbOk with
  | false =>
      refine iff_of_true (reports_sendError _ _ _ _ _) fun hok => ?_
      cases hok
  | true =>
      refine (reports_result_iff (outcomes_sendTo c.server sid rfl)).trans ?_
      exact ⟨fun happlied _ => happlied.1,
        fun hcondition => ⟨hcondition rfl, getTextChannel_deleteTextChannel c.db channel⟩⟩

/-! ### Roles -/

theorem getUserById_setUserRole (db : Database) (target : UserId) (role : Role) :
    (db.setUserRole target role).getUserById target =
      (db.getUserById target).map fun user => { user with role := role } := by
  have hkey : ∀ user : UserRow, { user with role := role }.id = user.id := fun _ => rfl
  exact find?_map_update hkey target db.users

theorem reports_setRole_iff (hauth : (c.server.sessions sid).authenticated = true)
    (hmay : hasPermission (c.server.sessions sid).role Permissions.MANAGE_ROLES none = true)
    (target : UserId) (newRole : Role) (dbOk : Bool) :
    let request := AdminRequest.setRole (some (target, newRole)) dbOk
    Reports c (c.handleAdmin sid request) sid request ↔ c.Concerns sid request := by
  unfold handleAdmin Concerns session
  dsimp only
  cases hcheck : c.server.checkSetRole (c.server.sessions sid).role target newRole with
  | error text =>
      have hresult : c.server.adminSetRole sid target newRole dbOk =
          c.server.sendError sid text := by
        rw [adminSetRole, hauth, hmay]
        dsimp only
        rw [hcheck]
        rfl
      rw [hresult]
      refine iff_of_true (reports_sendError _ _ _ _ _) fun hok => ?_
      cases hok
  | ok _ =>
      obtain ⟨_, _, user, huser, _⟩ := setRole_of_checkSetRole hcheck
      obtain ⟨t, ht⟩ : ∃ t, t = if dbOk then
          { c.server with db := c.server.db.setUserRole target newRole } else c.server := ⟨_, rfl⟩
      have hsame : t.sessions = c.server.sessions ∧ t.sessionTable = c.server.sessionTable ∧
          t.sent = c.server.sent := by
        rw [ht]
        split <;> exact ⟨rfl, rfl, rfl⟩
      obtain ⟨hsessions, htable, hsent⟩ := hsame
      rw [adminSetRole_of_ok hauth hmay hcheck, ← ht]
      refine (reports_result_iff (outcomes_answer
        (congrArg (· ++ _) (congrArg (· ++ _) hsent)) ?_ rfl)).trans ?_
      · intro m hm _
        obtain ⟨other, _, rfl⟩ := List.mem_map.mp hm
        rfl
      · have hlive : ∀ other ∈ c.server.sessionTable, (c.server.sessions other).userId = target →
            ((t.setLiveRole target newRole).sessions other).role = newRole := by
          intro other hin hid
          unfold setLiveRole modifySessions
          dsimp only
          rw [htable, if_pos hin, hsessions, if_pos hid]
        have hafter : t.db.getUserById target = some (if dbOk then
            { user with role := newRole } else user) := by
          rw [ht]
          cases dbOk with
          | true => exact (getUserById_setUserRole _ _ _).trans (by rw [huser]; rfl)
          | false => exact huser
        constructor
        · rintro ⟨user', hbefore, hnew, _⟩ _
          obtain rfl := Option.some.inj (huser.symm.trans hbefore)
          cases dbOk with
          | true => exact Or.inl rfl
          | false =>
              right
              refine ⟨user, huser, ?_⟩
              have hrow : t.db.getUserById target = some { user with role := newRole } := hnew
              exact congrArg UserRow.role (Option.some.inj (hafter.symm.trans hrow))
        · intro hcondition
          refine ⟨user, huser, hafter.trans ?_, hlive⟩
          rcases hcondition rfl with hok | ⟨user', huser', hrole⟩
          · rw [if_pos hok]
          · obtain rfl := Option.some.inj (huser.symm.trans huser')
            rw [← hrole]
            split <;> rfl

/-! ### Kicks -/

variable {s : Server} {target : UserId} {others : List SessionId}

/-- `other` is a session of the user to kick. -/
def IsTarget (s : Server) (target : UserId) (other : SessionId) : Prop :=
  (s.sessions other).userId = target ∧ (s.sessions other).authenticated = true

/-- What one kick does. -/
theorem disconnect_of_mem {other : SessionId} (hin : other ∈ s.sessionTable) :
    ((s.sendError other "You have been kicked from the server" .kicked).disconnect other).sessions =
      Function.update s.sessions other { s.sessions other with alive := false } := by
  rw [disconnect, show (s.sendError other "You have been kicked from the server"
    .kicked).getSession other = some (s.sessions other) from if_pos hin]
  rfl

theorem disconnect_frame (s : Server) (other : SessionId) :
    let s' := (s.sendError other "You have been kicked from the server" .kicked).disconnect other
    s'.sessionTable = s.sessionTable ∧
      s'.sent = s.sent ++ [(other, .serverError .kicked "You have been kicked from the server")] := by
  dsimp only
  unfold disconnect
  split <;> exact ⟨rfl, rfl⟩

/-- Nobody but the kicked session changes, and it only shuts down. -/
theorem session_disconnect {other : SessionId} (hin : other ∈ s.sessionTable) (sid : SessionId) :
    let s' := (s.sendError other "You have been kicked from the server" .kicked).disconnect other
    s'.sessions sid = { s.sessions sid with alive := (s'.sessions sid).alive } ∧
      ((s.sessions sid).alive = false → (s'.sessions sid).alive = false) := by
  dsimp only
  rw [disconnect_of_mem hin]
  by_cases hsid : sid = other
  · subst hsid
    rw [Function.update_self]
    exact ⟨rfl, fun _ => rfl⟩
  · rw [Function.update_of_ne hsid]
    exact ⟨rfl, id⟩

/-! The three ways of the loop. -/

theorem kickAll_of_other {other : SessionId} (htarget : ¬ IsTarget s target other) :
    s.kickAll sid target (other :: others) = s.kickAll sid target others := if_neg htarget

theorem kickAll_of_refused {other : SessionId} (htarget : IsTarget s target other)
    (hmay : canModerate (s.sessions sid).role (s.sessions other).role = false) :
    s.kickAll sid target (other :: others) =
      s.sendError sid "Cannot kick a user with equal or higher role" .permissionDenied := by
  rw [kickAll]
  exact (if_pos htarget).trans (if_pos (by rw [hmay]; rfl))

theorem kickAll_of_kicked {other : SessionId} (htarget : IsTarget s target other)
    (hmay : canModerate (s.sessions sid).role (s.sessions other).role = true) :
    s.kickAll sid target (other :: others) =
      ((s.sendError other "You have been kicked from the server" .kicked).disconnect
        other).kickAll sid target others := by
  rw [kickAll]
  exact (if_pos htarget).trans (if_neg (by rw [hmay]; decide))

/-- Where everyone may be kicked, everyone is, and the session that asks hears nothing. -/
theorem kickAll_kicks (htable : ∀ other ∈ others, other ∈ s.sessionTable)
    (hmay : ∀ other ∈ others, IsTarget s target other →
      canModerate (s.sessions sid).role (s.sessions other).role = true) :
    (∃ added, (s.kickAll sid target others).sent = s.sent ++ added ∧ ∀ m ∈ added, m.1 ≠ sid) ∧
      (∀ other, (s.sessions other).alive = false →
        ((s.kickAll sid target others).sessions other).alive = false) ∧
      ∀ other ∈ others, IsTarget s target other →
        ((s.kickAll sid target others).sessions other).alive = false := by
  induction others generalizing s with
  | nil =>
      refine ⟨⟨[], (List.append_nil _).symm, fun m hm => by cases hm⟩, fun _ => id, ?_⟩
      intro other hin
      cases hin
  | cons other rest ih =>
      have hrest : ∀ other ∈ rest, other ∈ s.sessionTable :=
        fun other' hin => htable other' (List.mem_cons_of_mem _ hin)
      by_cases htarget : IsTarget s target other
      · have hmayThis := hmay other List.mem_cons_self htarget
        have hin := htable other List.mem_cons_self
        rw [kickAll_of_kicked htarget hmayThis]
        obtain ⟨s', hs'⟩ : ∃ s', s' = (s.sendError other "You have been kicked from the server"
          .kicked).disconnect other := ⟨_, rfl⟩
        obtain ⟨htable', hsent'⟩ := disconnect_frame s other
        have hsession := session_disconnect hin
        have hgone : (s'.sessions other).alive = false := by
          rw [hs', disconnect_of_mem hin, Function.update_self]
        rw [← hs'] at htable' hsent' ⊢
        simp only [← hs'] at hsession
        have hsame : ∀ other', IsTarget s' target other' ↔ IsTarget s target other' := by
          intro other'
          unfold IsTarget
          rw [(hsession other').1]
        have hrole : ∀ other', (s'.sessions other').role = (s.sessions other').role := by
          intro other'
          rw [(hsession other').1]
        obtain ⟨⟨added, hsent, hadded⟩, hkeeps, hkicks⟩ := ih
          (fun other' hin' => htable' ▸ hrest other' hin') fun other' hin' htarget' => by
            rw [hrole, hrole]
            exact hmay other' (List.mem_cons_of_mem _ hin') ((hsame other').mp htarget')
        refine ⟨⟨(other, .serverError .kicked "You have been kicked from the server") :: added,
          ?_, ?_⟩, fun other' hdead => hkeeps _ ((hsession other').2 hdead), ?_⟩
        · rw [hsent, hsent', List.append_assoc, List.singleton_append]
        · intro m hm
          rcases List.mem_cons.mp hm with rfl | hm
          · -- nobody may kick themselves
            rintro rfl
            exact absurd hmayThis (by simp [canModerate])
          · exact hadded m hm
        · intro other' hin' htarget'
          rcases List.mem_cons.mp hin' with rfl | hin'
          · exact hkeeps _ hgone
          · exact hkicks other' hin' ((hsame other').mpr htarget')
      · rw [kickAll_of_other htarget]
        obtain ⟨hsent, hkeeps, hkicks⟩ := ih hrest fun other' hin' =>
          hmay other' (List.mem_cons_of_mem _ hin')
        refine ⟨hsent, hkeeps, fun other' hin' htarget' => ?_⟩
        rcases List.mem_cons.mp hin' with rfl | hin'
        · exact absurd htarget' htarget
        · exact hkicks other' hin' htarget'

/-- A session that may not be kicked ends the loop with an error. -/
theorem kickAll_refuses (sid : SessionId) (htable : ∀ other ∈ others, other ∈ s.sessionTable)
    (hnot : ∃ other ∈ others, IsTarget s target other ∧
      canModerate (s.sessions sid).role (s.sessions other).role = false) :
    ∃ added, (s.kickAll sid target others).sent = s.sent ++ added ∧
      (sid, .serverError .permissionDenied "Cannot kick a user with equal or higher role") ∈
        added := by
  induction others generalizing s with
  | nil =>
      obtain ⟨other, hin, _⟩ := hnot
      cases hin
  | cons other rest ih =>
      have hrest : ∀ other ∈ rest, other ∈ s.sessionTable :=
        fun other' hin => htable other' (List.mem_cons_of_mem _ hin)
      by_cases htarget : IsTarget s target other
      · cases hmay : canModerate (s.sessions sid).role (s.sessions other).role with
        | false =>
            rw [kickAll_of_refused htarget hmay]
            exact ⟨_, rfl, List.mem_singleton_self _⟩
        | true =>
            have hin := htable other List.mem_cons_self
            rw [kickAll_of_kicked htarget hmay]
            obtain ⟨s', hs'⟩ : ∃ s', s' = (s.sendError other "You have been kicked from the server"
              .kicked).disconnect other := ⟨_, rfl⟩
            obtain ⟨htable', hsent'⟩ := disconnect_frame s other
            have hsession := session_disconnect hin
            rw [← hs'] at htable' hsent' ⊢
            simp only [← hs'] at hsession
            have hnot' : ∃ other' ∈ rest, IsTarget s' target other' ∧
                canModerate (s'.sessions sid).role (s'.sessions other').role = false := by
              obtain ⟨other', hin', htarget', hrefused⟩ := hnot
              rcases List.mem_cons.mp hin' with rfl | hin'
              · rw [hmay] at hrefused
                cases hrefused
              · refine ⟨other', hin', ?_, ?_⟩
                · unfold IsTarget
                  rw [(hsession other').1]
                  exact htarget'
                · rw [(hsession other').1, (hsession sid).1]
                  exact hrefused
            obtain ⟨added, hsent, hin'⟩ := ih (fun other' hin' => htable' ▸ hrest other' hin') hnot'
            refine ⟨(other, .serverError .kicked "You have been kicked from the server") :: added,
              ?_, List.mem_cons_of_mem _ hin'⟩
            rw [hsent, hsent', List.append_assoc, List.singleton_append]
      · rw [kickAll_of_other htarget]
        apply ih hrest
        obtain ⟨other', hin', htarget', hrefused⟩ := hnot
        rcases List.mem_cons.mp hin' with rfl | hin'
        · exact absurd htarget' htarget
        · exact ⟨other', hin', htarget', hrefused⟩

theorem reports_kickUser_iff (hauth : (c.server.sessions sid).authenticated = true)
    (hmay : hasPermission (c.server.sessions sid).role Permissions.KICK_FROM_SERVER none = true)
    (target : UserId) :
    let request := AdminRequest.kickUser (some target)
    Reports c (c.handleAdmin sid request) sid request ↔ c.Concerns sid request := by
  have hresult : c.server.adminKickUser sid target =
      (c.server.kickAll sid target c.server.sessionTable).sendTo sid
        (.adminResult "User kicked") := by
    rw [adminKickUser, hauth, hmay]
    rfl
  unfold handleAdmin Concerns session
  dsimp only
  rw [hresult]
  by_cases hall : ∀ other ∈ c.server.sessionTable, IsTarget c.server target other →
      canModerate (c.server.sessions sid).role (c.server.sessions other).role = true
  · obtain ⟨⟨added, hsent, hadded⟩, _, hkicked⟩ := kickAll_kicks (fun _ => id) hall
    refine (reports_result_iff (outcomes_sent hsent
      (fun m hm hsid => absurd hsid (hadded m hm)) rfl)).trans ?_
    constructor
    · exact fun happlied => ⟨happlied.1, fun other hin hid hauth' => hall other hin ⟨hid, hauth'⟩⟩
    · exact fun hcondition =>
        ⟨hcondition.1, fun other hin hid hauth' => hkicked other hin ⟨hid, hauth'⟩⟩
  · push Not at hall
    obtain ⟨other, hin, htarget, hrefused⟩ := hall
    obtain ⟨added, hsent, herror⟩ := kickAll_refuses sid (fun _ => id)
      ⟨other, hin, htarget, by simpa using hrefused⟩
    refine iff_of_false (fun hreports => ?_) fun hcondition => ?_
    · -- an error and a success
      have hone := hreports.one
      have hall : ((c.server.kickAll sid target c.server.sessionTable).sendTo sid
          (.adminResult "User kicked")).sent =
            c.server.sent ++ (added ++ [(sid, .adminResult "User kicked")]) := by
        rw [← List.append_assoc, ← hsent]
        rfl
      rw [outcomes_append hall, List.length_map, List.filter_append, List.length_append] at hone
      have hpos : 0 < (added.filter fun m => m.1 = sid && m.2.isOutcome).length := by
        apply List.length_pos_of_mem (List.mem_filter.mpr ⟨herror, ?_⟩)
        simp [ServerMessage.isOutcome]
      have hlast : ([(sid, ServerMessage.adminResult "User kicked")].filter fun m =>
          m.1 = sid && m.2.isOutcome).length = 1 := by
        simp [ServerMessage.isOutcome]
      omega
    · exact hrefused (hcondition.2 other hin htarget.1 htarget.2)

/-! ### Every request -/

theorem dropUnread_of_permitted {perm : Permissions} {code : ServerErrorCode}
    (hauth : (c.server.sessions sid).authenticated = true)
    (hmay : hasPermission (c.server.sessions sid).role perm none = true) :
    c.server.dropUnread sid perm code = c.server := by
  rw [dropUnread, hauth, hmay]
  rfl

/-- An admin request is reported as what it did, if and only if it is not carried out or it
concerns what is there. -/
theorem reports_iff (c : ChatServer) (sid : SessionId) (request : AdminRequest) :
    Reports c (c.handleAdmin sid request) sid request ↔
      (c.Permitted sid request → c.Concerns sid request) := by
  by_cases hpermitted : c.Permitted sid request
  · obtain ⟨hauth, hmay⟩ := id hpermitted
    rw [forall_prop_of_true hpermitted]
    have hunread : ∀ code, Reports c
        { c with server := c.server.dropUnread sid request.permission code } sid request := by
      intro code
      rw [dropUnread_of_permitted hauth hmay]
      exact reports_self c sid request
    cases request with
    | createChannel args dbOk =>
        rcases args with _ | ⟨name, maxUsers⟩
        · exact iff_of_true (hunread _) trivial
        · exact reports_createChannel_iff hauth hmay name maxUsers dbOk
    | deleteChannel args dbOk =>
        rcases args with _ | channel
        · exact iff_of_true (hunread _) trivial
        · exact reports_deleteChannel_iff hauth hmay channel dbOk
    | renameChannel args dbOk =>
        rcases args with _ | ⟨channel, newName⟩
        · exact iff_of_true (hunread _) trivial
        · exact reports_renameChannel_iff hauth hmay channel newName dbOk
    | setRole args dbOk =>
        rcases args with _ | ⟨target, newRole⟩
        · exact iff_of_true (hunread _) trivial
        · exact reports_setRole_iff hauth hmay target newRole dbOk
    | kickUser args =>
        rcases args with _ | target
        · exact iff_of_true (hunread _) trivial
        · exact reports_kickUser_iff hauth hmay target
    | createTextChannel args newId =>
        rcases args with _ | name
        · exact iff_of_true (hunread _) trivial
        · exact reports_createTextChannel_iff hauth hmay name newId
    | deleteTextChannel args dbOk =>
        rcases args with _ | channel
        · exact iff_of_true (hunread _) trivial
        · exact reports_deleteTextChannel_iff hauth hmay channel dbOk
  · refine iff_of_true ?_ fun hyes => absurd hyes hpermitted
    rcases handleAdmin_of_not_permitted hpermitted with hsame | ⟨code, hsame⟩
    · rw [hsame]
      exact reports_self c sid request
    · rw [hsame]
      exact reports_sendError c sid request _ code

/-- The root kicks a user that is not there, and is told that the user was kicked. -/
theorem not_reports : ¬ ∀ (c : ChatServer) (sid : SessionId) (request : AdminRequest),
    Reports c (c.handleAdmin sid request) sid request := by
  intro hall
  have hreports := hall { server := Server.run .small (.ticking 1) [.connect, login 1 0 1] } 1
    (.kickUser (some 2))
  have happlied := hreports.applied ⟨"User kicked", by decide +kernel⟩
  revert happlied
  unfold Applied
  decide +kernel

end ChatServer

end Parties

import Parties.Client.ChatReading
import Parties.Lib.Machine

/-!
# The chat between the server and one client

The chat part of the server, the client of one session, and the control stream between
them, in order in both directions. The session stays connected and logged in; what
else the server does with its sessions is left open, and every request brings the
server as it is then. Messages are retained: the purge of old ones tells nobody and is
not among the steps.

Which request a message answers is not on the wire. It is kept here only to state what
arrives where.

The parsers at the ends of the stream are not among the steps either: a message that fits them
comes out as it went in (`ControlFraming`), and whether a reply does is decided where it is made
(`MessageSizes`). A reply over the limit of 1 MiB would make the client's parser lose its place in the
stream (`HistoryPaging`), so the runs here are those of a server whose replies stay below it.
-/

namespace Parties.Client

open Parties.Wire Parties.ChatServer

/-- The server without its chat tables, while the session `me` is logged in. -/
structure Connected (me : SessionId) (userId : UserId) where
  server : Server
  config : ChatConfig := {}
  listed : me ∈ server.sessionTable
  nodup : server.sessionTable.Nodup
  authenticated : (server.sessions me).authenticated = true
  user : (server.sessions me).userId = userId
  /-- A login of a user ends the sessions it had before. -/
  alone : ∀ sid ∈ server.sessionTable, (server.sessions sid).authenticated = true →
    (server.sessions sid).userId = userId → sid = me
  namesFit : ∀ sid, TextFits (server.sessions sid).username.toUTF8.toList

/-- What a request takes from the system. -/
structure ChatEnv where
  now : BitVec 64 := 0
  month : Bytes := []
  messageOk : Bool := true
  attachmentOk : Nat → Bool := fun _ => true
  /-- The statement behind a pin or a deletion. -/
  updateOk : Bool := true

/-- The chat requests among the control messages of a client. -/
def readRequest (env : ChatEnv) (message : Wire.ControlMessage) : Option ChatRequest :=
  if message.type = ChatClient.CHAT_SEND then
    some (.chatSend message.payload env.now env.month env.messageOk env.attachmentOk)
  else if message.type = ChatClient.CHAT_HISTORY_REQ then some (.chatHistoryReq message.payload)
  else if message.type = ChatClient.CHAT_PIN then some (.chatPin message.payload env.updateOk)
  else if message.type = ChatClient.CHAT_UNPIN then some (.chatUnpin message.payload env.updateOk)
  else if message.type = ChatClient.CHAT_DELETE then some (.chatDelete message.payload env.updateOk)
  else none

/-- A control message to the server, and the contents of the files it announces. -/
structure SentRequest where
  message : Wire.ControlMessage
  files : List Bytes := []
deriving DecidableEq, Repr

/-- A message to the client. -/
structure SentReply where
  cause : ChatRequest
  /-- The files of the `CHAT_SEND` of this client that it answers. -/
  answers : Option (List Bytes) := none
  reply : ChatReply

/-- What the echo of a `CHAT_SEND` announces: the ids of the attachments, and the files that
were attached. -/
structure Echo where
  ids : List (BitVec 64)
  files : List Bytes
deriving DecidableEq, Repr

def SentReply.echo (r : SentReply) : Option Echo :=
  match r.answers, r.reply with
  | some files, .chatMessage m => some ⟨m.attachments.map ChatAttachment.id, files⟩
  | _, _ => none

structure ChatHop where
  db : ChatDatabase
  client : ChatClient
  requests : List SentRequest := []
  replies : List SentReply := []
  /-- The files handed to the transport, oldest first. -/
  uploads : List Upload := []
  /-- The echoes that arrived, oldest first. -/
  echoes : List Echo := []

inductive ChatOp (me : SessionId) (userId : UserId) where
  -- the server
  | requestArrives (at' : Connected me userId) (env : ChatEnv)
  | otherRequest (at' : Connected me userId) (sid : SessionId) (request : ChatRequest)
  | setTextChannels (rows : List TextChannelRow)
  | attachmentUploaded (id : BitVec 64)
  -- the client
  | deliver
  | fileReady (payload : Bytes)
  | selectChannel (channel : BitVec 32)
  | joinChannel
  | loadMoreHistory
  | sendMessage (composeText : Bytes) (pendingFiles : List PendingFile)
  | pinMessage (id : BitVec 64)
  | unpinMessage (id : BitVec 64)
  | deleteMessage (id : BitVec 64)

namespace ChatHop

variable {me : SessionId} {userId : UserId}

/-- A connection of a user to a server with these tables. -/
def new (db : ChatDatabase) (userId : UserId) : ChatHop := { db, client := { userId } }

/-- The chat server at a moment of the run. -/
def chatServer (h : ChatHop) (at' : Connected me userId) : ChatServer where
  server := at'.server
  config := at'.config
  db := h.db

/-- What a handler has sent to one session. -/
def sentTo (me : SessionId) (sent : List (SessionId × ChatReply)) : List ChatReply :=
  (sent.filter fun s => s.1 = me).map Prod.snd

/-- The server handles a request, and what it sends to the client goes on its way. -/
def serve (h : ChatHop) (at' : Connected me userId) (sid : SessionId) (request : ChatRequest)
    (answers : Option (List Bytes)) : ChatHop :=
  let outcome := (h.chatServer at').handle sid request
  { h with
    db := outcome.1
    replies := h.replies ++ (sentTo me outcome.2).map fun reply => ⟨request, answers, reply⟩ }

def requestArrives (h : ChatHop) (at' : Connected me userId) (env : ChatEnv) : ChatHop :=
  match h.requests with
  | [] => h
  | sent :: requests =>
    let h := { h with requests := requests }
    match readRequest env sent.message with
    | none => h
    | some request => h.serve at' me request
        (if sent.message.type = ChatClient.CHAT_SEND then some sent.files else none)

def deliver (h : ChatHop) : ChatHop :=
  match h.replies with
  | [] => h
  | sent :: replies =>
    let (client, uploads) := h.client.handleServerMessage sent.reply.encode
    { h with
      client
      replies
      uploads := h.uploads ++ uploads
      echoes := h.echoes ++ sent.echo.toList }

/-- Replace the client and send its requests. -/
def withClient (h : ChatHop) (out : ChatClient × List Wire.ControlMessage)
    (files : List Bytes) : ChatHop :=
  { h with
    client := out.1
    requests := h.requests ++ out.2.map fun message => ⟨message, files⟩ }

def send (h : ChatHop) (message : Wire.ControlMessage) : ChatHop :=
  h.withClient (h.client, [message]) []

/-- The contents of the attached files that could be read. -/
def contents (pendingFiles : List PendingFile) : List Bytes :=
  (pendingFiles.filterMap PendingFile.read).map PendingUpload.data

def step (h : ChatHop) : ChatOp me userId → ChatHop
  | .requestArrives at' env => h.requestArrives at' env
  | .otherRequest at' sid request => if sid = me then h else h.serve at' sid request none
  | .setTextChannels rows => { h with db := { h.db with textChannels := rows } }
  | .attachmentUploaded id => { h with db := h.db.markAttachmentUploaded id }
  | .deliver => h.deliver
  | .fileReady payload => { h with client := h.client.onChatFileReady payload }
  | .selectChannel channel => h.withClient (h.client.selectChannel channel) []
  | .joinChannel => { h with client := h.client.joinChannel }
  | .loadMoreHistory => h.withClient (h.client, h.client.loadMoreHistory) []
  | .sendMessage composeText pendingFiles =>
    h.withClient (h.client.sendMessage composeText pendingFiles) (contents pendingFiles)
  | .pinMessage id => h.send (ChatClient.pinMessage id)
  | .unpinMessage id => h.send (ChatClient.unpinMessage id)
  | .deleteMessage id => h.send (ChatClient.deleteMessage id)

/-- The state after a run of a new connection. -/
def run (db : ChatDatabase) (ops : List (ChatOp me userId)) : ChatHop :=
  Machine.run step (new db userId) ops

/-! ### What reaches the client -/

theorem sentTo_broadcast (h : ChatHop) (at' : Connected me userId) (message : ChatReply) :
    sentTo me ((h.chatServer at').broadcast message) = [message] := by
  have hmem : me ∈ at'.server.sessionTable.filter fun sid =>
      (at'.server.sessions sid).authenticated :=
    List.mem_filter.mpr ⟨at'.listed, at'.authenticated⟩
  have hone : (at'.server.sessionTable.filter fun sid =>
      (at'.server.sessions sid).authenticated).filter (fun sid => sid = me) = [me] := by
    rw [List.filter_eq, List.count_eq_one_of_mem (at'.nodup.filter _) hmem]
    rfl
  show ((((at'.server.sessionTable.filter _).map (·, message)).filter _).map Prod.snd) = _
  rw [List.filter_map, List.map_map]
  exact congrArg (List.map _) hone

theorem sentTo_reply (c : ChatServer) (sid : SessionId) (message : ChatReply) :
    sentTo me (c.reply sid message).2 = if sid = me then [message] else [] := by
  by_cases hsid : sid = me <;> simp [sentTo, reply, hsid]

@[simp] theorem sentTo_ignore (c : ChatServer) : sentTo me c.ignore.2 = [] := rfl

/-- A handler sends a session one message at most. -/
theorem length_sentTo_handle (h : ChatHop) (at' : Connected me userId) (sid : SessionId)
    (request : ChatRequest) :
    (sentTo me ((h.chatServer at').handle sid request).2).length ≤ 1 := by
  have hhandles := (h.chatServer at').handle_handles sid request
  generalize (h.chatServer at').handle sid request = outcome at hhandles
  cases hhandles with
  | ignored => exact Nat.zero_le 1
  | refused | history | pinnedList | searched | channels | users =>
      rw [sentTo_reply]
      split
      · exact le_rfl
      · exact Nat.zero_le 1
  | stored | pinned | unpinned | deleted =>
      rw [sentTo_broadcast]
      exact le_rfl

/-- A request that arrives alone is answered by one message at most. -/
theorem requestArrives_quiet {h : ChatHop} (hrequests : h.requests.length ≤ 1)
    (hreplies : h.replies = []) (at' : Connected me userId) (env : ChatEnv) :
    (h.requestArrives at' env).requests = [] ∧ (h.requestArrives at' env).replies.length ≤ 1 := by
  have hnone : h.replies.length ≤ 1 := by
    rw [hreplies]
    exact Nat.zero_le 1
  rw [requestArrives]
  split
  next hempty => exact ⟨hempty, hnone⟩
  next sent requests hsent =>
    have hlast : requests = [] := by
      rw [hsent, List.length_cons] at hrequests
      exact List.length_eq_zero_iff.mp (by omega)
    dsimp only
    split
    · exact ⟨hlast, hnone⟩
    · refine ⟨hlast, ?_⟩
      rw [serve, hreplies, List.nil_append, List.length_map]
      exact length_sentTo_handle _ at' me _

/-- The last message that is under way, delivered. -/
theorem deliver_quiet {h : ChatHop} (hreplies : h.replies.length ≤ 1) :
    h.deliver.replies = [] ∧ h.deliver.requests = h.requests := by
  rw [deliver]
  split
  next hempty => exact ⟨hempty, rfl⟩
  next r replies hcons =>
    rw [hcons, List.length_cons] at hreplies
    have hlast : replies = [] := List.length_eq_zero_iff.mp (by omega)
    exact ⟨hlast, rfl⟩

end ChatHop

end Parties.Client

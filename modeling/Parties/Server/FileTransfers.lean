import Parties.Lib.EventLog
import Parties.Server.FileRetention
import Parties.Wire.Serialization

/-!
# File transfers

Mirror of the streams that carry the files of attachments: `NetClient::upload_file`,
`NetClient::download_file` and `s_file_stream_cb` (`client/src/net_client_msquic.cpp`),
`QuicServer::on_file_stream_event` and `send_file_on_stream` (`server/src/quic_server.cpp`), and
`Server::process_file_transfers` (`server/src/server.cpp`).

A stream hands over what was written to it in pieces of any length and its end behind the last
byte, all streams at once and at any time. The main loop takes the completed uploads and then the
requests one at a time; what it does with the tables in between is in `FileOp`. A client may write
anything to a stream it opens.

The server does not look at whether a file was written whole, so what an upload leaves on the disk
may be its front. Nor does it look at whether the stream of a request that waits in the queue has
been closed meanwhile: it sends over the handle it has noted, and a handle that was given back may
have been handed out again. Whose it is by then is up to the transport.
-/

namespace Parties

open ByteStream Wire

/-! ### The client -/

def STREAM_TYPE_FILE_UPLOAD : UInt8 := 0x10

def STREAM_TYPE_FILE_DOWNLOAD : UInt8 := 0x11

/-- What one `QUIC_BUFFER` sends: its length has 32 bits. -/
def quicBuffer (bytes : Bytes) : Bytes := bytes.take (bytes.length % 2 ^ 32)

/-- What `upload_file` writes. -/
def uploadFile (attachmentId : BitVec 64) (data : Bytes) : Bytes :=
  quicBuffer (STREAM_TYPE_FILE_UPLOAD :: (writeU64 attachmentId ++ data))

/-- What `download_file` writes. -/
def downloadFile (attachmentId : BitVec 64) : Bytes :=
  quicBuffer (STREAM_TYPE_FILE_DOWNLOAD :: writeU64 attachmentId)

/-- What the client keeps of a stream. -/
structure FileStreamCtx where
  attachmentId : BitVec 64
  isUpload : Bool
  recvData : Bytes := []
deriving DecidableEq, Repr

/-! ### The server -/

/-- What the server keeps of a stream. -/
structure FileStreamContext where
  sessionId : SessionId
  buffer : Bytes := []
  headerParsed : Bool := false
  streamType : UInt8 := 0
  attachmentId : BitVec 64 := 0
deriving DecidableEq, Repr

/-- The header is a type and an id, nine bytes. -/
def FileStreamContext.receive (ctx : FileStreamContext) (data : Bytes) : FileStreamContext :=
  let buffer := ctx.buffer ++ data
  if !ctx.headerParsed && 9 ≤ buffer.length then
    { ctx with
      streamType := buffer.headD 0
      attachmentId := BitVec.ofNat 64 (readLe ((buffer.drop 1).take 8))
      headerParsed := true
      buffer := buffer.drop 9 }
  else { ctx with buffer }

structure FileUploadEvent where
  sessionId : SessionId
  attachmentId : BitVec 64
  data : Bytes
deriving DecidableEq, Repr

structure FileDownloadRequest where
  sessionId : SessionId
  attachmentId : BitVec 64
  /-- Its place among the streams. -/
  stream : Nat
deriving DecidableEq, Repr

/-- A bidirectional stream with both its ends. -/
structure FileStream where
  client : FileStreamCtx
  server : FileStreamContext
  /-- Written by the client and still under way. -/
  inbound : Bytes
  inboundEnded : Bool := false
  /-- Written by the server and still under way. -/
  outbound : Option Bytes := none
  outboundEnded : Bool := false
  /-- Aborted by one side, or gone with its connection. -/
  aborted : Bool := false
  /-- Closed by the server, whose handle of it has become void. -/
  closed : Bool := false
deriving DecidableEq, Repr

namespace FileServer

/-- The upload's row and the author of its message, if its bytes are to be written. -/
def uploadRow (s : FileServer) (maxFileSize : Int) (ev : FileUpload) :
    Option (AttachmentRow × UserId) :=
  match ev.sender, s.db.getAttachment ev.attachmentId with
  | some user, some att =>
    if att.uploaded then none
    else match s.db.getMessage att.messageId with
      | none => none
      | some owner =>
        if owner.senderId ≠ user then none
        else if maxFileSize < ev.data.length then none
        else if !ev.openOk then none
        else some (att, owner.senderId)
  | _, _ => none

theorem processUpload_eq (s : FileServer) (maxFileSize : Int) (ev : FileUpload) :
    s.processUpload maxFileSize ev = match s.uploadRow maxFileSize ev with
      | none => s
      | some (att, _) =>
        if ev.markOk then { s.writeFile att.diskPath ev.onDisk with
          db := s.db.markAttachmentUploaded ev.attachmentId }
        else s.writeFile att.diskPath ev.onDisk := by
  unfold processUpload uploadRow
  cases ev.sender with
  | none => rfl
  | some user =>
    cases s.db.getAttachment ev.attachmentId with
    | none => rfl
    | some att =>
      cases huploaded : att.uploaded with
      | true => simp only [huploaded, if_true]
      | false =>
        simp only [huploaded, Bool.false_eq_true, if_false]
        cases s.db.getMessage att.messageId with
        | none => rfl
        | some owner =>
          by_cases hauthor : owner.senderId = user
          · by_cases hsize : maxFileSize < ev.data.length
            · simp only [hauthor, hsize, ne_eq, not_true_eq_false, if_false, if_true]
            · cases hopen : ev.openOk <;>
                simp only [hauthor, hsize, ne_eq, not_true_eq_false, Bool.not_true, Bool.not_false,
                  Bool.false_eq_true, if_false, if_true]
              rfl
          · simp only [hauthor, ne_eq, not_false_eq_true, if_true]

/-- The bytes of an attachment, as a request for it finds them. -/
def readFile (s : FileServer) (attachmentId : BitVec 64) : Option Bytes :=
  match s.db.getAttachment attachmentId with
  | none => none
  | some att =>
    if !att.uploaded then none
    else (s.disk.find? fun f => f.path = att.diskPath).map StoredFile.data

end FileServer

/-- What happens, in order. -/
inductive TransferEvent where
  /-- Who is in a session from now on. -/
  | session (sid : SessionId) (user : Option UserId)
  | opened (stream : Nat) (sid : SessionId) (client : FileStreamCtx) (bytes : Bytes)
  /-- `data` goes to the disk, or what is in front of `failsAt`. -/
  | written (attachmentId : BitVec 64) (sid : SessionId) (author : UserId) (data : Bytes)
      (failsAt : Option Nat)
  | served (stream : Nat) (attachmentId : BitVec 64) (data : Bytes)
  /-- `on_file_downloaded`. -/
  | downloaded (stream : Nat) (attachmentId : BitVec 64) (data : Bytes)
deriving DecidableEq, Repr

structure FileTransfers where
  files : FileServer
  maxFileSize : Int
  /-- The user of a session that is there and authenticated. -/
  users : SessionId → Option UserId := fun _ => none
  streams : List FileStream := []
  fileUploads : List FileUploadEvent := []
  fileDownloads : List FileDownloadRequest := []
  /-- What the main loop has drained and not worked off. -/
  uploads : List FileUploadEvent := []
  downloads : List FileDownloadRequest := []

inductive TransferOp where
  | session (sid : SessionId) (user : Option UserId)
  | openStream (sid : SessionId) (attachmentId : BitVec 64) (isUpload : Bool) (bytes : Bytes)
  /-- The server receives the next bytes of a stream. -/
  | receive (stream count : Nat)
  | peerSendShutdown (stream : Nat)
  | abort (stream : Nat)
  /-- `SHUTDOWN_COMPLETE` at the server, behind which the stream is closed. -/
  | shutdownComplete (stream : Nat)
  /-- The client receives the next bytes of a stream. -/
  | clientReceive (stream count : Nat)
  | clientPeerSendShutdown (stream : Nat)
  | drainUploads
  | processUpload (openOk markOk : Bool) (failsAt : Option Nat)
  | drainDownloads
  /-- `reused` is the stream that has the handle of a closed one. -/
  | processDownload (reused : Option Nat)
  /-- Anything else that is done to the tables and the files. -/
  | table (op : FileOp)

def FileOp.isUpload : FileOp → Bool
  | .upload _ _ => true
  | _ => false

namespace FileTransfers

/-- An event of a stream that is not aborted. -/
def onStream (s : FileTransfers) (stream : Nat)
    (event : FileStream → FileTransfers × List TransferEvent) : FileTransfers × List TransferEvent :=
  match s.streams[stream]? with
  | none => (s, [])
  | some st => if st.aborted then (s, []) else event st

def setStream (s : FileTransfers) (stream : Nat) (st : FileStream) : FileTransfers :=
  { s with streams := s.streams.set stream st }

/-- `on_file_stream_event` with `PEER_SEND_SHUTDOWN`. -/
def onPeerSendShutdown (s : FileTransfers) (stream : Nat) (ctx : FileStreamContext) : FileTransfers :=
  if !ctx.headerParsed then s
  else if ctx.streamType = STREAM_TYPE_FILE_UPLOAD then
    { s with fileUploads := s.fileUploads ++ [⟨ctx.sessionId, ctx.attachmentId, ctx.buffer⟩] }
  else if ctx.streamType = STREAM_TYPE_FILE_DOWNLOAD then
    { s with fileDownloads := s.fileDownloads ++ [⟨ctx.sessionId, ctx.attachmentId, stream⟩] }
  else s

/-- The end of the stream goes out with the bytes, so nothing goes out twice. -/
def sendFileOnStream (s : FileTransfers) (stream : Nat) (attachmentId : BitVec 64) (data : Bytes) :
    FileTransfers × List TransferEvent :=
  s.onStream stream fun st =>
    if st.outbound.isSome then (s, [])
    else (s.setStream stream { st with outbound := some (quicBuffer data) },
      [.served stream attachmentId data])

def processUpload (s : FileTransfers) (openOk markOk : Bool) (failsAt : Option Nat) :
    FileTransfers × List TransferEvent :=
  match s.uploads with
  | [] => (s, [])
  | ev :: rest =>
    let upload : FileUpload :=
      { sender := s.users ev.sessionId, attachmentId := ev.attachmentId, data := ev.data, openOk,
        failsAt, markOk }
    ({ s with uploads := rest, files := s.files.processUpload s.maxFileSize upload },
      match s.files.uploadRow s.maxFileSize upload with
      | none => []
      | some (_, author) => [.written ev.attachmentId ev.sessionId author ev.data failsAt])

def isClosed (s : FileTransfers) (stream : Nat) : Bool := s.streams[stream]?.any (·.closed)

/-- The stream behind the handle of a request. -/
def streamOf (s : FileTransfers) (req : FileDownloadRequest) (reused : Option Nat) : Option Nat :=
  if s.isClosed req.stream then reused else some req.stream

def processDownload (s : FileTransfers) (reused : Option Nat) :
    FileTransfers × List TransferEvent :=
  match s.downloads with
  | [] => (s, [])
  | req :: rest =>
    let s := { s with downloads := rest }
    match s.users req.sessionId, s.files.readFile req.attachmentId, s.streamOf req reused with
    | some _, some data, some stream => s.sendFileOnStream stream req.attachmentId data
    | _, _, _ => (s, [])

def step (s : FileTransfers) : TransferOp → FileTransfers × List TransferEvent
  | .session sid user => ({ s with users := Function.update s.users sid user }, [.session sid user])
  | .openStream sid attachmentId isUpload bytes =>
    ({ s with streams := s.streams ++
        [{ client := { attachmentId, isUpload }, server := { sessionId := sid }, inbound := bytes }] },
      [.opened s.streams.length sid { attachmentId, isUpload } bytes])
  | .receive stream count => s.onStream stream fun st =>
    (s.setStream stream { st with server := st.server.receive (st.inbound.take count),
                                  inbound := st.inbound.drop count }, [])
  | .peerSendShutdown stream => s.onStream stream fun st =>
    if st.inbound = [] ∧ st.inboundEnded = false then
      ((s.setStream stream { st with inboundEnded := true }).onPeerSendShutdown stream st.server, [])
    else (s, [])
  | .abort stream => s.onStream stream fun st => (s.setStream stream { st with aborted := true }, [])
  | .shutdownComplete stream =>
    match s.streams[stream]? with
    | none => (s, [])
    | some st =>
      if st.aborted || st.inboundEnded && st.outboundEnded then
        (s.setStream stream { st with closed := true }, [])
      else (s, [])
  | .clientReceive stream count => s.onStream stream fun st =>
    (s.setStream stream { st with
      client := { st.client with
        recvData := st.client.recvData ++ (st.outbound.getD []).take count }
      outbound := st.outbound.map (List.drop count) }, [])
  | .clientPeerSendShutdown stream => s.onStream stream fun st =>
    if st.outbound = some [] ∧ st.outboundEnded = false then
      (s.setStream stream { st with outboundEnded := true },
        if st.client.isUpload then []
        else [.downloaded stream st.client.attachmentId st.client.recvData])
    else (s, [])
  | .drainUploads =>
    if s.uploads = [] ∧ s.downloads = [] then
      ({ s with uploads := s.fileUploads, fileUploads := [] }, [])
    else (s, [])
  | .processUpload openOk markOk failsAt => s.processUpload openOk markOk failsAt
  | .drainDownloads =>
    if s.uploads = [] ∧ s.downloads = [] then
      ({ s with downloads := s.fileDownloads, fileDownloads := [] }, [])
    else (s, [])
  | .processDownload reused => s.processDownload reused
  | .table op =>
    -- the main loop does nothing else in the middle of the transfers
    if s.uploads = [] ∧ s.downloads = [] ∧ op.isUpload = false then
      ({ s with files := s.files.step op }, [])
    else (s, [])

/-- No request is worked off behind the close of its stream. -/
def InTime (s : FileTransfers) : TransferOp → Prop
  | .processDownload _ => ∀ req ∈ s.downloads.head?, s.isClosed req.stream = false
  | _ => True

instance (s : FileTransfers) : (op : TransferOp) → Decidable (s.InTime op)
  | .processDownload _ => inferInstanceAs (Decidable (∀ req ∈ s.downloads.head?, _ = false))
  | .session .. | .openStream .. | .receive .. | .peerSendShutdown .. | .abort .. |
    .shutdownComplete .. | .clientReceive .. | .clientPeerSendShutdown .. | .drainUploads |
    .processUpload .. | .drainDownloads | .table .. => isTrue trivial

def run (table : FileTable) (maxFileSize : Int) (ops : List TransferOp) :
    FileTransfers × List TransferEvent :=
  Machine.run (Machine.logged step) ({ files := table.toFileServer, maxFileSize }, []) ops

end FileTransfers

end Parties

import Mathlib.Data.List.Sort
import Parties.Types

/-!
# The chat part of the database

Mirror of the tables of text channels, messages and attachments
(`server/src/database.cpp`) and of the statements on them. Rows stand in the order
they were inserted in. Ids are numbers of 64 bits with sign, as SQLite compares
them. A string is bound up to its first zero byte.
-/

namespace Parties

structure TextChannelRow where
  id : BitVec 32
  name : Bytes
  sortOrder : BitVec 32 := 0
deriving DecidableEq, Repr

structure MessageRow where
  id : BitVec 64
  channelId : BitVec 32
  senderId : BitVec 32
  senderName : Bytes
  text : Bytes
  pinned : Bool := false
  createdAt : BitVec 64 := 0
deriving DecidableEq, Repr

/-- A row of `messages`. -/
structure StoredMessage extends MessageRow where
  deleted : Bool := false
deriving DecidableEq, Repr

structure AttachmentRow where
  id : BitVec 64
  messageId : BitVec 64
  fileName : Bytes
  fileSize : BitVec 64
  mimeType : Bytes
  diskPath : Bytes
  uploaded : Bool := false
deriving DecidableEq, Repr

structure ChatDatabase where
  textChannels : List TextChannelRow := []
  messages : List StoredMessage := []
  fileAttachments : List AttachmentRow := []
  /-- The largest row ids given out so far (`AUTOINCREMENT`). -/
  lastMessageId : Nat := 0
  lastAttachmentId : Nat := 0
deriving DecidableEq, Repr

/-- `sqlite3_bind_text` with a length of -1. -/
def bindText (str : Bytes) : Bytes := str.takeWhile (· ≠ 0)

/-- `ORDER BY id DESC`. -/
def newestFirst (rows : List StoredMessage) : List StoredMessage :=
  rows.insertionSort fun a b => b.id.toInt ≤ a.id.toInt

namespace ChatDatabase

/-! ### Text channels -/

def getTextChannel (db : ChatDatabase) (id : BitVec 32) : Option TextChannelRow :=
  db.textChannels.find? fun channel => channel.id = id

/-- The messages of the channel go with it, and their attachments (`ON DELETE CASCADE`). -/
def deleteTextChannel (db : ChatDatabase) (id : BitVec 32) : ChatDatabase :=
  { db with
    textChannels := db.textChannels.filter fun channel => channel.id ≠ id
    messages := db.messages.filter fun m => m.channelId ≠ id
    fileAttachments := db.fileAttachments.filter fun a =>
      !db.messages.any fun m => m.channelId = id && m.id = a.messageId }

/-! ### Messages -/

/-- The id of the new row; none when the statement fails. -/
def insertMessage (db : ChatDatabase) (channel sender : BitVec 32) (senderName text : Bytes)
    (timestamp : BitVec 64) (ok : Bool) : Option (BitVec 64 × ChatDatabase) :=
  let id := db.lastMessageId + 1
  if !ok || 2 ^ 63 ≤ id then none
  else some (BitVec.ofNat 64 id, { db with
    lastMessageId := id
    messages := db.messages ++ [{
      id := BitVec.ofNat 64 id
      channelId := channel
      senderId := sender
      senderName := bindText senderName
      text := bindText text
      createdAt := timestamp }] })

/-- The rows of a channel that are not deleted, before an id unless it is zero. -/
def inPage (channel : BitVec 32) (before : BitVec 64) (m : StoredMessage) : Bool :=
  m.channelId = channel && !m.deleted && (before = 0 || decide (m.id.toInt < before.toInt))

/-- The newest rows of a page, oldest first. -/
def getMessages (db : ChatDatabase) (channel : BitVec 32) (before : BitVec 64) (limit : Nat) :
    List MessageRow :=
  (((newestFirst (db.messages.filter (inPage channel before))).take limit).map
    StoredMessage.toMessageRow).reverse

def getMessage (db : ChatDatabase) (id : BitVec 64) : Option MessageRow :=
  (db.messages.find? fun m => m.id = id && !m.deleted).map StoredMessage.toMessageRow

def updateMessage (db : ChatDatabase) (picks : StoredMessage → Bool)
    (f : StoredMessage → StoredMessage) : ChatDatabase :=
  { db with messages := db.messages.map fun m => if picks m then f m else m }

theorem updateMessage_never (db : ChatDatabase) (f : StoredMessage → StoredMessage) :
    db.updateMessage (fun _ => false) f = db := by
  simp [updateMessage]

def softDeleteMessage (db : ChatDatabase) (id : BitVec 64) : ChatDatabase :=
  db.updateMessage (fun m => m.id = id) fun m => { m with deleted := true }

def pinMessage (db : ChatDatabase) (id : BitVec 64) : ChatDatabase :=
  db.updateMessage (fun m => m.id = id && !m.deleted) fun m => { m with pinned := true }

def unpinMessage (db : ChatDatabase) (id : BitVec 64) : ChatDatabase :=
  db.updateMessage (fun m => m.id = id) fun m => { m with pinned := false }

/-- `cutoff` is the time before which messages are too old. -/
def purgeOldMessages (db : ChatDatabase) (cutoff : Int) : ChatDatabase :=
  db.updateMessage (fun m => !m.deleted && decide (m.createdAt.toInt < cutoff)) fun m =>
    { m with deleted := true }

def getPinnedMessages (db : ChatDatabase) (channel : BitVec 32) : List MessageRow :=
  (newestFirst (db.messages.filter fun m => m.channelId = channel && m.pinned && !m.deleted)).map
    StoredMessage.toMessageRow

/-- `ftsMatch` is the full-text index: does the query match the text? -/
def searchMessages (db : ChatDatabase) (ftsMatch : Bytes → Bytes → Bool) (channel : BitVec 32)
    (query : Bytes) (before : BitVec 64) (limit : Nat) : List MessageRow :=
  ((newestFirst (db.messages.filter fun m =>
    inPage channel before m && ftsMatch (bindText query) m.text)).take limit).map
    StoredMessage.toMessageRow

/-! ### Attachments -/

/-- The id of the new row; zero when the statement fails. -/
def insertAttachment (db : ChatDatabase) (messageId : BitVec 64) (fileName : Bytes)
    (fileSize : BitVec 64) (mimeType diskPath : Bytes) (ok : Bool) : BitVec 64 × ChatDatabase :=
  let id := db.lastAttachmentId + 1
  if !ok || 2 ^ 63 ≤ id then (0, db)
  else (BitVec.ofNat 64 id, { db with
    lastAttachmentId := id
    fileAttachments := db.fileAttachments ++ [{
      id := BitVec.ofNat 64 id
      messageId := messageId
      fileName := bindText fileName
      fileSize := fileSize
      mimeType := bindText mimeType
      diskPath := bindText diskPath }] })

def markAttachmentUploaded (db : ChatDatabase) (id : BitVec 64) : ChatDatabase :=
  { db with fileAttachments := db.fileAttachments.map fun a =>
      if a.id = id then { a with uploaded := true } else a }

/-- The files that retention picks. -/
def purgeFiles (db : ChatDatabase) (picks : AttachmentRow → Bool) : ChatDatabase :=
  { db with fileAttachments := db.fileAttachments.filter fun a => !picks a }

def getAttachmentsForMessage (db : ChatDatabase) (messageId : BitVec 64) : List AttachmentRow :=
  (db.fileAttachments.filter fun a => a.messageId = messageId).insertionSort fun a b =>
    a.id.toInt ≤ b.id.toInt

end ChatDatabase

end Parties

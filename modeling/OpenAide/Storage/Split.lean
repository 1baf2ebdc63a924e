import OpenAide.Protocol.Json
import OpenAide.Storage.Frame
import OpenAide.Storage.Projection

/-!
# The split Task store

`storage/task_journal/split.rs`: a Task on disk is `task.json`, the Chat snapshot it names and the
Chat journal it names.  A commit appends one Chat frame and then replaces `task.json`; recovery
reads all three back and applies the frames `task.json` does not know yet.

serde_json is a parameter (`Serde`): how each durable value is written, and its documented round
trips.  A file name is `FileName` instead of a string, a UUID a number that has not been used
before.  Asking whether a file exists always has an answer here (`Path::is_file` says no when it
cannot tell).  Removing image files that nothing references, the last step of a compaction, touches
no file of the split store and is left out.
-/

namespace OpenAide

open Library

/-! ## The files of a Task -/

/-- The names of the files in a Subagent's directory `subagents/subagent_{uuid}`. -/
inductive StreamFile where
  /-- `stream.json` -/
  | head
  | snapshot (generation : Nat)
  | journal (generation : Nat)
  /-- `history.snapshot` and `history.journal`, the files of the older format. -/
  | historySnapshot
  | historyJournal
  deriving DecidableEq

/-- The names of the files in a Task's directory.  The first generation of Chat files has no
identifier in its name. -/
inductive FileName where
  /-- `task.json` -/
  | task
  | chatSnapshot (generation : Option Nat)
  | chatJournal (generation : Option Nat)
  /-- `.{name}.{uuid}` -/
  | temporary (id : Nat)
  /-- `storage.quarantined` -/
  | status
  /-- `artifacts/{artifact_id}.journal` -/
  | artifact (artifactId : String)
  /-- `images/{sha256}` -/
  | image (imageId : String)
  /-- `subagents/catalog.json` -/
  | subagentCatalog
  | subagent (subagentId : Nat) (file : StreamFile)
  deriving DecidableEq

namespace FileName

/-- The identifier a name was made from. -/
def id? : FileName → Option Nat
  | chatSnapshot generation => generation
  | chatJournal generation => generation
  | temporary id => some id
  | subagent _ (.snapshot generation) => some generation
  | subagent _ (.journal generation) => some generation
  | subagent subagentId .head => some subagentId
  | _ => none

def isTemporary : FileName → Bool
  | temporary _ => true
  | _ => false

end FileName

structure Path where
  task : String
  file : FileName
  deriving DecidableEq

abbrev Disk := FileSystem Path

abbrev DiskProg (α : Type) := FileProg Path RuntimeError α

/-- The text of an I/O error. -/
def ioErrorText : IoErrorKind → String
  | .notFound => "entity not found"
  | .permissionDenied => "permission denied"
  | .alreadyExists => "entity already exists"
  | .invalidInput => "invalid input parameter"
  | .invalidData => "invalid data"
  | .timedOut => "timed out"
  | .writeZero => "write zero"
  | .unexpectedEof => "unexpected end of file"
  | .outOfMemory => "out of memory"
  | .unsupported => "unsupported"
  | .other => "other error"

/-- `From<std::io::Error> for RuntimeError`. -/
def ioFailure (kind : IoErrorKind) : RuntimeError := .storage (ioErrorText kind)

/-! ## JSON values -/

namespace Json

def asU64 : Json → Option Nat
  | number n => if 0 ≤ n ∧ n < 2 ^ 64 then some n.toNat else none
  | _ => none

/-- `as_u64` and `u16::try_from`. -/
def asU16 (value : Json) : Option Nat := value.asU64.filter (· < 2 ^ 16)

/-- `value[key] = field` on an object. -/
def set (key : String) (field : Json) : Json → Json
  | object fields => object (Assoc.insert fields key field)
  | value => value

/-- The action a version 1 presentation of kind `search` becomes, one for each subject. -/
def searchAction (query : Json) : Json :=
  object [("kind", string "search"), ("query", query), ("scopes", array []),
    ("target", string "contents")]

/-- The actions of a version 1 presentation. -/
def presentationActions : Option Json → Option Json → Option Json
  | some (string "search"), some (array subjects) => some (array (subjects.map searchAction))
  | some kind, some subjects => some (array [object [("kind", kind), ("subjects", subjects)]])
  | _, _ => none

/-- The body of a presentation without actions. -/
def rewritePresentation : Json → Json
  | object fields =>
    if (fields.find? (·.1 = "actions")).isSome then object fields
    else
      let kind := get? "kind" (object fields)
      let subjects := get? "subjects" (object fields)
      let rest := fields.filter fun field => field.1 ≠ "kind" ∧ field.1 ≠ "subjects"
      match presentationActions kind subjects with
      | some actions => object (rest ++ [("actions", actions)])
      | none => object rest
  | value => value

-- The source rewrites a presentation before it visits the fields; visiting first is the same, for
-- a rewrite only moves values around and neither adds nor removes a `presentation` field.
mutual

/-- `migrate_v1_tool_presentations` (`split.rs:672`). -/
def migrateV1ToolPresentations : Json → Json
  | array items => array (migrateItems items)
  | object fields => object (migrateFields fields)
  | value => value

def migrateItems : List Json → List Json
  | [] => []
  | item :: rest => migrateV1ToolPresentations item :: migrateItems rest

def migrateFields : List (String × Json) → List (String × Json)
  | [] => []
  | (key, value) :: rest =>
    let migrated := migrateV1ToolPresentations value
    (key, if key = "presentation" then rewritePresentation migrated else migrated) ::
      migrateFields rest

end

end Json

/-! ## Durable values -/

def TASK_SCHEMA_VERSION : Nat := 1

def CHAT_SCHEMA_VERSION : Nat := 3

/-- `task.json` (`split.rs:27`). -/
structure DurableTaskFile where
  schemaVersion : Nat
  storageSequence : Nat
  chatSequence : Nat
  chatSnapshot : FileName
  chatJournal : FileName
  chatJournalBytes : Option Nat
  task : TaskRecord
  deriving DecidableEq

/-- `TaskMetadata`: `task.json` once its schema version is checked. -/
structure TaskMetadata where
  task : TaskRecord
  storageSequence : Nat
  chatSequence : Nat
  chatSnapshot : FileName
  chatJournal : FileName
  chatJournalBytes : Option Nat
  deriving DecidableEq

structure ChatSnapshotFile extends Chat where
  schemaVersion : Nat
  deriving DecidableEq

/-- The Task fields a Chat commit changes. -/
abbrev TaskMetadataPatch := FieldPatch TaskRecord.Field.Value

structure ChatFrame where
  journal : JournalFrame
  taskPatch : TaskMetadataPatch

-- Not derived: patches are functions, and comparing them has to compute.
instance : DecidableEq ChatFrame := fun a b =>
  decidable_of_iff (a.journal = b.journal ∧ a.taskPatch = b.taskPatch) <| by
    cases a; cases b; simp

/-- serde_json, for the values of this store. -/
structure Serde where
  parse : Bytes → Except RuntimeError Json
  taskFileToVec : DurableTaskFile → Bytes
  taskFileFromSlice : Bytes → Except RuntimeError DurableTaskFile
  snapshotToVec : ChatSnapshotFile → Bytes
  snapshotFromValue : Json → Except RuntimeError ChatSnapshotFile
  chatFrameToVec : ChatFrame → Bytes
  journalFrameFromValue : Json → Except RuntimeError JournalFrame
  patchFromValue : Json → Except RuntimeError TaskMetadataPatch
  taskFile_roundTrip : ∀ file, taskFileFromSlice (taskFileToVec file) = .ok file
  snapshot_roundTrip : ∀ snapshot, ∃ value, parse (snapshotToVec snapshot) = .ok value ∧
    value.get? "schemaVersion" = some (.number snapshot.schemaVersion) ∧
    snapshotFromValue value = .ok snapshot
  chatFrame_roundTrip : ∀ frame, ∃ value patch, parse (chatFrameToVec frame) = .ok value ∧
    value.get? "schema_version" = some (.number frame.journal.schemaVersion) ∧
    journalFrameFromValue value = .ok frame.journal ∧
    value.get? "task_patch" = some patch ∧ patchFromValue patch = .ok frame.taskPatch

namespace JournalFrame

/-- `JournalFrame::decode` (`model.rs:566`). -/
def decode (serde : Serde) (payload : Bytes) : Except RuntimeError JournalFrame := do
  let value ← serde.parse payload
  let schemaVersion := ((value.get? "schema_version").bind Json.asU16).getD 1
  let value ←
    if schemaVersion = CHAT_SCHEMA_VERSION then .ok value
    else if schemaVersion = 2 then .ok (value.set "schema_version" (.number CHAT_SCHEMA_VERSION))
    else if schemaVersion = 1 then
      .ok (value.migrateV1ToolPresentations.set "schema_version" (.number CHAT_SCHEMA_VERSION))
    else .error (.storage s!"Unsupported Chat journal schema version {schemaVersion}")
  serde.journalFrameFromValue value

end JournalFrame

namespace ChatFrame

/-- `ChatFrame::decode` (`split.rs:69`). -/
def decode (serde : Serde) (payload : Bytes) : Except RuntimeError ChatFrame := do
  let journal ← JournalFrame.decode serde payload
  let value ← serde.parse payload
  let taskPatch ← match value.get? "task_patch" with
    | some patch => serde.patchFromValue patch
    | none => .ok FieldPatch.empty
  return { journal, taskPatch }

def framed (serde : Serde) : Frame.FramedRecord ChatFrame where
  toVec := serde.chatFrameToVec
  decode := decode serde
  formatVersion frame := frame.journal.formatVersion
  sequence frame := frame.journal.sequence

end ChatFrame

namespace TaskMetadataPatch

/-- `TaskMetadataPatch::between` (`split.rs:106`). -/
def between (before after : TaskRecord) : TaskMetadataPatch :=
  FieldPatch.between before.toFields after.clearProcessLocalAgentState.toFields

/-- `TaskMetadataPatch::apply` (`split.rs:133`). -/
def apply (patch : TaskMetadataPatch) (task : TaskRecord) : Except RuntimeError TaskRecord :=
  if patch = FieldPatch.empty then .ok task
  else do
    let recovered ← TaskRecord.fromFields (FieldPatch.apply patch task.toFields)
    if recovered.taskId ≠ task.taskId then
      .error (.storage "Chat recovery metadata changes Task identity")
    else .ok recovered

end TaskMetadataPatch

namespace Split

/-! ## Reading -/

/-- Whether a name is a file. -/
def isFile (path : Path) : DiskProg Bool := .read fun d => .pure (d.files path).isSome

/-- `fs::metadata(path)?.len()`. -/
def fileLength (path : Path) : DiskProg Nat :=
  .act (.access path) (.read fun d => .pure ((d.files path).getD []).length) fun e =>
    .throw (ioFailure e)

/-- `file_length_or_zero` (`split.rs:589`). -/
def fileLengthOrZero (path : Path) : DiskProg Nat :=
  .act (.access path) (.read fun d => .pure ((d.files path).getD []).length) fun e =>
    if e = .notFound then .pure 0 else .throw (ioFailure e)

/-- `validate_schema` (`split.rs:728`). -/
def validateSchema (kind : String) (version current : Nat) : Except RuntimeError Unit :=
  if version = current then .ok ()
  else .error (.storage s!"Unsupported {kind} schema version {version}")

/-- Older releases persisted option catalogs, which are not to be hydrated as live controls. -/
def dropOptionCatalogs (task : TaskRecord) : TaskRecord :=
  { task with
    configOptionsCatalog := none
    configMutation := { task.configMutation with preferences := none } }

/-- What `load_task` makes of the bytes of `task.json`. -/
def parseTask (serde : Serde) (bytes : Bytes) : Except RuntimeError TaskMetadata := do
  let file ← serde.taskFileFromSlice bytes
  validateSchema "Task metadata" file.schemaVersion TASK_SCHEMA_VERSION
  return {
    task := dropOptionCatalogs file.task
    storageSequence := file.storageSequence
    chatSequence := file.chatSequence
    chatSnapshot := file.chatSnapshot
    chatJournal := file.chatJournal
    chatJournalBytes := file.chatJournalBytes }

/-- `load_task` (`split.rs:158`). -/
def loadTask (serde : Serde) (task : String) : DiskProg (Option TaskMetadata) :=
  .act (.access ⟨task, .task⟩)
    (.read fun d => do
      let metadata ← .ofExcept (parseTask serde ((d.files ⟨task, .task⟩).getD []))
      return some metadata)
    fun e => if e = .notFound then .pure none else .throw (ioFailure e)

/-- What `load_chat_snapshot` makes of the bytes of a snapshot, and whether it had to migrate. -/
def parseChatSnapshot (serde : Serde) (bytes : Bytes) :
    Except RuntimeError (ChatSnapshotFile × Bool) := do
  let value ← serde.parse bytes
  let version ← match (value.get? "schemaVersion").bind Json.asU16 with
    | some version => .ok version
    | none => .error (.storage "Chat snapshot schema version is missing")
  let (value, migrated) ←
    if version = CHAT_SCHEMA_VERSION then .ok (value, false)
    else if version = 2 then
      .ok (value.set "schemaVersion" (.number CHAT_SCHEMA_VERSION), false)
    else if version = 1 then
      .ok (value.migrateV1ToolPresentations.set "schemaVersion" (.number CHAT_SCHEMA_VERSION), true)
    else .error (.storage s!"Unsupported Chat snapshot schema version {version}")
  let snapshot ← serde.snapshotFromValue value
  validateSchema "Chat snapshot" snapshot.schemaVersion CHAT_SCHEMA_VERSION
  return (snapshot, migrated)

/-- `load_chat_snapshot` (`split.rs:626`). -/
def loadChatSnapshot (serde : Serde) (path : Path) : DiskProg (ChatSnapshotFile × Bool) := do
  let bytes ← FileProg.readFile path ioFailure
  .ofExcept (parseChatSnapshot serde bytes)

/-! ## Writing -/

/-- A system call whose failure is reported as it is. -/
def sys (a : FileAction Path) : DiskProg Unit := .perform a ioFailure

/-- `durable_replace_json` (`split.rs:597`): the bytes go to a temporary file, which is then renamed
over the old one.  Whatever fails, the temporary file is removed, if it can be. -/
def durableReplace (path : Path) (bytes : Bytes) : DiskProg Unit := do
  let id ← FileProg.freshId
  FileProg.replaceFile ⟨path.task, .temporary id⟩ path bytes ioFailure

/-- `publish_task` (`split.rs:562`). -/
def publishTask (serde : Serde) (task : String) (record : TaskRecord)
    (storageSequence chatSequence : Nat) (chatSnapshot chatJournal : FileName) : DiskProg Unit := do
  let bytes ← fileLengthOrZero ⟨task, chatJournal⟩
  durableReplace ⟨task, .task⟩ (serde.taskFileToVec {
    schemaVersion := TASK_SCHEMA_VERSION
    storageSequence
    chatSequence
    chatSnapshot
    chatJournal
    chatJournalBytes := some bytes
    task := record.clearProcessLocalAgentState })

/-- The snapshot of a projection. -/
def snapshotOf (projection : TaskProjection) : ChatSnapshotFile where
  schemaVersion := CHAT_SCHEMA_VERSION
  messages := projection.messages
  messageMeta := projection.messageMeta
  artifactHeads := projection.artifactHeads

/-- `publish_initial` (`split.rs:355`). -/
def publishInitial (serde : Serde) (task : String) (projection : TaskProjection)
    (storageSequence : Nat) : DiskProg Unit := do
  durableReplace ⟨task, .chatSnapshot none⟩ (serde.snapshotToVec (snapshotOf projection))
  publishTask serde task projection.task storageSequence 0 (.chatSnapshot none) (.chatJournal none)

/-- What of an operation a Chat frame keeps. -/
def durableChatOperation : TaskOperation → Option TaskOperation
  | .create _ => none
  | .replaceTask _ => none
  | .replaceProjection projection => some (.replaceProjection
      { projection with task := projection.task.clearProcessLocalAgentState })
  | operation => some operation

/-- `durable_chat_operations` (`split.rs:545`). -/
def durableChatOperations (operations : List TaskOperation) : List TaskOperation :=
  operations.filterMap durableChatOperation

/-- The Chat frame of a commit. -/
def chatFrame (before after : TaskRecord) (operations : List TaskOperation) (sequence : Nat) :
    ChatFrame where
  journal := {
    formatVersion := 1
    schemaVersion := CHAT_SCHEMA_VERSION
    sequence
    operations }
  taskPatch := TaskMetadataPatch.between before after

/-- `load_task(task_dir)?.ok_or_else(..)`. -/
def requireTask (serde : Serde) (task : String) : DiskProg TaskMetadata := do
  match ← loadTask serde task with
  | some metadata => .pure metadata
  | none => .throw (.storage "Split Task metadata is missing")

/-- The Chat frame of a commit is written, unless the commit is about the Task record alone. -/
def appendChat (serde : Serde) (task : String) (metadata : TaskMetadata) (after : TaskRecord)
    (chatOperations : List TaskOperation) : DiskProg Nat :=
  if chatOperations.isEmpty then .pure metadata.chatSequence
  else do
    let next ← .ofExcept (checkedAdd metadata.chatSequence 1 "Chat journal sequence overflow")
    let frame := chatFrame metadata.task after chatOperations next
    let journal : Path := ⟨task, metadata.chatJournal⟩
    if next = 1 then Frame.create (ChatFrame.framed serde) journal frame
    else Frame.append (ChatFrame.framed serde) journal frame
    .pure next

/-- `append` (`split.rs:386`). -/
def append (serde : Serde) (task : String) (projection : TaskProjection)
    (operations : List TaskOperation) (storageSequence : Nat) : DiskProg Unit := do
  let metadata ← requireTask serde task
  let next ← appendChat serde task metadata projection.task (durableChatOperations operations)
  publishTask serde task projection.task storageSequence next metadata.chatSnapshot
    metadata.chatJournal

/-- `remove_if_present` (`split.rs:618`). -/
def removeIfPresent (path : Path) : DiskProg Unit :=
  .act (.remove path) (.pure ()) fun e =>
    if e = .notFound then .pure () else .throw (ioFailure e)

/-- `compact` (`split.rs:433`). -/
def compact (serde : Serde) (task : String) (projection : TaskProjection)
    (storageSequence : Nat) : DiskProg Unit := do
  let metadata ← requireTask serde task
  let generation ← FileProg.freshId
  let newSnapshot := FileName.chatSnapshot (some generation)
  let newJournal := FileName.chatJournal (some generation)
  durableReplace ⟨task, newSnapshot⟩ (serde.snapshotToVec (snapshotOf projection))
  publishTask serde task projection.task storageSequence 0 newSnapshot newJournal
  removeIfPresent ⟨task, metadata.chatJournal⟩
  if metadata.chatSnapshot ≠ newSnapshot then
    removeIfPresent ⟨task, metadata.chatSnapshot⟩
  sys .sync

/-! ## Recovery -/

/-- One round of the replay loop of `load_projection`: a frame below the checkpoint only adds to the
Chat, the checkpoint frame gives way to the record of `task.json`, and a later one brings the Task
fields it changed. -/
def recoverFrame (metadata : TaskMetadata) (state : RecoveredTask) (frame : ChatFrame) :
    Except RuntimeError RecoveredTask := do
  let state ← Projection.applyOperations (some state) metadata.task.taskId
    frame.journal.operations frame.journal.sequence
  match state with
  | .available projection journalSequence =>
    if frame.journal.sequence = metadata.chatSequence then
      .ok (.available { projection with task := metadata.task } journalSequence)
    else if metadata.chatSequence < frame.journal.sequence then do
      let task ← TaskMetadataPatch.apply frame.taskPatch projection.task
      return .available { projection with task } journalSequence
    else .ok state
  | .unavailable _ => .ok state

/-- The replay loop and the history version it ends with. -/
def recoverFrames (metadata : TaskMetadata) (projection : TaskProjection)
    (frames : List ChatFrame) : Except RuntimeError TaskProjection := do
  match ← frames.foldlM (recoverFrame metadata) (.available projection 0) with
  | .available p _ =>
    return { p with task := { p.task with messageHistoryVersion := p.messageMeta.version } }
  | .unavailable error => .error (.storage error)

/-- A crash can interrupt creation before even the first frame header. -/
def discardTornHeader (task : String) (metadata : TaskMetadata) : DiskProg Unit := do
  let journal : Path := ⟨task, metadata.chatJournal⟩
  if metadata.chatSequence = 0 then
    if ← isFile journal then
      if (← fileLength journal) < Frame.FILE_HEADER_LEN then do
        sys (.remove journal)
        sys .sync

/-- The length of the journal; one without a complete frame is removed. -/
def settleJournal (journal : Path) (recovered : Nat) : DiskProg Nat :=
  if recovered = 0 then do
    sys (.remove journal)
    sys .sync
    .pure 0
  else fileLength journal

def rewriteMigrated (serde : Serde) (path : Path) (snapshot : ChatSnapshotFile)
    (migrated : Bool) : DiskProg Unit :=
  if migrated then durableReplace path (serde.snapshotToVec snapshot) else .pure ()

/-- The end of `load_projection` for a store that needs no repair; one that was written before byte
checkpoints existed gets its own. -/
def finishLoad (serde : Serde) (task : String) (metadata : TaskMetadata)
    (snapshot : ChatSnapshotFile) (migrated : Bool) (projection : TaskProjection) :
    DiskProg (Option (TaskProjection × Nat)) := do
  rewriteMigrated serde ⟨task, metadata.chatSnapshot⟩ snapshot migrated
  if metadata.chatJournalBytes.isNone then
    publishTask serde task projection.task metadata.storageSequence metadata.chatSequence
      metadata.chatSnapshot metadata.chatJournal
  .pure (some (projection, metadata.storageSequence))

/-- The branch of `load_projection` for a generation that has a journal. -/
def loadJournal (serde : Serde) (task : String) (metadata : TaskMetadata)
    (snapshot : ChatSnapshotFile) (migrated : Bool) (projection : TaskProjection) :
    DiskProg (Option (TaskProjection × Nat)) := do
  let journal : Path := ⟨task, metadata.chatJournal⟩
  let replayed ← Frame.replay (ChatFrame.framed serde) journal
  if replayed.frameCount < metadata.chatSequence then
    .throw (.storage "Chat journal is behind its committed Task metadata")
  else do
    let projection ← .ofExcept (recoverFrames metadata projection replayed.frames)
    let journalBytes ← settleJournal journal replayed.frameCount
    if metadata.chatSequence < replayed.frameCount ||
        metadata.chatJournalBytes.any (· ≠ journalBytes) then do
      let repaired :=
        saturatingAdd metadata.storageSequence (replayed.frameCount - metadata.chatSequence)
      publishTask serde task projection.task repaired replayed.frameCount metadata.chatSnapshot
        metadata.chatJournal
      rewriteMigrated serde ⟨task, metadata.chatSnapshot⟩ snapshot migrated
      .pure (some (projection, repaired))
    else finishLoad serde task metadata snapshot migrated projection

/-- `load_projection` (`split.rs:210`). -/
def loadProjection (serde : Serde) (task : String) : DiskProg (Option (TaskProjection × Nat)) := do
  match ← loadTask serde task with
  | none => .pure none
  | some metadata => do
    let (snapshot, migrated) ← loadChatSnapshot serde ⟨task, metadata.chatSnapshot⟩
    let projection := snapshot.toChat.withTask metadata.task
    discardTornHeader task metadata
    if ← isFile ⟨task, metadata.chatJournal⟩ then
      loadJournal serde task metadata snapshot migrated projection
    else if 0 < metadata.chatSequence then
      .throw (.storage "Committed Chat journal generation is missing")
    else finishLoad serde task metadata snapshot migrated projection

/-- `exists` (`split.rs:154`). -/
def «exists» (serde : Serde) (task : String) : DiskProg Bool :=
  Prog.tryCatch
    (do
      match ← loadTask serde task with
      | some metadata => isFile ⟨task, metadata.chatSnapshot⟩
      | none => .pure false)
    fun _ => .pure false

end Split

end OpenAide

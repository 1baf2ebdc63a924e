import OpenAide.Storage.Records

/-!
# Operations, writes and committed batches

`storage/task_journal/model.rs`.  A `TaskWrite` can only be made by the constructors of that file,
and its ordering boundary follows from what it carries.  `TaskWrite.Built` lists those shapes and
every `TaskWrite` holds the proof of one, so that "a Subagent write is never a text write" or "a
text write is one append" need not be assumed anywhere.

Sizes are estimates over serialised JSON; how long a value's JSON is comes in as `JsonSizes`.
-/

namespace OpenAide

open Library

/-- Wrap-free `usize` addition. -/
def saturatingAdd (a b : Nat) : Nat := min (a + b) (2 ^ 64 - 1)

/-! ## Operations -/

/-- `TaskOperation` (`model.rs:349`). -/
inductive TaskOperation where
  | create (projection : TaskProjection)
  | replaceTask (task : TaskRecord)
  | replaceProjection (projection : TaskProjection)
  | appendText (identity text localHistoryUpdatedAt : String) (taskUpdatedAt : Option String)
  | appendMessage (message : StoredMessage)
  | upsertMessage (message : StoredMessage)
  | replaceMessages (messages : List StoredMessage) (messageMeta : MessageMeta)
  | replaceMessageMeta (messageMeta : MessageMeta)
  | commitArtifact (artifactId : String) (artifactSequence : Nat)
  deriving DecidableEq

/-- `ArtifactOperation` (`model.rs:415`). -/
inductive ArtifactOperation where
  | replaceDetails (details : ActivityToolDetails)
  | appendTerminal (terminalId data : String)
  deriving DecidableEq

structure ArtifactWrite where
  artifactId : String
  operation : ArtifactOperation
  deriving DecidableEq

/-- Structured Tool detail staged with a Task transaction. -/
structure ToolArtifactReplacement where
  artifactId : String
  details : ActivityToolDetails
  deriving DecidableEq

structure ToolTerminalAppend where
  artifactId : String
  terminalId : String
  data : String
  deriving DecidableEq

def terminalWrites (appends : List ToolTerminalAppend) : List ArtifactWrite :=
  appends.map fun a => ⟨a.artifactId, .appendTerminal a.terminalId a.data⟩

/-- How many bytes the JSON of a value takes. -/
structure JsonSizes where
  projection : TaskProjection → Nat
  message : StoredMessage → Nat
  messages : List StoredMessage → Nat
  details : ActivityToolDetails → Nat

def TaskOperation.estimatedBytes (sizes : JsonSizes) : TaskOperation → Nat
  | create projection => projection.messages.length * 128 + 2048
  | replaceTask _ => 2048
  | replaceProjection projection => sizes.projection projection
  | appendText _ text _ _ => text.utf8ByteSize + 96
  | appendMessage message => sizes.message message
  | upsertMessage message => sizes.message message
  | replaceMessages messages _ => sizes.messages messages
  | replaceMessageMeta _ => 256
  | commitArtifact artifactId _ => artifactId.utf8ByteSize + 64

def ArtifactOperation.estimatedBytes (sizes : JsonSizes) : ArtifactOperation → Nat
  | replaceDetails details => sizes.details details
  | appendTerminal terminalId data => terminalId.utf8ByteSize + data.utf8ByteSize + 64

def ArtifactWrite.estimatedBytes (sizes : JsonSizes) (write : ArtifactWrite) : Nat :=
  write.artifactId.utf8ByteSize + write.operation.estimatedBytes sizes

/-! ## Writes -/

inductive CommitBoundary where
  | stream | textStream | textBarrier | barrier
  deriving DecidableEq

/-- Whether a write of this boundary seals earlier ones. -/
def CommitBoundary.isControl : CommitBoundary → Bool
  | textBarrier => true
  | barrier => true
  | _ => false

inductive CompactionMode where
  | none | ifWorthwhile | force
  deriving DecidableEq

/-- A Subagent write rides the Task's queue; the Task journal only needs its size. -/
structure SubagentWrite where
  content : JsonText
  estimatedBytes : Nat
  deriving DecidableEq

/-- The shapes the constructors of `model.rs` give a write. -/
inductive TaskWrite.Built : CommitBoundary → List TaskOperation → List ArtifactWrite →
    CompactionMode → Option SubagentWrite → Prop where
  /-- `barrier`, `barrier_create`, `barrier_replace_task`, `barrier_replace_projection`,
  `barrier_operations_with_artifacts`. -/
  | barrier (operations artifacts) : Built .barrier operations artifacts .none none
  /-- `compaction_barrier`, `compaction_if_worthwhile_barrier`. -/
  | compaction (mode) : Built .barrier [] [] mode none
  /-- `stream_append_terminal`, `stream_append_terminals`. -/
  | terminals (appends) : Built .stream [] (terminalWrites appends) .none none
  /-- `stream_append_text`, `stream_append_text_with_task_update`. -/
  | text (identity text updatedAt taskUpdatedAt) :
      Built .textStream [.appendText identity text updatedAt taskUpdatedAt] [] .none none
  /-- `barrier_streamed_text`. -/
  | textBarrier : Built .textBarrier [] [] .none none
  /-- `stream_subagent`: too large a write goes as a barrier. -/
  | streamSubagent (write) : Built .stream [] [] .none (some write)
  /-- `barrier_subagent`. -/
  | barrierSubagent (write) : Built .barrier [] [] .none (some write)

/-- One admitted semantic write (`model.rs:24`). -/
structure TaskWrite where
  taskId : String
  boundary : CommitBoundary
  operations : List TaskOperation := []
  artifacts : List ArtifactWrite := []
  compaction : CompactionMode := .none
  subagent : Option SubagentWrite := none
  built : TaskWrite.Built boundary operations artifacts compaction subagent
  deriving DecidableEq

namespace TaskWrite

def streamAppendTextWithMetadata (taskId identity text localHistoryUpdatedAt : String)
    (taskUpdatedAt : Option String) : TaskWrite where
  taskId := taskId
  boundary := .textStream
  operations := [.appendText identity text localHistoryUpdatedAt taskUpdatedAt]
  built := .text _ _ _ _

/-- Streamed Agent text; its batch advances the Task revision once. -/
def streamAppendTextWithTaskUpdate
    (taskId identity text localHistoryUpdatedAt taskUpdatedAt : String) : TaskWrite :=
  streamAppendTextWithMetadata taskId identity text localHistoryUpdatedAt (some taskUpdatedAt)

def barrierStreamedText (taskId : String) : TaskWrite where
  taskId := taskId
  boundary := .textBarrier
  built := .textBarrier

def isSubagent (write : TaskWrite) : Bool := write.subagent.isSome

/-- Operations the write adds to a batch; a Subagent write counts as one. -/
def operationCount (write : TaskWrite) : Nat :=
  write.operations.length + write.artifacts.length + if write.isSubagent then 1 else 0

def operationBytes (sizes : JsonSizes) (write : TaskWrite) : Nat :=
  saturatingAdd (write.operations.map (TaskOperation.estimatedBytes sizes)).sum
    (write.artifacts.map (ArtifactWrite.estimatedBytes sizes)).sum

def estimatedBytes (sizes : JsonSizes) (write : TaskWrite) : Nat :=
  saturatingAdd ((write.subagent.map SubagentWrite.estimatedBytes).getD 0)
    (write.operationBytes sizes)

theorem isSubagent_of_text {write : TaskWrite}
    (h : write.boundary = .textStream ∨ write.boundary = .textBarrier) :
    write.isSubagent = false := by
  obtain ⟨_, boundary, _, _, _, subagent, built⟩ := write
  cases built <;> simp_all [isSubagent]

end TaskWrite

/-! ## Journal records -/

structure JournalFrame where
  formatVersion : Nat
  schemaVersion : Nat
  sequence : Nat
  operations : List TaskOperation
  deriving DecidableEq

end OpenAide

import OpenAide.Library.Maps
import OpenAide.Protocol.Model

/-!
# Task records and projections

`storage/records.rs` and the projection of `storage/task_journal/model.rs`: the Task record, its
serialisation by field, the process-local part of it that no file keeps, and the projection a Task
journal rebuilds.

`TaskRecord.toFields` follows the serde attributes of the record: a field that is skipped when it
has its default is absent, and `fromFields` (the hand-written `Deserialize`, `records.rs:596`) puts
the default back.  `fromFields_toFields` is the round trip.  Of the record's forty fields those that
the modelled code reads or writes are kept.
-/

namespace OpenAide

open Library

/-! ## The Task record -/

inductive TaskStatus where
  | starting | active | stopping | inactive | failed | completed | waiting
  deriving DecidableEq

/-- `TaskLifecycle` (`records.rs:157`). -/
inductive TaskLifecycle where
  | prepared (lease : Option String)
  | «open»
  | archived
  deriving DecidableEq

def TaskLifecycle.isArchived : TaskLifecycle → Bool
  | archived => true
  | _ => false

inductive TaskNativeSessionCatalogFreshness where
  | fresh | recovering | stale
  deriving DecidableEq

/-- `TaskNativeSessionDataFreshness` (`records.rs:53`). -/
structure TaskNativeSessionDataFreshness where
  config : TaskNativeSessionCatalogFreshness := .fresh
  commands : TaskNativeSessionCatalogFreshness := .fresh
  deriving DecidableEq

namespace TaskNativeSessionDataFreshness

def isFresh (f : TaskNativeSessionDataFreshness) :
    Bool := f.config == .fresh && f.commands == .fresh

def isStale (f : TaskNativeSessionDataFreshness) :
    Bool := f.config == .stale && f.commands == .stale

def markStale (_ : TaskNativeSessionDataFreshness) : TaskNativeSessionDataFreshness :=
  { config := .stale, commands := .stale }

@[simp] theorem isStale_markStale (f : TaskNativeSessionDataFreshness) :
    f.markStale.isStale = true :=
  rfl

end TaskNativeSessionDataFreshness

/-- `TaskConfigMutationState` (`config_state.rs:10`). -/
structure TaskConfigMutationState where
  sequence : Nat := 0
  pending : Option JsonText := none
  preferences : Option JsonText := none
  chosen : List JsonText := []
  deriving DecidableEq

def TaskConfigMutationState.isEmpty (s : TaskConfigMutationState) : Bool :=
  s.sequence == 0 && s.pending.isNone && s.preferences.isNone && s.chosen.isEmpty

/-- `QueuedMessageRecord` (`records.rs:471`). -/
structure QueuedMessageRecord where
  queuedMessageId : String
  notBefore : Option String := none
  text : String
  createdAt : String
  chatAttachments : List Attachment := []
  agentAttachments : List Attachment := []
  deriving DecidableEq

inductive TaskMessageQueuePauseRecord where
  | restarted | unsuccessfulTurn | attachmentUnavailable
  deriving DecidableEq

structure TaskMessageQueueRecord where
  revision : Nat := 0
  pause : Option TaskMessageQueuePauseRecord := none
  items : List QueuedMessageRecord := []
  deriving DecidableEq

def TaskMessageQueueRecord.isInitial (q : TaskMessageQueueRecord) : Bool :=
  q.revision == 0 && q.pause.isNone && q.items.isEmpty

/-- `TaskRecord` (`records.rs:504`). -/
structure TaskRecord where
  taskId : String
  status : TaskStatus
  taskVersion : Nat
  messageHistoryVersion : Nat
  unread : Bool
  updatedAt : String
  lastActivity : String
  messageQueue : TaskMessageQueueRecord := {}
  lifecycle : TaskLifecycle
  agentSessionId : Option String := none
  activeTurnId : Option String := none
  activeTurnStartedAt : Option String := none
  tombstoned : Bool := false
  revision : Nat := 0
  configOptionsCatalog : Option JsonText := none
  nativeSessionDataFreshness : TaskNativeSessionDataFreshness := {}
  configMutation : TaskConfigMutationState := {}
  agentCommandsCatalog : Option JsonText := none
  contextUsage : Option JsonText := none
  lastTurnUsage : Option JsonText := none
  deriving DecidableEq

namespace TaskRecord

/-- `clear_process_local_agent_state` (`records.rs:738`): catalogs, pending mutations and usage
belong to one App Server process. -/
def clearProcessLocalAgentState (task : TaskRecord) : TaskRecord :=
  let becameStale := (task.configOptionsCatalog.isSome || task.agentCommandsCatalog.isSome) &&
    !task.nativeSessionDataFreshness.isStale
  { task with
    configOptionsCatalog := none
    configMutation := { task.configMutation with preferences := none, pending := none }
    contextUsage := none
    lastTurnUsage := none
    nativeSessionDataFreshness :=
      if becameStale then task.nativeSessionDataFreshness.markStale
      else task.nativeSessionDataFreshness }

variable (task : TaskRecord)

@[simp] theorem clear_clear :
    task.clearProcessLocalAgentState.clearProcessLocalAgentState =
      task.clearProcessLocalAgentState := by
  simp only [clearProcessLocalAgentState, Option.isSome_none, Bool.false_or]
  cases h : task.nativeSessionDataFreshness.isStale <;>
    cases task.agentCommandsCatalog <;> cases task.configOptionsCatalog <;> simp [h]

@[simp] theorem clear_taskId :
    task.clearProcessLocalAgentState.taskId = task.taskId := rfl

@[simp] theorem clear_messageHistoryVersion :
    task.clearProcessLocalAgentState.messageHistoryVersion = task.messageHistoryVersion := rfl

/-- The record at another history version. -/
def withVersion (task : TaskRecord) (n : Nat) : TaskRecord :=
  { task with messageHistoryVersion := n }

@[simp] theorem messageHistoryVersion_withVersion (n : Nat) :
    (task.withVersion n).messageHistoryVersion = n := rfl

@[simp] theorem taskId_withVersion (n : Nat) : (task.withVersion n).taskId = task.taskId := rfl

@[simp] theorem withVersion_self :
    task.withVersion task.messageHistoryVersion = task := rfl

@[simp] theorem clear_withVersion (n : Nat) :
    (task.withVersion n).clearProcessLocalAgentState =
      task.clearProcessLocalAgentState.withVersion n := rfl

/-- The record without its history version, the one field that applying Chat operations changes. -/
def unversioned (task : TaskRecord) : TaskRecord := task.withVersion 0

@[simp] theorem unversioned_withVersion (n : Nat) :
    (task.withVersion n).unversioned = task.unversioned := rfl

theorem eq_withVersion_of_unversioned_eq {a b : TaskRecord} (h : a.unversioned = b.unversioned) :
    a = b.withVersion a.messageHistoryVersion := by
  cases a
  cases b
  simp_all [unversioned, withVersion]

theorem unversioned_clear_of_eq {a b : TaskRecord} (h : a.unversioned = b.unversioned) :
    a.clearProcessLocalAgentState.unversioned = b.clearProcessLocalAgentState.unversioned := by
  rw [eq_withVersion_of_unversioned_eq h, clear_withVersion, unversioned_withVersion]

theorem taskId_of_unversioned_eq {a b : TaskRecord} (h : a.unversioned = b.unversioned) :
    a.taskId = b.taskId := by
  rw [eq_withVersion_of_unversioned_eq h, taskId_withVersion]

/-! ### Serialisation by field -/

/-- The serialised fields, each under its name in the file. -/
inductive Field where
  | taskId | status | taskVersion | messageHistoryVersion | unread | updatedAt | lastActivity
  | messageQueue | lifecycle | agentSessionId | activeTurnId | activeTurnStartedAt | tombstoned
  | revision | configOptionsCatalog | nativeSessionDataFreshness | configMutation
  | agentCommandsCatalog | contextUsage | lastTurnUsage
  deriving DecidableEq

/-- Every field, in the record's order. -/
def Field.all : List Field :=
  [taskId, status, taskVersion, messageHistoryVersion, unread, updatedAt, lastActivity,
    messageQueue, lifecycle, agentSessionId, activeTurnId, activeTurnStartedAt, tombstoned,
    revision, configOptionsCatalog, nativeSessionDataFreshness, configMutation,
    agentCommandsCatalog, contextUsage, lastTurnUsage]

instance : Fintype Field :=
  .ofList Field.all fun f => by cases f <;> decide

/-- The type of a field's serialised value. -/
@[reducible] def Field.Value : Field → Type
  | taskId => String
  | status => TaskStatus
  | taskVersion => Nat
  | messageHistoryVersion => Nat
  | unread => Bool
  | updatedAt => String
  | lastActivity => String
  | messageQueue => TaskMessageQueueRecord
  | lifecycle => TaskLifecycle
  | agentSessionId => String
  | activeTurnId => String
  | activeTurnStartedAt => String
  | tombstoned => Bool
  | revision => Nat
  | configOptionsCatalog => JsonText
  | nativeSessionDataFreshness => TaskNativeSessionDataFreshness
  | configMutation => TaskConfigMutationState
  | agentCommandsCatalog => JsonText
  | contextUsage => JsonText
  | lastTurnUsage => JsonText

instance : (f : Field) → DecidableEq f.Value
  | .taskId => inferInstanceAs (DecidableEq String)
  | .status => inferInstanceAs (DecidableEq TaskStatus)
  | .taskVersion => inferInstanceAs (DecidableEq Nat)
  | .messageHistoryVersion => inferInstanceAs (DecidableEq Nat)
  | .unread => inferInstanceAs (DecidableEq Bool)
  | .updatedAt => inferInstanceAs (DecidableEq String)
  | .lastActivity => inferInstanceAs (DecidableEq String)
  | .messageQueue => inferInstanceAs (DecidableEq TaskMessageQueueRecord)
  | .lifecycle => inferInstanceAs (DecidableEq TaskLifecycle)
  | .agentSessionId => inferInstanceAs (DecidableEq String)
  | .activeTurnId => inferInstanceAs (DecidableEq String)
  | .activeTurnStartedAt => inferInstanceAs (DecidableEq String)
  | .tombstoned => inferInstanceAs (DecidableEq Bool)
  | .revision => inferInstanceAs (DecidableEq Nat)
  | .configOptionsCatalog => inferInstanceAs (DecidableEq JsonText)
  | .nativeSessionDataFreshness => inferInstanceAs (DecidableEq TaskNativeSessionDataFreshness)
  | .configMutation => inferInstanceAs (DecidableEq TaskConfigMutationState)
  | .agentCommandsCatalog => inferInstanceAs (DecidableEq JsonText)
  | .contextUsage => inferInstanceAs (DecidableEq JsonText)
  | .lastTurnUsage => inferInstanceAs (DecidableEq JsonText)

/-- `serde_json::to_value` of a record, by field. -/
def toFields (task : TaskRecord) : FieldMap Field.Value
  | .taskId => some task.taskId
  | .status => some task.status
  | .taskVersion => some task.taskVersion
  | .messageHistoryVersion => some task.messageHistoryVersion
  | .unread => some task.unread
  | .updatedAt => some task.updatedAt
  | .lastActivity => some task.lastActivity
  | .messageQueue => if task.messageQueue.isInitial then none else some task.messageQueue
  | .lifecycle => some task.lifecycle
  | .agentSessionId => task.agentSessionId
  | .activeTurnId => task.activeTurnId
  | .activeTurnStartedAt => task.activeTurnStartedAt
  | .tombstoned => some task.tombstoned
  | .revision => some task.revision
  | .configOptionsCatalog => task.configOptionsCatalog
  | .nativeSessionDataFreshness =>
    if task.nativeSessionDataFreshness.isFresh then none else some task.nativeSessionDataFreshness
  | .configMutation => if task.configMutation.isEmpty then none else some task.configMutation
  | .agentCommandsCatalog => task.agentCommandsCatalog
  | .contextUsage => task.contextUsage
  | .lastTurnUsage => task.lastTurnUsage

/-- A field without a default. -/
def required {α : Type} (name : String) : Option α → Except RuntimeError α
  | some value => .ok value
  | none => .error (.storage ("missing field " ++ name))

/-- `serde_json::from_value` of a record. -/
def fromFields (fields : FieldMap Field.Value) : Except RuntimeError TaskRecord := do
  let taskId ← required "task_id" (fields .taskId)
  let status ← required "status" (fields .status)
  let taskVersion ← required "task_version" (fields .taskVersion)
  let messageHistoryVersion ← required "message_history_version" (fields .messageHistoryVersion)
  let unread ← required "unread" (fields .unread)
  let updatedAt ← required "updated_at" (fields .updatedAt)
  let lastActivity ← required "last_activity" (fields .lastActivity)
  let lifecycle ← required "lifecycle" (fields .lifecycle)
  return {
    taskId, status, taskVersion, messageHistoryVersion, unread, updatedAt, lastActivity, lifecycle
    messageQueue := (fields .messageQueue).getD {}
    agentSessionId := fields .agentSessionId
    activeTurnId := fields .activeTurnId
    activeTurnStartedAt := fields .activeTurnStartedAt
    tombstoned := (fields .tombstoned).getD false
    revision := (fields .revision).getD 0
    configOptionsCatalog := fields .configOptionsCatalog
    nativeSessionDataFreshness := (fields .nativeSessionDataFreshness).getD {}
    configMutation := (fields .configMutation).getD {}
    agentCommandsCatalog := fields .agentCommandsCatalog
    contextUsage := fields .contextUsage
    lastTurnUsage := fields .lastTurnUsage }

theorem messageQueue_of_isInitial {q : TaskMessageQueueRecord} (h : q.isInitial) : q = {} := by
  obtain ⟨revision, pause, items⟩ := q
  simp only [TaskMessageQueueRecord.isInitial, Bool.and_eq_true, beq_iff_eq,
    Option.isNone_iff_eq_none, List.isEmpty_iff] at h
  obtain ⟨⟨rfl, rfl⟩, rfl⟩ := h
  rfl

theorem freshness_of_isFresh {f : TaskNativeSessionDataFreshness} (h : f.isFresh) : f = {} := by
  obtain ⟨config, commands⟩ := f
  simp only [TaskNativeSessionDataFreshness.isFresh, Bool.and_eq_true, beq_iff_eq] at h
  obtain ⟨rfl, rfl⟩ := h
  rfl

theorem configMutation_of_isEmpty {s : TaskConfigMutationState} (h : s.isEmpty) : s = {} := by
  obtain ⟨sequence, pending, preferences, chosen⟩ := s
  simp only [TaskConfigMutationState.isEmpty, Bool.and_eq_true, beq_iff_eq,
    Option.isNone_iff_eq_none, List.isEmpty_iff] at h
  obtain ⟨⟨⟨rfl, rfl⟩, rfl⟩, rfl⟩ := h
  rfl

/-- **A serialised record reads back.** -/
theorem fromFields_toFields : fromFields task.toFields = .ok task := by
  have hqueue : (if task.messageQueue.isInitial then none
      else some task.messageQueue).getD {} = task.messageQueue := by
    split
    · rename_i h; exact (messageQueue_of_isInitial h).symm
    · rfl
  have hfresh : (if task.nativeSessionDataFreshness.isFresh then none
      else some task.nativeSessionDataFreshness).getD {} = task.nativeSessionDataFreshness := by
    split
    · rename_i h; exact (freshness_of_isFresh h).symm
    · rfl
  have hconfig : (if task.configMutation.isEmpty then none
      else some task.configMutation).getD {} = task.configMutation := by
    split
    · rename_i h; exact (configMutation_of_isEmpty h).symm
    · rfl
  simp only [fromFields, toFields, required, hqueue, hfresh, hconfig]
  rfl

theorem toFields_withVersion (n : Nat) {f : Field} (hf : f ≠ .messageHistoryVersion) :
    (task.withVersion n).toFields f = task.toFields f := by
  cases f <;> first | rfl | exact absurd rfl hf

end TaskRecord

/-! ## Projections -/

/-- `StoredMessage` (`records.rs:810`). -/
structure StoredMessage where
  sequence : Nat
  chat : ChatMessage
  deriving DecidableEq

/-- `MessageMeta` (`records.rs:816`). -/
structure MessageMeta where
  taskId : String
  version : Nat
  messageCount : Nat
  localHistoryUpdatedAt : String
  firstCursor : Option String
  lastCursor : Option String
  deriving DecidableEq

/-- Complete normalized Task state reconstructed by journal replay (`model.rs:12`). -/
structure TaskProjection where
  task : TaskRecord
  messages : List StoredMessage
  messageMeta : MessageMeta
  artifactHeads : Assoc String Nat := []
  deriving DecidableEq

/-- The versions of the history in the Task record and in the Chat agree. -/
def TaskProjection.Aligned (p : TaskProjection) : Prop :=
  p.task.messageHistoryVersion = p.messageMeta.version

end OpenAide

import OpenAide.Snapshots.Chat

/-!
# Task snapshots as clients see them

`snapshots/task_snapshot.rs:504-632` and `task_snapshot/readiness.rs`: the sections of a Task
snapshot are computed from the Task record by separate functions, each from some of its fields.

`ShownTask` is the Task record with the fields that only snapshots read.  Values that storage keeps
as JSON text are read through `StoredValues`; the identity of a Project is a function of its root
directory, and whether the workspace exists is looked up when the snapshot is made.
-/

namespace OpenAide

open Library ChatProjection

/-! ## The record -/

inductive TaskTitleSource where
  | prompt | agent | user
  deriving DecidableEq

structure TaskTitle where
  value : String
  source : TaskTitleSource
  deriving DecidableEq

/-- `TaskTitleState` (`records.rs:192`). -/
inductive TaskTitleState where
  | automatic (title : Option TaskTitle)
  | userOverride (title : TaskTitle) (automatic : Option TaskTitle)
  deriving DecidableEq

def TaskTitleState.effective : TaskTitleState → Option TaskTitle
  | automatic title => title
  | userOverride title _ => some title

inductive TaskAttentionReason where
  | finished | needsPermission | needsAnswer | stopped | failed
  deriving DecidableEq

structure TaskAttentionEvent where
  eventId : String
  reason : TaskAttentionReason
  occurredAt : String
  deriving DecidableEq

inductive TaskPermissionPolicy where
  | askEveryTime | autoApprove
  deriving DecidableEq

/-- `TaskBackgroundCommand` (`model/task.rs:66`), shown as it is. -/
structure TaskBackgroundCommand where
  commandId : String
  description : String
  kindLabel : Option String := none
  startedAt : String
  paused : Bool
  canStop : Bool
  stopFailed : Bool := false
  toolCallId : Option String := none
  deriving DecidableEq

structure TaskBackgroundWork where
  held : Bool := false
  commands : List TaskBackgroundCommand := []
  deriving DecidableEq

inductive TaskPreparationBlockerRecord where
  | authRequired | setupRequired | nodeJsRequired
  deriving DecidableEq

inductive TaskPreparationRecord where
  | needed
  | preparing
  | ready
  | blocked (reason : TaskPreparationBlockerRecord) (message : String)
  | failed (message : String) (nativeSessionMissing : Bool)
  deriving DecidableEq

/-- Preparation is still going on. -/
def TaskPreparationRecord.isRunning : TaskPreparationRecord → Bool
  | needed | preparing => true
  | _ => false

/-- `TaskRecord` with the fields that snapshots show. -/
structure ShownTask extends TaskRecord where
  title : TaskTitleState := .automatic none
  pinned : Bool := false
  attention : Option TaskAttentionEvent := none
  permissionPolicy : TaskPermissionPolicy := .askEveryTime
  agentId : String
  workspaceRoot : String
  projectRoot : Option String := none
  worktreeId : Option String := none
  backgroundWork : Option TaskBackgroundWork := none
  currentPlan : Option (List JsonText) := none
  modelId : Option String := none
  supportsImageInput : Bool := false
  preparation : TaskPreparationRecord := .ready
  deriving DecidableEq

/-- `live_background_work` (`records.rs:793`): a wait or a stop in the same turn takes precedence.
-/
def ShownTask.liveBackgroundWork (task : ShownTask) : Option TaskBackgroundWork :=
  if task.status = .active ∧ task.activeTurnId.isSome then task.backgroundWork else none

/-! ## What is kept as JSON text -/

inductive ConfigOptionCurrentValue where
  | id (value : String)
  | boolean (value : Bool)
  deriving DecidableEq

inductive ConfigOptionCategory where
  | mode | model | thoughtLevel | other
  deriving DecidableEq

inductive ConfigOptionKind where
  | select | boolean
  deriving DecidableEq

structure ConfigOptionValue where
  id : String
  label : String
  description : Option String
  groupId : Option String
  groupLabel : Option String

structure ConfigOption where
  id : String
  label : String
  description : Option String
  category : Option ConfigOptionCategory
  kind : ConfigOptionKind
  currentValue : ConfigOptionCurrentValue
  values : List ConfigOptionValue

structure AgentCommand where
  name : String
  description : String
  inputHint : Option String
  deriving DecidableEq

structure PendingTaskConfigChange where
  sequence : Nat
  clientMutationId : String
  configId : String
  requestedValue : ConfigOptionCurrentValue

inductive AgentConfigPreferencesState where
  | applying | failed | settled
  deriving DecidableEq

structure AgentConfigPreferencesSnapshot where
  state : AgentConfigPreferencesState
  skippedCount : Nat
  deriving DecidableEq

structure TaskUsage where
  usedTokens : Nat
  capacityTokens : Nat
  cost : Option JsonText
  deriving DecidableEq

/-- The values that the texts of a record stand for, and the identity of a Project. -/
structure StoredValues where
  configOptions : JsonText → List ConfigOption
  agentCommands : JsonText → List AgentCommand
  pendingChange : JsonText → PendingTaskConfigChange
  preferences : JsonText → AgentConfigPreferencesSnapshot
  usage : JsonText → TaskUsage
  /-- `ProjectIdentity::from_workspace_root`. -/
  projectId : String → String

/-! ## Snapshots -/

namespace TaskSnapshots

/-- Client-visible lifecycle. -/
inductive Lifecycle where
  | prepared | «open» | archived
  deriving DecidableEq

/-- `TaskStatus` of the protocol (`snapshot/task.rs:151`). -/
inductive Status where
  | preparing | starting | idle | running | background | stopping | waiting | failed | completed
  deriving DecidableEq

/-- `TaskSummary` (`snapshot/task.rs:93`). -/
structure TaskSummary where
  taskId : String
  projectId : String
  agentId : String
  lifecycle : Lifecycle
  title : Option TaskTitle
  status : Status
  updatedAt : String
  lastActivity : String
  unread : Bool
  pinned : Bool
  attention : Option TaskAttentionEvent
  hasMessages : Bool
  worktreeId : Option String
  workspaceAvailable : Bool
  deriving DecidableEq

inductive ErrorCode where
  | unauthorized | notFound | capabilityUnavailable | nodeJsRequired | internal
  deriving DecidableEq

structure ProtocolError where
  code : ErrorCode
  message : String
  recoverable : Bool := true
  deriving DecidableEq

inductive StepKind where
  | creatingNativeSession | loadingConfigOptions
  deriving DecidableEq

inductive StepStatus where
  | pending | running
  deriving DecidableEq

structure PreparationStep where
  kind : StepKind
  status : StepStatus
  label : String
  deriving DecidableEq

inductive PreparationAction where
  | retry | discard | openAgentSettings | authenticate
  deriving DecidableEq

/-- `TaskPreparationSnapshot` (`snapshot/task/preparation.rs`). -/
inductive PreparationSnapshot where
  | preparing (steps : List PreparationStep)
  | ready
  | blocked (kind : TaskPreparationBlockerRecord) (message : String)
      (actions : List PreparationAction)
  | failed (error : ProtocolError) (actions : List PreparationAction)
  deriving DecidableEq

inductive LiveSessionDataState where
  | loading | ready | stale | unavailable | failed
  deriving DecidableEq

structure ConfigOptionValueSnapshot where
  value : String
  label : String
  description : Option String
  deriving DecidableEq

structure ConfigOptionSnapshot where
  configId : String
  label : String
  description : Option String
  category : Option String
  kind : ConfigOptionKind
  currentValue : ConfigOptionCurrentValue
  values : List ConfigOptionValueSnapshot
  deriving DecidableEq

structure PendingConfigChange where
  clientMutationId : String
  configId : String
  requestedValue : ConfigOptionCurrentValue
  deriving DecidableEq

/-- `TaskAgentConfigSnapshot` (`snapshot/task/agent.rs`). -/
structure AgentConfigSnapshot where
  state : LiveSessionDataState
  options : List ConfigOptionSnapshot := []
  pendingChange : Option PendingConfigChange := none
  preferences : Option AgentConfigPreferencesSnapshot
  error : Option ProtocolError := none
  deriving DecidableEq

/-- `TaskAgentCommandsSnapshot`; a command is shown as it is. -/
structure AgentCommandsSnapshot where
  state : LiveSessionDataState
  commands : List AgentCommand := []
  error : Option ProtocolError := none
  deriving DecidableEq

inductive SendCapabilityState where
  | loading | ready | blocked | failed
  deriving DecidableEq

inductive SendBlockerKind where
  | taskPreparing | taskRunning | failedValidation
  deriving DecidableEq

structure SendBlocker where
  kind : SendBlockerKind
  message : String
  deriving DecidableEq

structure SendCapabilitySnapshot where
  state : SendCapabilityState
  blockers : List SendBlocker := []
  deriving DecidableEq

structure ContextUsageSnapshot where
  usage : TaskUsage
  lastTurn : Option JsonText
  deriving DecidableEq

structure QueuedMessageSnapshot where
  queuedMessageId : String
  notBefore : Option String
  text : String
  createdAt : String
  attachments : List (String × String)
  deriving DecidableEq

structure MessageQueueSnapshot where
  revision : Nat
  pause : Option TaskMessageQueuePauseRecord
  items : List QueuedMessageSnapshot
  deriving DecidableEq

/-- `TaskSnapshot` (`snapshot/task.rs:219`); `inputCapabilities` is whether images are accepted. -/
structure TaskSnapshot where
  task : TaskSummary
  permissionPolicy : TaskPermissionPolicy
  activeTurnStartedAt : Option String
  backgroundCommands : List TaskBackgroundCommand
  lifecycle : Lifecycle
  revision : Nat
  preparation : PreparationSnapshot
  agentConfig : AgentConfigSnapshot
  agentCommands : AgentCommandsSnapshot
  sendCapability : SendCapabilitySnapshot
  inputCapabilities : Option Bool
  contextUsage : Option ContextUsageSnapshot
  currentPlan : Option (List JsonText)
  messageQueue : MessageQueueSnapshot
  subagents : JsonText
  chat : ChatSnapshot
  historySync : JsonText
  pendingRequests : List JsonText
  recovery : Option JsonText
  deriving DecidableEq

/-! ### Sections -/

/-- `project_task_lifecycle` (`task_navigation.rs:423`). -/
def projectTaskLifecycle : TaskLifecycle → Lifecycle
  | .prepared _ => .prepared
  | .open => .open
  | .archived => .archived

/-- `project_status` (`task_navigation.rs:455`). -/
def projectStatus (status : TaskStatus) (backgroundOnly : Bool) : Status :=
  match status with
  | .starting => .starting
  | .active => if backgroundOnly then .background else .running
  | .stopping => .stopping
  | .inactive => .idle
  | .failed => .failed
  | .completed => .completed
  | .waiting => .waiting

/-- `project_status_with_preparation` (`task_navigation.rs:372`). -/
def projectStatusWithPreparation (status : TaskStatus) (preparation : TaskPreparationRecord)
    (backgroundOnly : Bool) : Status :=
  if preparation.isRunning then .preparing else projectStatus status backgroundOnly

def preparationError (message : String) (nativeSessionMissing : Bool) : ProtocolError where
  code := if nativeSessionMissing then .notFound else .internal
  message

def setupBlockerActions : TaskPreparationBlockerRecord → List PreparationAction
  | .authRequired => [.authenticate, .openAgentSettings]
  | .setupRequired | .nodeJsRequired => [.retry, .openAgentSettings]

def setupBlockerError (reason : TaskPreparationBlockerRecord) (message : String) :
    ProtocolError where
  code := match reason with
    | .authRequired => .unauthorized
    | .setupRequired => .capabilityUnavailable
    | .nodeJsRequired => .nodeJsRequired
  message

/-- `preparation_snapshot` (`readiness.rs:20`). -/
def preparationSnapshot : TaskPreparationRecord → PreparationSnapshot
  | .needed | .preparing =>
    .preparing [⟨.creatingNativeSession, .running, "Creating Agent session"⟩,
      ⟨.loadingConfigOptions, .pending, "Loading Agent options"⟩]
  | .ready => .ready
  | .blocked reason message => .blocked reason message (setupBlockerActions reason)
  | .failed message nativeSessionMissing =>
    .failed (preparationError message nativeSessionMissing) [.retry, .discard]

section Sections

variable (values : StoredValues)

def configCategory : ConfigOptionCategory → String
  | .mode => "mode"
  | .model => "model"
  | .thoughtLevel => "thoughtLevel"
  | .other => "other"

/-- `project_config_option`. -/
def projectConfigOption (option : ConfigOption) : ConfigOptionSnapshot where
  configId := option.id
  label := option.label
  description := option.description
  category := option.category.map configCategory
  kind := option.kind
  currentValue := option.currentValue
  values := option.values.map fun value => ⟨value.id, value.label, value.description⟩

/-- `agent_config_options`. -/
def agentConfigOptions (task : ShownTask) : List ConfigOptionSnapshot :=
  match task.configOptionsCatalog with
  | some catalog => (values.configOptions catalog).map projectConfigOption
  | none => []

/-- `pending_config_change`. -/
def pendingConfigChange (task : ShownTask) : Option PendingConfigChange :=
  task.configMutation.pending.map fun pending =>
    let pending := values.pendingChange pending
    ⟨pending.clientMutationId, pending.configId, pending.requestedValue⟩

def configPreferences (task : ShownTask) : Option AgentConfigPreferencesSnapshot :=
  task.configMutation.preferences.map values.preferences

/-- `agent_config_snapshot` (`readiness.rs:57`). -/
def agentConfigSnapshot (task : ShownTask) : AgentConfigSnapshot :=
  let freshness := task.nativeSessionDataFreshness.config
  let preferences := configPreferences values task
  if task.preparation = .preparing ∧ preferences.isSome ∧ freshness = .fresh then
    { state := .ready
      options := agentConfigOptions values task
      pendingChange := pendingConfigChange values task
      preferences }
  else
    match task.preparation with
    | .needed | .preparing => { state := .loading, preferences }
    | .ready =>
      match task.configOptionsCatalog with
      | some _ =>
        { -- only options that the live session confirmed are shown
          state := match freshness with
            | .fresh => .ready
            | .recovering => .loading
            | .stale => .stale
          options := if freshness = .fresh then agentConfigOptions values task else []
          pendingChange := pendingConfigChange values task
          preferences }
      | none =>
        { state := match freshness with
            | .fresh => .unavailable
            | .recovering => .loading
            | .stale => .unavailable
          pendingChange := pendingConfigChange values task
          preferences }
    | .blocked reason message =>
      { state := .unavailable, preferences, error := some (setupBlockerError reason message) }
    | .failed message _ =>
      { state := .failed, preferences, error := some (preparationError message false) }

/-- `agent_commands_snapshot` (`readiness.rs:189`). -/
def agentCommandsSnapshot (task : ShownTask) : AgentCommandsSnapshot :=
  match task.preparation with
  | .needed | .preparing => { state := .loading }
  | .ready =>
    { state := match task.agentCommandsCatalog, task.nativeSessionDataFreshness.commands with
        | some _, .fresh => .ready
        | some _, .recovering => .loading
        | some _, .stale => .stale
        | none, .fresh => .unavailable
        | none, .recovering => .loading
        | none, .stale => .unavailable
      commands := match task.agentCommandsCatalog with
        | some catalog => values.agentCommands catalog
        | none => [] }
  | .blocked reason message =>
    { state := .unavailable, error := some (setupBlockerError reason message) }
  | .failed message _ => { state := .failed, error := some (preparationError message false) }

/-- `send_capability_for_task` (`readiness.rs:249`). -/
def sendCapabilityForTask (status : TaskStatus) :
    TaskPreparationRecord → SendCapabilitySnapshot
  | .needed | .preparing =>
    { state := .loading
      blockers := [⟨.taskPreparing, "Task Agent preparation is still running"⟩] }
  | .failed message _ =>
    { state := .failed
      blockers := [⟨.failedValidation, s!"Task Agent preparation failed: {message}"⟩] }
  | .blocked _ message => { state := .blocked, blockers := [⟨.failedValidation, message⟩] }
  | .ready =>
    match status with
    | .inactive | .completed | .active | .failed => { state := .ready }
    | .starting | .stopping | .waiting =>
      { state := .blocked, blockers := [⟨.taskRunning, "Task is already running"⟩] }

/-- Send waits for the preferences of a new session (`task_snapshot.rs:524-541`). -/
def sendCapability (task : ShownTask) : SendCapabilitySnapshot :=
  let capability := sendCapabilityForTask task.status task.preparation
  match configPreferences values task with
  | some ⟨.applying, _⟩ =>
    { state := .blocked, blockers := [⟨.taskPreparing, "Applying your preferences…"⟩] }
  | some ⟨.failed, _⟩ =>
    { state := .blocked, blockers := [⟨.taskPreparing, "Couldn’t apply your preferences."⟩] }
  | some ⟨.settled, _⟩ => capability
  | none => capability

/-- The usage of the session with that of the last turn. -/
def contextUsage (task : ShownTask) : Option ContextUsageSnapshot :=
  task.contextUsage.map fun usage => ⟨values.usage usage, task.lastTurnUsage⟩

def messageQueueSnapshot (queue : TaskMessageQueueRecord) : MessageQueueSnapshot where
  revision := queue.revision
  pause := queue.pause
  items := queue.items.map fun item =>
    { queuedMessageId := item.queuedMessageId
      notBefore := item.notBefore
      text := item.text
      createdAt := item.createdAt
      attachments := item.chatAttachments.map fun attachment =>
        (attachment.kind, attachment.label) }

/-- `project_legacy_task_summary` (`task_navigation.rs:387`), with the status of
`task_snapshot.rs:545`. -/
def projectTaskSummary (task : ShownTask) (hasMessages workspaceAvailable : Bool) :
    TaskSummary where
  taskId := task.taskId
  projectId := values.projectId (task.projectRoot.getD task.workspaceRoot)
  agentId := task.agentId
  lifecycle := projectTaskLifecycle task.lifecycle
  title := task.title.effective
  status := projectStatusWithPreparation task.status task.preparation
    (task.liveBackgroundWork.getD {}).held
  updatedAt := task.updatedAt
  lastActivity := task.lastActivity
  unread := task.unread
  pinned := task.pinned
  attention := task.attention
  hasMessages
  worktreeId := task.worktreeId
  workspaceAvailable

/-- What a snapshot shows that no Task record holds. -/
structure Surroundings where
  workspaceAvailable : Bool
  historySync : JsonText
  pendingRequests : List JsonText
  subagents : JsonText

/-- `project_stored_task_snapshot_with_history_sync` (`task_snapshot.rs:504`), with what the callers
add to it. -/
def projectStoredTaskSnapshot (imaging : Imaging) (around : Surroundings) (task : ShownTask)
    (page : MessagePage) : TaskSnapshot where
  task := projectTaskSummary values task (0 < page.totalCount) around.workspaceAvailable
  permissionPolicy := task.permissionPolicy
  activeTurnStartedAt := task.activeTurnStartedAt
  backgroundCommands := (task.liveBackgroundWork.getD {}).commands
  lifecycle := projectTaskLifecycle task.lifecycle
  revision := task.revision
  preparation := preparationSnapshot task.preparation
  agentConfig := agentConfigSnapshot values task
  agentCommands := agentCommandsSnapshot values task
  sendCapability := sendCapability values task
  inputCapabilities := some task.supportsImageInput
  contextUsage := contextUsage values task
  currentPlan := task.currentPlan
  messageQueue := messageQueueSnapshot task.messageQueue
  subagents := around.subagents
  chat := projectChatPage imaging page
  historySync := around.historySync
  pendingRequests := around.pendingRequests
  recovery := none

end Sections

end TaskSnapshots

end OpenAide

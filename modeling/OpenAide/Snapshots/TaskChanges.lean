import OpenAide.Snapshots.TaskSnapshot

/-!
# Published Task changes

`tasks/mutation/commit.rs:629-784` and `commit/changed_fields.rs`: a committed mutation publishes
the sections of the Task snapshot that a table of record comparisons says may have changed. 
Streamed text commits a new revision of the record too (`task_journal/store.rs:360`), but publishes
Chat alone (`task_events.rs:119`).

The lemmas at the end say of each section that the table covers it: where the table sees no change,
the section is the same.  For the Task summary the table leaves out four inputs: `pinned`, the
lifecycle, whether there are messages, and whether a turn is active (`summary_eq_iff`).
-/

namespace OpenAide

open Library ChatProjection

namespace TaskSnapshots

/-! ## The table -/

/-- `ChangedFields` (`changed_fields.rs:4`). -/
structure ChangedFields where
  summary : Bool
  lifecycle : Bool
  preparation : Bool
  permissionPolicy : Bool
  agentConfig : Bool
  agentCommands : Bool
  sendCapability : Bool
  inputCapabilities : Bool
  contextUsage : Bool
  currentPlan : Bool
  messageQueue : Bool
  removed : Bool
  deriving DecidableEq

/-- `changed_fields` (`changed_fields.rs:19`). -/
def changedFields (original task : ShownTask) : ChangedFields :=
  let preparation := original.preparation ≠ task.preparation
  { summary := original.title.effective ≠ task.title.effective
      ∨ original.status ≠ task.status
      ∨ original.unread ≠ task.unread
      ∨ original.attention ≠ task.attention
      ∨ original.activeTurnStartedAt ≠ task.activeTurnStartedAt
      ∨ original.backgroundWork ≠ task.backgroundWork
      ∨ original.updatedAt ≠ task.updatedAt
      ∨ original.lastActivity ≠ task.lastActivity
      ∨ original.agentId ≠ task.agentId
      ∨ original.workspaceRoot ≠ task.workspaceRoot
      ∨ original.messageHistoryVersion ≠ task.messageHistoryVersion
      ∨ preparation
    lifecycle := original.lifecycle ≠ task.lifecycle
    preparation
    permissionPolicy := original.permissionPolicy ≠ task.permissionPolicy
    agentConfig := preparation
      ∨ original.configOptionsCatalog ≠ task.configOptionsCatalog
      ∨ original.configMutation ≠ task.configMutation
      ∨ original.modelId ≠ task.modelId
      ∨ original.nativeSessionDataFreshness.config ≠ task.nativeSessionDataFreshness.config
    agentCommands := preparation
      ∨ original.agentCommandsCatalog ≠ task.agentCommandsCatalog
      ∨ original.nativeSessionDataFreshness.commands ≠ task.nativeSessionDataFreshness.commands
    sendCapability := preparation
      ∨ original.status ≠ task.status
      ∨ original.configMutation.preferences ≠ task.configMutation.preferences
    inputCapabilities := original.supportsImageInput ≠ task.supportsImageInput
    contextUsage := original.contextUsage ≠ task.contextUsage
      ∨ original.lastTurnUsage ≠ task.lastTurnUsage
    currentPlan := original.currentPlan ≠ task.currentPlan
    messageQueue := original.messageQueue ≠ task.messageQueue
    removed := !original.tombstoned && task.tombstoned }

/-! ## Changes -/

/-- `TaskChanges` (`events.rs:160`). -/
structure TaskChanges where
  task : Option TaskSummary := none
  activeTurnStartedAt : Option (Option String) := none
  backgroundCommands : Option (List TaskBackgroundCommand) := none
  lifecycle : Option Lifecycle := none
  preparation : Option PreparationSnapshot := none
  permissionPolicy : Option TaskPermissionPolicy := none
  agentConfig : Option AgentConfigSnapshot := none
  agentCommands : Option AgentCommandsSnapshot := none
  sendCapability : Option SendCapabilitySnapshot := none
  inputCapabilities : Option Bool := none
  contextUsage : Option (Option ContextUsageSnapshot) := none
  currentPlan : Option (Option (List JsonText)) := none
  messageQueue : Option MessageQueueSnapshot := none
  chat : List TaskChatChange := []
  removed : Bool := false
  deriving DecidableEq

/-- `bool::then_some`. -/
def sent {α : Type} (changed : Bool) (section' : α) : Option α :=
  if changed then some section' else none

/-- `project_committed_changes` (`commit.rs:730`). -/
def projectCommittedChanges (imaging : Imaging) (summarized : ToolStep → ToolStep)
    (task : TaskSnapshot) (p : TaskProjection) (fields : ChangedFields)
    (chat : List CommittedChatChange) : TaskChanges where
  task := sent fields.summary task.task
  activeTurnStartedAt := sent fields.summary task.activeTurnStartedAt
  backgroundCommands := sent fields.summary task.backgroundCommands
  lifecycle := sent fields.lifecycle task.lifecycle
  preparation := sent fields.preparation task.preparation
  permissionPolicy := sent fields.permissionPolicy task.permissionPolicy
  agentConfig := sent fields.agentConfig task.agentConfig
  agentCommands := sent fields.agentCommands task.agentCommands
  sendCapability := sent fields.sendCapability task.sendCapability
  inputCapabilities := (sent fields.inputCapabilities task.inputCapabilities).join
  contextUsage := sent fields.contextUsage task.contextUsage
  currentPlan := sent fields.currentPlan task.currentPlan
  messageQueue := sent fields.messageQueue task.messageQueue
  chat := chat.map (projectChatChange imaging summarized p)
  removed := fields.removed

/-! ## Commits -/

/-- A commit that gives a Task its next revision: a mutation with the record it drafted, the rows it
left and the changes it recorded, or streamed text with the rows it was appended to. -/
inductive TaskCommit where
  | mutation (draft : ShownTask) (refreshMessageHistory : Bool) (p : TaskProjection)
      (chat : List CommittedChatChange)
  | streamedText (updatedAt : String) (texts : List (String × String))

namespace TaskCommit

/-- The committed record.  A mutation that draws another version of its own is refused
(`validate_task_invariants`), and so is a revision that does not fit. -/
def record (original : ShownTask) : TaskCommit → ShownTask
  | mutation draft refresh p _ =>
    { draft with
      messageHistoryVersion :=
        if refresh then p.messageMeta.version else draft.messageHistoryVersion
      taskVersion := draft.taskVersion + 1
      revision := original.revision + 1 }
  | streamedText updatedAt _ =>
    { original with
      taskVersion := original.taskVersion + 1
      revision := original.revision + 1
      updatedAt }

variable (values : StoredValues) (imaging : Imaging) (summarized : ToolStep → ToolStep)

/-- What is published: `persist_changed_projection` (`commit.rs:650`) and
`streamed_chat_changed`. -/
def published (workspaceAvailable : Bool) (original : ShownTask) (commit : TaskCommit) :
    TaskChanges :=
  match commit with
  | mutation _ _ p chat =>
    let task := commit.record original
    let around : Surroundings := ⟨workspaceAvailable, ⟨"idle"⟩, [], ⟨"none"⟩⟩
    -- `project_committed_task_state`: an empty page that only says whether there are messages
    let projected := projectStoredTaskSnapshot values imaging around task
      ⟨task.taskId, [], none, none, false, if p.messages.isEmpty then 0 else 1,
        task.messageHistoryVersion⟩
    projectCommittedChanges imaging summarized projected p (changedFields original task)
      (committedChat original.toTaskRecord task.toTaskRecord chat)
  | streamedText _ texts =>
    { chat := texts.map fun (messageId, text) => .appendText messageId text }

/-- What a commit leaves alone: the Task's id, its worktree and its Project root. -/
structure Keeps (original : ShownTask) (commit : TaskCommit) : Prop where
  taskId : (commit.record original).taskId = original.taskId
  worktreeId : (commit.record original).worktreeId = original.worktreeId
  projectRoot : (commit.record original).projectRoot = original.projectRoot

/-- The number of rows after the commit, from the number before: text goes to rows that exist. -/
def messageCount (before : Nat) : TaskCommit → Nat
  | mutation _ _ p _ => p.messages.length
  | streamedText _ _ => before

end TaskCommit

/-! ## Sections the table covers -/

section Covered

variable {values : StoredValues} {original task : ShownTask}

theorem eq_of_unchanged {α : Type} [DecidableEq α] {a b : α} (h : decide (a ≠ b) = false) : b = a :=
  (not_not.mp (of_decide_eq_false h)).symm

/-- What the table compares for the Task summary is as it was. -/
def SummaryKept (original task : ShownTask) : Prop :=
  original.title.effective = task.title.effective ∧ original.status = task.status ∧
    original.unread = task.unread ∧ original.attention = task.attention ∧
    original.activeTurnStartedAt = task.activeTurnStartedAt ∧
    original.backgroundWork = task.backgroundWork ∧ original.updatedAt = task.updatedAt ∧
    original.lastActivity = task.lastActivity ∧ original.agentId = task.agentId ∧
    original.workspaceRoot = task.workspaceRoot ∧
    original.messageHistoryVersion = task.messageHistoryVersion ∧
    original.preparation = task.preparation

theorem summary_eq_false_iff :
    (changedFields original task).summary = false ↔ SummaryKept original task := by
  simp [changedFields, SummaryKept]

theorem agentConfig_of_unchanged (h : (changedFields original task).agentConfig = false) :
    agentConfigSnapshot values task = agentConfigSnapshot values original := by
  simp only [changedFields, decide_eq_false_iff_not, not_or, not_not] at h
  obtain ⟨hpreparation, hcatalog, hmutation, -, hfreshness⟩ := h
  simp only [agentConfigSnapshot, agentConfigOptions, pendingConfigChange, configPreferences,
    hpreparation, hcatalog, hmutation, hfreshness]
  congr

theorem agentCommands_of_unchanged (h : (changedFields original task).agentCommands = false) :
    agentCommandsSnapshot values task = agentCommandsSnapshot values original := by
  simp only [changedFields, decide_eq_false_iff_not, not_or, not_not] at h
  obtain ⟨hpreparation, hcatalog, hfreshness⟩ := h
  simp only [agentCommandsSnapshot, hpreparation, hcatalog, hfreshness]

theorem sendCapability_of_unchanged (h : (changedFields original task).sendCapability = false) :
    sendCapability values task = sendCapability values original := by
  simp only [changedFields, decide_eq_false_iff_not, not_or, not_not] at h
  obtain ⟨hpreparation, hstatus, hpreferences⟩ := h
  simp only [sendCapability, configPreferences, hpreparation, hstatus, hpreferences]

theorem contextUsage_of_unchanged (h : (changedFields original task).contextUsage = false) :
    contextUsage values task = contextUsage values original := by
  simp only [changedFields, decide_eq_false_iff_not, not_or, not_not] at h
  obtain ⟨husage, hturn⟩ := h
  simp only [contextUsage, husage, hturn]

/-- Background Work that shows if a turn is active: commands, or a status of its own. -/
def ShowsWork (task : ShownTask) : Prop :=
  task.status = .active ∧ ∃ work, task.backgroundWork = some work ∧
    (work.commands ≠ [] ∨ (work.held = true ∧ task.preparation.isRunning = false))

/-- What of the summary the table does not compare. -/
structure Unseen (original task : ShownTask) (hadMessages hasMessages : Bool) : Prop where
  pinned : task.pinned = original.pinned
  lifecycle : projectTaskLifecycle task.lifecycle = projectTaskLifecycle original.lifecycle
  messages : hasMessages = hadMessages
  turn : ShowsWork task → task.activeTurnId.isSome = original.activeTurnId.isSome

theorem work_eq_iff (hstatus : original.status = task.status)
    (hwork : original.backgroundWork = task.backgroundWork)
    (hpreparation : original.preparation = task.preparation) :
    (projectStatusWithPreparation task.status task.preparation
        (task.liveBackgroundWork.getD {}).held =
      projectStatusWithPreparation original.status original.preparation
        (original.liveBackgroundWork.getD {}).held ∧
      (task.liveBackgroundWork.getD {}).commands = (original.liveBackgroundWork.getD {}).commands) ↔
    (ShowsWork task → task.activeTurnId.isSome = original.activeTurnId.isSome) := by
  simp only [ShownTask.liveBackgroundWork, hstatus, hwork, hpreparation, ShowsWork]
  by_cases hactive : task.status = .active
  · cases hbackground : task.backgroundWork with
    | none => simp
    | some work =>
      cases task.activeTurnId with
      | none =>
        cases original.activeTurnId with
        | none => simp
        | some _ =>
          cases hheld : work.held <;> cases hrunning : task.preparation.isRunning <;>
            simp [projectStatusWithPreparation, projectStatus, hactive, hheld, hrunning,
              eq_comm (a := [])]
      | some _ =>
        cases original.activeTurnId with
        | none =>
          cases hheld : work.held <;> cases hrunning : task.preparation.isRunning <;>
            simp [projectStatusWithPreparation, projectStatus, hactive, hheld, hrunning]
        | some _ => simp
  · simp [hactive]

/-- **Where the table sees no change of the summary**, the summary and the commands are the same
exactly if what it does not compare is. -/
theorem summary_eq_iff (values : StoredValues) (hadMessages hasMessages available available' : Bool)
    (h : (changedFields original task).summary = false) (hid : task.taskId = original.taskId)
    (hworktree : task.worktreeId = original.worktreeId)
    (hroot : task.projectRoot = original.projectRoot) :
    ({ projectTaskSummary values original hadMessages available with
          workspaceAvailable := available' } =
        projectTaskSummary values task hasMessages available' ∧
      (original.liveBackgroundWork.getD {}).commands = (task.liveBackgroundWork.getD {}).commands) ↔
    Unseen original task hadMessages hasMessages := by
  obtain ⟨htitle, hstatus, hunread, hattention, -, hwork, hupdated, hactivity, hagent, hworkspace,
    -, hpreparation⟩ := summary_eq_false_iff.mp h
  have hshown := work_eq_iff hstatus hwork hpreparation
  simp only [projectTaskSummary, TaskSummary.mk.injEq, htitle, hunread, hattention, hupdated,
    hactivity, hagent, hworkspace, hid, hworktree, hroot, true_and, and_true]
  constructor
  · rintro ⟨⟨hlifecycle, hstatus', hpinned, hmessages⟩, hcommands⟩
    exact ⟨hpinned.symm, hlifecycle.symm, hmessages.symm, hshown.mp ⟨hstatus'.symm, hcommands.symm⟩⟩
  · rintro ⟨hpinned, hlifecycle, hmessages, hturn⟩
    obtain ⟨hstatus', hcommands⟩ := hshown.mpr hturn
    exact ⟨⟨hlifecycle.symm, hstatus'.symm, hpinned.symm, hmessages.symm⟩, hcommands.symm⟩

end Covered

end TaskSnapshots

end OpenAide

import OpenAide.Snapshots.TaskChanges

/-!
# The client's Task replica

`stateIngestionTask.ts`: a client keeps a Task snapshot and applies the published changes of each
revision to it.  A section that a change carries replaces the one the client has; Chat changes are
applied one after another, and text for a row that is not loaded asks for a new baseline.

- `rebuild_sections`: every section but the summary and the commands arrives;
- `published_changes_rebuild_iff`: **when the changes of a commit give the snapshot of the committed
  record**, in every revisioned field but Chat;
- `archived_summary_stays_open`: an archive commit that leaves `updated_at` alone is not shown in
  the summary.
-/

namespace OpenAide

open Library ChatProjection TaskSnapshots

namespace TaskReplica

open TaskCommit

/-! ## Chat -/

/-- `appendTextToMessageParts`. -/
def appendTextToMessageParts (parts : List MessagePart) (text : String) : List MessagePart :=
  match parts.getLast? with
  | some (.text last) => parts.dropLast ++ [.text (last ++ text)]
  | _ => parts ++ [.text text]

/-- `appendChatItem`. -/
def appendChatItem (chat : ChatSnapshot) (item : ChatItemView) : ChatSnapshot :=
  { chat with items := chat.items ++ [item], hasMessages := true }

/-- `upsertChatItem`: an item the client does not have goes to the end. -/
def upsertChatItem (chat : ChatSnapshot) (item : ChatItemView) : ChatSnapshot :=
  let items := match chat.items.findIdx? (·.messageId = item.messageId) with
    | none => chat.items ++ [item]
    | some index => chat.items.set index item
  { chat with items, hasMessages := true }

/-- Why a client asks for a new baseline. -/
inductive Resync where
  | missingChatItem | taskRevisionGap
  deriving DecidableEq

/-- `updateChatItemText`. -/
def updateChatItemText (chat : ChatSnapshot) (messageId text : String) :
    Except Resync ChatSnapshot :=
  match chat.items.findIdx? (·.messageId = messageId) with
  | none => .error .missingChatItem
  | some index =>
    let items := chat.items.modify index fun item =>
      { item with parts := appendTextToMessageParts item.parts text }
    .ok { chat with items, hasMessages := chat.hasMessages || 0 < items.length }

/-- `applyChatChange`. -/
def applyChatChange (chat : ChatSnapshot) : TaskChatChange → Except Resync ChatSnapshot
  | .append item => .ok (appendChatItem chat item)
  | .upsert item => .ok (upsertChatItem chat item)
  | .appendText messageId text => updateChatItemText chat messageId text
  | .replace chat => .ok chat

/-! ## Tasks -/

/-- The sections of `applyTaskChanges`. -/
def applySections (task : TaskSnapshot) (revision : Nat) (changes : TaskChanges) : TaskSnapshot :=
  { task with
    revision
    task := changes.task.getD task.task
    activeTurnStartedAt := changes.activeTurnStartedAt.getD task.activeTurnStartedAt
    backgroundCommands := changes.backgroundCommands.getD task.backgroundCommands
    lifecycle := changes.lifecycle.getD task.lifecycle
    preparation := changes.preparation.getD task.preparation
    permissionPolicy := changes.permissionPolicy.getD task.permissionPolicy
    agentConfig := changes.agentConfig.getD task.agentConfig
    agentCommands := changes.agentCommands.getD task.agentCommands
    sendCapability := changes.sendCapability.getD task.sendCapability
    messageQueue := changes.messageQueue.getD task.messageQueue
    inputCapabilities := changes.inputCapabilities <|> task.inputCapabilities
    contextUsage := changes.contextUsage.getD task.contextUsage
    currentPlan := changes.currentPlan.getD task.currentPlan }

/-- `applyTaskChanges` (`stateIngestionTask.ts:76`). -/
def applyTaskChanges (task : TaskSnapshot) (revision : Nat) (changes : TaskChanges) :
    Except Resync TaskSnapshot := do
  let task := applySections task revision changes
  let chat ← changes.chat.foldlM applyChatChange task.chat
  return { task with chat }

/-- `updateTaskSnapshot` (`stateIngestionTask.ts:15`) for a `taskChanged` event of the Task. -/
def updateTaskSnapshot (task : TaskSnapshot) (revision : Nat) (changes : TaskChanges) :
    Except Resync TaskSnapshot :=
  if revision ≤ task.revision then .ok task
  else if revision ≠ task.revision + 1 then .error .taskRevisionGap
  else applyTaskChanges task revision changes

/-! ## Rebuilding the snapshot -/

/-- The fields that published changes keep up to date, Chat apart. -/
def revisioned (task : TaskSnapshot) : TaskSnapshot :=
  { task with
    task := { task.task with workspaceAvailable := false }
    chat := ⟨[], false, false, none, none⟩
    historySync := ⟨""⟩
    pendingRequests := []
    subagents := ⟨""⟩ }

theorem applyTaskChanges_eq_ok {task s : TaskSnapshot} {revision : Nat} {changes : TaskChanges}
    (h : applyTaskChanges task revision changes = .ok s) :
    revisioned s = revisioned (applySections task revision changes) := by
  obtain ⟨chat, -, heq⟩ := bind_eq_ok.mp h
  cases heq
  rfl

theorem getD_sent {α : Type} {changed : Bool} {old new : α} (h : changed = false → new = old) :
    (sent changed new).getD old = new := by
  cases changed with
  | true => rfl
  | false => exact (h rfl).symm

/-- When the changes of a commit give the snapshot of the record it leaves, `before` being the
number of rows before it: if nothing that is compared has changed, nothing else of the summary has.
-/
def Rebuilds (original : ShownTask) (before : Nat) : TaskCommit → Prop
  | commit@(.mutation _ _ p _) =>
    let task := commit.record original
    SummaryKept original task → Unseen original task (0 < before) (0 < p.messages.length)
  | .streamedText updatedAt _ => updatedAt = original.updatedAt

section Rebuild

variable {values : StoredValues} {imaging : Imaging} {summarized : ToolStep → ToolStep}
  {around around' : Surroundings}
  {original : ShownTask} {page page' : MessagePage}

theorem decide_messages (messages : List StoredMessage) :
    decide (0 < if messages.isEmpty then 0 else 1) = decide (0 < messages.length) := by
  cases messages <;> rfl

/-- Streamed text. -/
theorem rebuild_streamed (updatedAt : String) (texts : List (String × String))
    (hpage : page'.totalCount = page.totalCount) (available : Bool) :
    let commit := streamedText updatedAt texts
    revisioned (applySections (projectStoredTaskSnapshot values imaging around original page)
        (original.revision + 1) (commit.published values imaging summarized available original)) =
      revisioned (projectStoredTaskSnapshot values imaging around' (commit.record original) page') ↔
    updatedAt = original.updatedAt := by
  simp only [revisioned, applySections, published, record,
    projectStoredTaskSnapshot, projectTaskSummary, hpage]
  constructor
  · intro h
    exact (congrArg (fun s : TaskSnapshot => s.task.updatedAt) h).symm
  · rintro rfl
    rfl

theorem rebuild_sections (around' : Surroundings) (page' : MessagePage) (draft : ShownTask)
    (refresh available : Bool) (p : TaskProjection) (chat : List CommittedChatChange) :
    let commit := mutation draft refresh p chat
    let task := commit.record original
    let changes := commit.published values imaging summarized available original
    let projected := projectStoredTaskSnapshot values imaging around' task page'
    applySections (projectStoredTaskSnapshot values imaging around original page)
        (original.revision + 1) changes =
      { projected with
        task := changes.task.getD
          (projectTaskSummary values original (0 < page.totalCount) around.workspaceAvailable)
        backgroundCommands :=
          changes.backgroundCommands.getD (original.liveBackgroundWork.getD {}).commands
        subagents := around.subagents
        chat := projectChatPage imaging page
        historySync := around.historySync
        pendingRequests := around.pendingRequests } := by
  intro commit
  set task := (mutation draft refresh p chat).record original with htask
  have hactive : (changedFields original task).summary = false →
      task.activeTurnStartedAt = original.activeTurnStartedAt :=
    fun h => (summary_eq_false_iff.mp h).2.2.2.2.1.symm
  have hpreparation : (changedFields original task).preparation = false →
      preparationSnapshot task.preparation = preparationSnapshot original.preparation :=
    fun h => congrArg preparationSnapshot (eq_of_unchanged h)
  have hlifecycle : (changedFields original task).lifecycle = false →
      projectTaskLifecycle task.lifecycle = projectTaskLifecycle original.lifecycle :=
    fun h => congrArg projectTaskLifecycle (eq_of_unchanged h)
  have hpolicy : (changedFields original task).permissionPolicy = false →
      task.permissionPolicy = original.permissionPolicy := eq_of_unchanged
  have hplan : (changedFields original task).currentPlan = false →
      task.currentPlan = original.currentPlan := eq_of_unchanged
  have hqueue : (changedFields original task).messageQueue = false →
      messageQueueSnapshot task.messageQueue = messageQueueSnapshot original.messageQueue :=
    fun h => congrArg messageQueueSnapshot (eq_of_unchanged h)
  have hinput : ((sent (changedFields original task).inputCapabilities
      (some task.supportsImageInput)).join <|> some original.supportsImageInput) =
      some task.supportsImageInput := by
    cases h : (changedFields original task).inputCapabilities with
    | true => rfl
    | false =>
      exact congrArg some (eq_of_unchanged h).symm
  have hrevision : task.revision = original.revision + 1 := rfl
  simp only [commit, applySections, published, ← htask, projectCommittedChanges,
    projectStoredTaskSnapshot, getD_sent hactive, getD_sent hpreparation, getD_sent hlifecycle,
    getD_sent hpolicy, getD_sent hplan, getD_sent hqueue, hinput, hrevision,
    getD_sent agentConfig_of_unchanged, getD_sent agentCommands_of_unchanged,
    getD_sent sendCapability_of_unchanged, getD_sent contextUsage_of_unchanged]

theorem rebuild_mutation {draft : ShownTask} {refresh available : Bool} {p : TaskProjection}
    {chat : List CommittedChatChange}
    (hkeeps : (mutation draft refresh p chat).Keeps original)
    (hpage : page'.totalCount = p.messages.length) :
    let commit := mutation draft refresh p chat
    revisioned (applySections (projectStoredTaskSnapshot values imaging around original page)
        (original.revision + 1) (commit.published values imaging summarized available original)) =
      revisioned (projectStoredTaskSnapshot values imaging around' (commit.record original) page') ↔
    Rebuilds original page.totalCount commit := by
  intro commit
  rw [rebuild_sections around' page' draft refresh available p chat]
  set task := commit.record original with htask
  cases h : (changedFields original task).summary with
  | true =>
    refine iff_of_true ?_ fun hkept => ?_
    swap
    · rw [← summary_eq_false_iff, h] at hkept
      cases hkept
    simp only [commit, published, ← htask, projectCommittedChanges, h, sent, if_true,
      Option.getD_some, revisioned, projectStoredTaskSnapshot, projectTaskSummary, decide_messages,
      hpage]
  | false =>
    have hiff := summary_eq_iff values (decide (0 < page.totalCount))
      (decide (0 < p.messages.length)) around.workspaceAvailable false h hkeeps.taskId
      hkeeps.worktreeId hkeeps.projectRoot
    refine Iff.trans ?_ (hiff.trans ?_)
    · simp only [commit, published, ← htask, projectCommittedChanges, h, sent,
        Bool.false_eq_true, if_false, Option.getD_none, revisioned, projectStoredTaskSnapshot,
        hpage, TaskSnapshot.mk.injEq, true_and, and_true]
      rfl
    · exact ⟨fun hunseen _ => hunseen, fun hrebuilds => hrebuilds (summary_eq_false_iff.mp h)⟩

/-- **Published changes rebuild the snapshot** of the committed record in every revisioned field but
Chat exactly if the table of `changed_fields` saw a change of the summary or nothing of the summary
that it does not compare has changed; after streamed text, exactly if `updated_at` has not moved. -/
theorem published_changes_rebuild_iff (values : StoredValues) (imaging : Imaging)
    (summarized : ToolStep → ToolStep) (around around' : Surroundings) (available : Bool)
    (original : ShownTask) (page page' : MessagePage) (commit : TaskCommit)
    (hkeeps : commit.Keeps original)
    (hpage : page'.totalCount = commit.messageCount page.totalCount) (s : TaskSnapshot)
    (hs : applyTaskChanges (projectStoredTaskSnapshot values imaging around original page)
      (commit.record original).revision
      (commit.published values imaging summarized available original) = .ok s) :
    revisioned s =
        revisioned
          (projectStoredTaskSnapshot values imaging around' (commit.record original) page') ↔
      Rebuilds original page.totalCount commit := by
  rw [applyTaskChanges_eq_ok hs]
  cases commit with
  | mutation draft refresh p chat => exact rebuild_mutation hkeeps hpage
  | streamedText updatedAt texts => exact rebuild_streamed updatedAt texts hpage available

end Rebuild

namespace Example

def values : StoredValues where
  configOptions _ := []
  agentCommands _ := []
  pendingChange _ := ⟨0, "", "", .boolean false⟩
  preferences _ := ⟨.settled, 0⟩
  usage _ := ⟨0, 0, none⟩
  projectId root := root

/-- Messages without images. -/
abbrev imaging : Imaging := ChatImages.Example.plain

def around : Surroundings := ⟨true, ⟨"idle"⟩, [], ⟨"none"⟩⟩

/-- An Open Task without messages. -/
def task : ShownTask where
  taskId := "t"
  status := .inactive
  taskVersion := 1
  messageHistoryVersion := 0
  unread := false
  updatedAt := "1"
  lastActivity := "1"
  lifecycle := .open
  revision := 1
  agentId := "a"
  workspaceRoot := "/w"

def page : MessagePage := ⟨"t", [], none, none, false, 0, 0⟩

def projection : TaskProjection where
  task := task.toTaskRecord
  messages := []
  messageMeta := ⟨"t", 0, 0, "1", none, none⟩

/-- `TaskDeleteParams` with mode `Archive` (`task_commands.rs:62`): the lifecycle alone. -/
def archive : TaskCommit := .mutation { task with lifecycle := .archived } false projection []

/-- A title set by the user, with the time of it. -/
def rename : TaskCommit :=
  .mutation { task with title := .userOverride ⟨"x", .user⟩ none, updatedAt := "2" } false
    projection []

/-- What the client has after the commit. -/
def applied (commit : TaskCommit) : Except Resync TaskSnapshot :=
  applyTaskChanges (projectStoredTaskSnapshot values imaging around task page)
    (commit.record task).revision (commit.published values imaging id true task)

end Example

open Example

/-- A new title reaches the client. -/
theorem published_changes_rebuild_rename : ∃ s, applied rename = .ok s ∧
    revisioned s = revisioned (projectStoredTaskSnapshot values imaging
      around (rename.record task) page) := by
  refine ⟨_, rfl, ?_⟩
  have hiff := published_changes_rebuild_iff values imaging id around
    around true task page page rename ⟨rfl, rfl, rfl⟩ rfl _
    rfl
  exact hiff.mpr fun hkept => absurd hkept.1 (by decide +kernel)

/-- A Task is archived and `updated_at` does not move: the client's summary still calls it Open. -/
theorem archived_summary_stays_open : ∃ s, applied archive = .ok s ∧
    s.lifecycle = .archived ∧ s.task.lifecycle = .open ∧
    (projectStoredTaskSnapshot values imaging around
      (archive.record task) page).task.lifecycle = .archived := by
  refine ⟨_, rfl, ?_, ?_, ?_⟩ <;> decide +kernel

end TaskReplica

end OpenAide

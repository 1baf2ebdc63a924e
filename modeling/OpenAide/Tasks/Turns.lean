import OpenAide.Storage.ChatImages
import OpenAide.Tasks.Mutation

/-!
# Turns and queued messages of a Task

Every change of a Task's turn, status and message queue is one commit: a closure that drafts on the
committed projection (`tasks/mutation/commit.rs`).  This module has the closures of Send and
steering (`product_api/send.rs`), of the queue operations (`product_api/queue.rs`,
`scheduled_queue.rs`), of the turn transitions (`tasks/transitions/`) and of questions and
permissions (`tasks/turn_events/`), and `TurnEvent.step`, which commits one of them.

What a closure finds outside the Task record (the clock, new ids, files, the request broker, the
cancellation of the turn) is an argument of its event.  Attention, background work, composer history
and titles are written by these commits and read by none of them; they are left out.

What a commit stores is its draft, with the images of the rows it wrote moved to files
(`externalize_operations`, `store.rs:347`); a commit whose images cannot be decoded fails.  Between
the two stands the journal: `Tasks.JournalOperations` is about when it reproduces the draft.
-/

namespace OpenAide

variable (ctx : TaskMutationContext)

namespace Turns

open Mutation ChatImages

/-! ## Commits -/

/-- `TaskMutationResult` (`mutation.rs`), with the draft if it is to be kept. -/
inductive Drafted where
  | changed (ctx : TaskMutationContext)
  | unchanged
  | rejected

abbrev Draft := TaskMutationContext → Except RuntimeError Drafted

/-- `validate_task_invariants` (`native_session_binding.rs:128`) when the session is preserved. -/
def validTask (original task : TaskRecord) : Bool :=
  task.taskId = original.taskId ∧ task.taskVersion = original.taskVersion ∧
    task.messageHistoryVersion = original.messageHistoryVersion ∧
    task.revision = original.revision ∧
    (original.agentSessionId = none ∨ task.agentSessionId = original.agentSessionId)

/-- The rows of a draft as they are stored: the images of the rows that it wrote are externalized,
and a row that it left alone is in none of its operations. -/
def writtenRows (imaging : Imaging) : (original draft : List StoredMessage) → List StoredMessage
  | row :: original, drafted :: draft =>
    (if drafted = row then row else storedRow imaging drafted) :: writtenRows imaging original draft
  | [], draft => draft.map (storedRow imaging)
  | _ :: _, [] => []

/-- The projection as `persist_changed_projection` stores it (`commit.rs:631`). -/
def persisted (imaging : Imaging) (refresh : Bool) (original draft : TaskProjection) :
    TaskProjection :=
  { draft with
    task := committedRecord refresh original.task draft
    messages := writtenRows imaging original.messages draft.messages }

/-- Archived history is not edited. -/
def archivedEdit (original task : TaskRecord) : Bool :=
  original.lifecycle.isArchived && task.lifecycle.isArchived && !task.tombstoned

/-- A draft goes through: it edits no archived history, keeps what a mutation may not touch, and the
images of its rows can be decoded. -/
def stores (imaging : Imaging) (p draft : TaskProjection) : Bool :=
  !archivedEdit p.task draft.task && validTask p.task draft.task &&
    draft.messages.all fun row => row ∈ p.messages ∨ AllDecode imaging row.chat.message

/-- `commit_existing_task` (`commit.rs:51`).  A mutation that fails or changes nothing leaves the
Task as it is, and so do edits of archived history. -/
def commitExistingTask (imaging : Imaging) (refresh : Bool) (p : TaskProjection)
    (mutation : Draft) : TaskProjection :=
  match mutation { projection := p } with
  | .ok (.changed ctx) =>
    if stores imaging p ctx.projection then persisted imaging refresh p ctx.projection else p
  | _ => p

/-- `ctx.task()`. -/
def task (ctx : TaskMutationContext) : TaskRecord := ctx.projection.task

/-- An edit through `ctx.task_mut()`. -/
def editTask (ctx : TaskMutationContext) (f : TaskRecord → TaskRecord) : TaskMutationContext :=
  ctx.perform (.editTask f)

/-- An edit of the record that stamps it. -/
def keepEdited (ctx : TaskMutationContext) (now : Nat) (f : TaskRecord → TaskRecord) :
    Except RuntimeError Drafted :=
  .ok (.changed (editTask ctx fun task => { f task with updatedAt := toString now }))

/-- A check that fails with an error. -/
def ensure (condition : Prop) [Decidable condition] (error : RuntimeError) :
    Except RuntimeError Unit :=
  if condition then .ok () else .error error

theorem ensure_eq_ok {condition : Prop} [Decidable condition] {error : RuntimeError} {u : Unit} :
    ensure condition error = .ok u ↔ condition := by
  unfold ensure
  split <;> simp_all

/-- `require_client_task_access` (`tasks/access.rs:7`). -/
def requireClientTaskAccess (task : TaskRecord) (client : String) : Except RuntimeError Unit :=
  match task.lifecycle with
  | .open | .archived => .ok ()
  | .prepared lease => if lease = some client then .ok () else .error (.taskNotFound task.taskId)

/-! ## The queue -/

/-- `revision.saturating_add(1)`. -/
def bumped (queue : TaskMessageQueueRecord) : TaskMessageQueueRecord :=
  { queue with revision := saturatingAdd queue.revision 1 }

/-- An edit of the queue with its revision. -/
def editQueue (f : TaskMessageQueueRecord → TaskMessageQueueRecord) (task : TaskRecord) :
    TaskRecord :=
  { task with messageQueue := bumped (f task.messageQueue) }

def MAX_QUEUE_ITEMS : Nat := 20

/-- Agent work is under way. -/
def working (status : TaskStatus) : Bool :=
  status ∈ [TaskStatus.starting, .active, .waiting, .stopping]

/-- `queue_append_message` (`queue.rs:58`): a message needs a text or an attachment (`queue.rs:87`),
and its commit (`queue.rs:94-146`). -/
def queueAppendMessage (client : String) (item : QueuedMessageRecord) (now : Nat) :
    Draft := fun ctx => do
  ensure (item.text ≠ "" ∨ item.chatAttachments ≠ [])
    (.invalidParams "Message text is required")
  requireClientTaskAccess (task ctx) client
  ensure (item.notBefore.isSome → (task ctx).lifecycle = .open)
    (.conflict "Send the first message before scheduling follow-ups")
  ensure (item.notBefore.isNone → working (task ctx).status)
    (.conflict "Queue is available only while Agent work is active")
  ensure ((task ctx).messageQueue.items.length < MAX_QUEUE_ITEMS)
    (.conflict "A Task Message Queue can contain at most 20 items")
  keepEdited ctx now (editQueue fun queue => { queue with items := queue.items ++ [item] })

/-- The place of an item. -/
def position (queue : TaskMessageQueueRecord) (queuedMessageId : String) :
    Except RuntimeError Nat :=
  match queue.items.findIdx? (·.queuedMessageId = queuedMessageId) with
  | some index => .ok index
  | none => .error (.conflict "Queued Message no longer exists")

/-- An empty queue is not paused. -/
def unpauseIfEmpty (queue : TaskMessageQueueRecord) : TaskMessageQueueRecord :=
  if queue.items.isEmpty then { queue with pause := none } else queue

/-- Removes one item from the queue a client has seen. -/
def removeObserved (client queuedMessageId : String) (queueRevision now : Nat) :
    Draft := fun ctx => do
  requireClientTaskAccess (task ctx) client
  ensure ((task ctx).messageQueue.revision = queueRevision) (.conflict "Task Message Queue changed")
  let index ← position (task ctx).messageQueue queuedMessageId
  keepEdited ctx now
    (editQueue fun queue => unpauseIfEmpty { queue with items := queue.items.eraseIdx index })

/-- The commit of `queue_remove_message` (`queue.rs:193-224`). -/
def queueRemoveMessage := removeObserved

/-- The commit of `queue_take_message` (`queue.rs:284-311`). -/
def queueTakeMessage := removeObserved

/-- The commit of `queue_move_message` (`queue.rs:385-397, 429-440`).  The revision the client saw
is not looked at: a move applies to the latest queue. -/
def queueMoveMessage (client queuedMessageId : String) (targetIndex _queueRevision now : Nat) :
    Draft :=
  fun ctx => do
    requireClientTaskAccess (task ctx) client
    let source ← position (task ctx).messageQueue queuedMessageId
    match (task ctx).messageQueue.items[source]? with
    | none => .ok .unchanged   -- `source` is a position
    | some item =>
      keepEdited ctx now (editQueue fun queue =>
        let rest := queue.items.eraseIdx source
        { queue with items := rest.insertIdx (min targetIndex rest.length) item })

/-- The commit of `resume_scheduled_queue` (`scheduled_queue.rs:84-108`). -/
def resumeScheduledQueue (queueRevision : Nat) : Draft := fun ctx => do
  ensure ((task ctx).messageQueue.revision = queueRevision) (.conflict "Task Message Queue changed")
  ensure ((task ctx).status = .inactive ∧ (task ctx).messageQueue.items ≠ [])
    (.conflict "Queue cannot be resumed")
  if (task ctx).messageQueue.pause.isNone then .ok .unchanged
  else .ok (.changed (editTask ctx (editQueue fun queue => { queue with pause := none })))

/-- The commit of a delivery that failed (`scheduled_queue.rs:276-291`). -/
def pauseFailedDelivery (queuedMessageId : String) (pause : TaskMessageQueuePauseRecord) : Draft :=
  fun ctx =>
    if (task ctx).messageQueue.items.any (·.queuedMessageId = queuedMessageId) ∧
        (task ctx).activeTurnId = none then
      .ok (.changed (editTask ctx (editQueue fun queue => { queue with pause := some pause })))
    else .ok .unchanged

/-! ## Sending -/

/-- `TaskQueueSendSelection`. -/
structure TaskQueueSendSelection where
  queuedMessageId : String
  queueRevision : Nat

/-- The attachments of the queued message a Send selects, as it reads the Task before it commits
(`send.rs:101-121`, `queue.rs:167`).  That their files are there is found out on the way. -/
def selectedAttachments (task : TaskRecord) (selection : TaskQueueSendSelection)
    (promptText : String) : Except RuntimeError (List Attachment) := do
  ensure (task.messageQueue.revision = selection.queueRevision)
    (.conflict "Task Message Queue changed")
  match task.messageQueue.items.find? (·.queuedMessageId = selection.queuedMessageId) with
  | none => .error (.conflict "Queued Message no longer exists")
  | some queued => do
    ensure (queued.text = promptText) (.conflict "Queued Message changed")
    return queued.chatAttachments

/-- `consume_selected_queue_message` (`send.rs:472`). -/
def consumeSelectedQueueMessage (task : TaskRecord) (selection : Option TaskQueueSendSelection)
    (promptText : String) : Except RuntimeError TaskRecord :=
  match selection with
  | none => .ok task
  | some selection => do
    ensure (task.messageQueue.revision = selection.queueRevision)
      (.conflict "Task Message Queue changed")
    let index ← position task.messageQueue selection.queuedMessageId
    ensure ((task.messageQueue.items[index]?.map (·.text)) = some promptText)
      (.conflict "Queued Message changed")
    return editQueue (fun queue => { queue with items := queue.items.eraseIdx index }) task

/-- `clear_queue_pause` (`send.rs:499`). -/
def clearQueuePause (task : TaskRecord) (revisionBefore : Nat) : TaskRecord :=
  let queue := { task.messageQueue with pause := none }
  { task with
    messageQueue :=
      if task.messageQueue.pause.isSome ∧
        task.messageQueue.revision = revisionBefore then bumped queue
      else queue }

/-- `append_user_message` (`send/support.rs:14`). -/
def appendUserMessage (ctx : TaskMutationContext) (messageId text : String)
    (attachments : List Attachment) (now : Nat) : TaskMutationContext :=
  ctx.appendChatMessage
    { cursor := ""
      identity := "user:" ++ messageId
      messageType := "user"
      messageId
      message := .user { id := "user:" ++ messageId, text, createdAt := toString now, attachments }
      timing := {} } now

/-- `append_running_turn` (`send/support.rs:39`) with `running_turn_message` (`lifecycle.rs:15`). -/
def appendRunningTurn (ctx : TaskMutationContext) (turnId rowId : String) (now : Nat) :
    TaskMutationContext :=
  ctx.appendChatMessage
    { cursor := ""
      identity := "turn:" ++ turnId
      messageType := "activity"
      messageId := "message_" ++ rowId
      message := .activity
        { id := "turn:" ++ turnId, title := "Working", status := .running,
          createdAt := toString now, collapsed := true, steps := [.text "Started" (some "info")] }
      timing := {} } now

/-- What a Send carries to its commit. -/
structure Send where
  client : String
  selection : Option TaskQueueSendSelection
  promptText : String
  chatAttachments : List Attachment
  messageId : String
  now : Nat

/-- The queue and the user's row of an accepted message (`send.rs:181-195, 365-379`). -/
def acceptMessage (ctx : TaskMutationContext) (send : Send) :
    Except RuntimeError TaskMutationContext := do
  let queueRevisionBefore := (task ctx).messageQueue.revision
  let consumed ← consumeSelectedQueueMessage (task ctx) send.selection send.promptText
  let ctx := editTask ctx fun _ => clearQueuePause consumed queueRevisionBefore
  return appendUserMessage ctx send.messageId send.promptText send.chatAttachments send.now

/-- The commit of a Send that starts a turn (`send.rs:157-213`); `ready` says that
`reject_if_preparation_not_ready` does not reject the Task. -/
def sendMessage (send : Send) (turnId rowId : String) (ready : Bool) : Draft := fun ctx =>
  if (task ctx).tombstoned ∨ (requireClientTaskAccess (task ctx) send.client).toBool = false ∨
      (task ctx).activeTurnId.isSome ∨ !ready then .ok .rejected
  else do
    let ctx ← acceptMessage ctx send
    let ctx := appendRunningTurn ctx turnId rowId send.now
    return .changed (editTask ctx fun task =>
      { task with
        status := .starting
        lifecycle := .open
        activeTurnId := some turnId
        activeTurnStartedAt := some (toString send.now)
        updatedAt := toString send.now
        lastActivity := toString send.now })

/-- The commit of `accept_steering_message` (`send.rs:355-385`). -/
def acceptSteeringMessage (send : Send) (activeTurnId : String)
    (expectedSessionId : Option String) : Draft := fun ctx =>
  if (task ctx).tombstoned ∨ (requireClientTaskAccess (task ctx) send.client).toBool = false ∨
      (task ctx).status ≠ .active ∨ (task ctx).activeTurnId ≠ some activeTurnId ∨
      (task ctx).agentSessionId ≠ expectedSessionId then .ok .rejected
  else do
    let ctx ← acceptMessage ctx send
    return .changed (editTask ctx fun task =>
      { task with updatedAt := toString send.now, lastActivity := toString send.now })

/-! ## Ending work -/

/-- `ActiveWorkEnd` (`active_work_end.rs:15`), without the diagnostics that are only logged. -/
inductive ActiveWorkEnd where
  | userStopped
  | agentFailed
  | agentUnavailable
  | agentReported (message : String)
  | agentStartFailed
  | cancellationFailed
  | restarted
  | shutdown
  | supportRecovery
  deriving DecidableEq

namespace ActiveWorkEnd

/-- `ActiveWorkEnd::prompt_failed`. -/
def promptFailed : RuntimeError → ActiveWorkEnd
  | .authRequired _ | .setupRequired _ | .nodeJsRequired _ => agentUnavailable
  | .agentReported message => agentReported message
  | _ => agentFailed

/-- `ActiveWorkEnd::reason`. -/
def reason : ActiveWorkEnd → InterruptionReason
  | userStopped | shutdown | supportRecovery => .canceled
  | restarted => .backendUnavailable
  | agentFailed | agentUnavailable | agentReported _ | agentStartFailed | cancellationFailed =>
    .failed

/-- `ActiveWorkEnd::message`. -/
def message : ActiveWorkEnd → String
  | userStopped => "Task was stopped."
  | agentFailed | agentStartFailed => "Agent work stopped unexpectedly. Try again."
  | agentUnavailable => "The Agent is not signed in or set up. Finish that, then send again."
  | agentReported message => "The Agent stopped: " ++ message
  | cancellationFailed => "Unable to stop the Agent. Try again."
  | restarted => "Task was interrupted because OpenAIDE restarted."
  | shutdown => "Task was interrupted because OpenAIDE shut down."
  | supportRecovery => "Task was interrupted by support recovery because the Agent appeared stuck."

/-- How the queue is paused. -/
def pause : ActiveWorkEnd → TaskMessageQueuePauseRecord
  | restarted => .restarted
  | _ => .unsuccessfulTurn

end ActiveWorkEnd

/-- A queue that is not empty is paused (`active_work_end.rs:78`, `active_turn.rs:274`). -/
def pauseQueue (pause : TaskMessageQueuePauseRecord) (task : TaskRecord) : TaskRecord :=
  if task.messageQueue.items.isEmpty then task
  else editQueue (fun queue => { queue with pause := some pause }) task

/-- `apply_active_work_end` (`active_work_end.rs:69`). -/
def applyActiveWorkEnd (ctx : TaskMutationContext) (cause : ActiveWorkEnd) (rowId : String)
    (now : Nat) : TaskMutationContext :=
  let ctx := ctx.finishRunningActivities .interrupted now now
  let ctx := ctx.appendMessage (.interruption
    { id := rowId, reason := cause.reason, message := cause.message,
      createdAt := toString now, recoverable := true }) now
  let ctx := ctx.closeTurnOnLastRow (toString now) now
  editTask ctx fun task =>
    { pauseQueue cause.pause task with
      status := .inactive
      activeTurnId := none
      activeTurnStartedAt := none
      unread := true
      updatedAt := toString now
      lastActivity := toString now }

/-- `active_work_matches` (`active_work_end.rs:98`). -/
def activeWorkMatches (task : TaskRecord) : Option String → Bool
  | some expected => task.activeTurnId = some expected
  | none => task.activeTurnId.isSome ∨ working task.status

/-- The commit of `end_active_work` (`active_work_end.rs:37`). -/
def endActiveWork (expectedWorkId : Option String) (cause : ActiveWorkEnd) (rowId : String)
    (now : Nat) : Draft := fun ctx =>
  if activeWorkMatches (task ctx) expectedWorkId then
    .ok (.changed (applyActiveWorkEnd ctx cause rowId now))
  else .ok .unchanged

/-! ## Turns -/

/-- The commit of `mark_turn_running` (`active_turn.rs:30`). -/
def markTurnRunning (turnId : String) (now : Nat) : Draft := fun ctx =>
  if (task ctx).activeTurnId = some turnId ∧ (task ctx).status = .starting then
    keepEdited ctx now fun task => { task with status := .active }
  else .ok .unchanged

/-- The commit of `mark_turn_stopping` (`active_turn.rs:61`). -/
def markTurnStopping (turnId : String) (now : Nat) : Draft := fun ctx =>
  if (task ctx).activeTurnId = some turnId ∧ (task ctx).status ≠ .stopping then
    keepEdited ctx now fun task => { task with status := .stopping }
  else .ok .unchanged

/-- `mark_turn_stopping` returns true: the turn is the active one, whatever becomes of the
commit. -/
def stopAccepted (task : TaskRecord) (turnId : String) : Bool := task.activeTurnId = some turnId

/-- `AgentPromptOutcome`. -/
inductive AgentPromptOutcome where
  | endTurn
  | cancelled
  | maxTokens
  | maxTurnRequests
  | refusal
  | other (reason : String)
  deriving DecidableEq

/-- `append_prompt_outcome_activity` (`active_turn.rs:359`). -/
def appendPromptOutcomeActivity (ctx : TaskMutationContext) (outcome : AgentPromptOutcome)
    (rowId : String) (now : Nat) : TaskMutationContext :=
  let append (message : String) := ctx.appendMessage (.activity
    { id := rowId, title := "Agent stopped", status := .error, createdAt := toString now,
      collapsed := false, steps := [.text message (some "error")] }) now
  match outcome with
  | .maxTokens => append "The Agent reached its token limit."
  | .maxTurnRequests => append "The Agent reached its request limit."
  | .refusal => append "The Agent refused this request."
  | .other reason => append ("The Agent stopped: " ++ reason ++ ".")
  | .endTurn | .cancelled => ctx

/-- `queued_message_is_due` (`scheduled_queue.rs:45`). -/
def queuedMessageIsDue (item : QueuedMessageRecord) (now : Nat) : Bool :=
  item.notBefore.all fun time => (Library.parseU64 time).any (· ≤ now)

/-- A turn that a queued message starts. -/
structure Successor where
  turnId : String
  messageId : String
  rowId : String

/-- `accept_queued_turn` (`active_turn.rs:282`). -/
def acceptQueuedTurn (ctx : TaskMutationContext) (queued : QueuedMessageRecord) (next : Successor)
    (now : Nat) : TaskMutationContext :=
  let ctx := appendUserMessage ctx next.messageId queued.text queued.chatAttachments now
  let ctx := appendRunningTurn ctx next.turnId next.rowId now
  editTask ctx fun task =>
    { editQueue (fun queue => { queue with items := queue.items.eraseIdx 0 }) task with
      status := .starting
      activeTurnId := some next.turnId
      activeTurnStartedAt := some (toString now)
      updatedAt := toString now
      lastActivity := toString now }

/-- The queued message that follows a turn, if there is one to follow (`active_turn.rs:157-167`). -/
def dueHead (task : TaskRecord) (now : Nat) : Option QueuedMessageRecord :=
  if task.messageQueue.pause.isNone then
    task.messageQueue.items.head?.filter (queuedMessageIsDue · now)
  else none

/-- A turn that settled without a successor (`active_turn.rs:225-245`). -/
def settled (now : Nat) (task : TaskRecord) : TaskRecord :=
  { task with
    status := .inactive
    activeTurnId := none
    activeTurnStartedAt := none
    unread := true
    updatedAt := toString now
    lastActivity := toString now }

/-- How a turn's settlement is drafted, with the queued message it accepts as a successor. -/
structure Settlement where
  ctx : TaskMutationContext
  accepted : Option QueuedMessageRecord := none

/-- The settlement of a turn the Agent brought to an end (`active_turn.rs:151-246`); `available`
says that the files and images of the next queued message are. -/
def settleOutcome (ctx : TaskMutationContext) (outcome : AgentPromptOutcome)
    (successor : Option Successor) (available : QueuedMessageRecord → Bool) (rowId : String)
    (now : Nat) : Settlement :=
  match outcome with
  | .endTurn =>
    match successor, dueHead (task ctx) now with
    | some next, some queued =>
      if available queued then
        { ctx := acceptQueuedTurn ctx queued next now, accepted := some queued }
      else
        let pause := editQueue fun queue => { queue with pause := some .attachmentUnavailable }
        { ctx := editTask ctx fun task => settled now (pause task) }
    | _, _ => { ctx := editTask ctx (settled now) }
  | .cancelled =>
    { ctx := editTask ctx fun task => settled now (pauseQueue .unsuccessfulTurn task) }
  | outcome =>
    let ctx := appendPromptOutcomeActivity ctx outcome rowId now
    { ctx := editTask ctx fun task => settled now (pauseQueue .unsuccessfulTurn task) }

/-- The settlement of the active turn (`active_turn.rs:135-246`). -/
def settleTurn (ctx : TaskMutationContext) (turnId : String)
    (result : Except RuntimeError AgentPromptOutcome) (successor : Option Successor)
    (available : QueuedMessageRecord → Bool) (rowId : String) (now : Nat) : Settlement :=
  if (task ctx).status = .stopping then
    { ctx := applyActiveWorkEnd ctx
        (match result with
          | .ok _ => .userStopped
          | .error _ => .cancellationFailed) rowId now }
  else match result with
    | .error error => { ctx := applyActiveWorkEnd ctx (.promptFailed error) rowId now }
    | .ok outcome =>
      let ctx := ctx.closeTurnOnFinalAnswer (toString now) now
      let ctx := ctx.finishRunningActivity ("turn:" ++ turnId) .completed now now
      settleOutcome ctx outcome successor available rowId now

/-- The commit of `finish_turn_internal` (`active_turn.rs:116`). -/
def finishTurn (turnId : String) (result : Except RuntimeError AgentPromptOutcome)
    (successor : Option Successor) (available : QueuedMessageRecord → Bool) (rowId : String)
    (now : Nat) : Draft := fun ctx =>
  if (task ctx).activeTurnId = some turnId then
    .ok (.changed (settleTurn ctx turnId result successor available rowId now).ctx)
  else .ok .unchanged

/-! ## Questions and permissions -/

/-- The first commit of `handle_question` (`questions.rs:52-71`). -/
def questionWaiting (sessionId : String) (now : Nat) : Draft := fun ctx =>
  if (task ctx).agentSessionId = some sessionId then
    keepEdited ctx now fun task => { task with status := .waiting, unread := true }
  else .error (.invalidParams "elicitation session is not bound to this Task")

/-- The last commit of `handle_question` (`questions.rs:95-131`); `pending` is whether the broker
has a pending request of the Task, `stopped` whether the turn was cancelled. -/
def questionResolved (row : QuestionMessage) (pending stopped : Bool) (now : Nat) :
    Draft := fun ctx =>
  let ctx := ctx.appendMessage (.question row) now
  keepEdited ctx now fun task =>
    { task with
      status :=
        if !pending ∧ !stopped ∧ task.status = .waiting then
          if task.activeTurnId.isSome then .active else .inactive
        else task.status
      lastActivity := toString now }

/-- The commit of `mark_permission_waiting` (`permissions.rs:190`). -/
def permissionWaiting (turnId : String) (cancelled : Bool) (now : Nat) : Draft := fun ctx =>
  if (task ctx).activeTurnId = some turnId ∧ !cancelled then
    keepEdited ctx now fun task => { task with status := .waiting, unread := true }
  else .ok .unchanged

/-- The commit of `update_background_work` (`background_work.rs:13`).  Only the turn that is ending
reads the work itself; `changed` says that it differs, `held` that it holds the turn from now on. -/
def updateBackgroundWork (sessionId : String) (changed held : Bool) (now : Nat) :
    Draft := fun ctx =>
  if (task ctx).agentSessionId ≠ some sessionId ∨ (task ctx).activeTurnId = none ∨ !changed then
    .ok .unchanged
  else keepEdited ctx now fun task => { task with unread := task.unread || held }

/-- The tool a permission outcome is recorded on; none for a Subagent's. -/
structure LinkedTool where
  activityIdentity : String
  toolCallId : String
  outcome : ToolPermissionOutcome

/-- The commit of `persist_permission_resolution` (`permissions.rs:262-301`); `attention` is whether
another request still needs the user. -/
def permissionResolved (tool : Option LinkedTool) (pending stopped attention : Bool) (now : Nat) :
    Draft := fun ctx =>
  let resolve (ctx : TaskMutationContext) := keepEdited ctx now fun task =>
    { task with
      status := if !pending ∧ !stopped ∧ task.status = .waiting then .active else task.status
      unread := attention
      lastActivity := toString now }
  match tool with
  | none => resolve ctx
  | some tool =>
    if (changeFirst ctx.projection.messages tool.activityIdentity
        (recordInRow tool.toolCallId tool.outcome)).2.isEmpty then
      .error (.internal "permission request has no linked tool")
    else
      resolve (ctx.recordToolPermissionOutcome tool.activityIdentity tool.toolCallId
        tool.outcome now)

/-! ## Restarts -/

/-- `VolatileRecoveryPlan` (`task_recovery.rs:4`). -/
structure VolatileRecoveryPlan where
  interruptActiveTurn : Bool
  markLiveSessionDataStale : Bool
  clearPendingConfigChange : Bool

/-- `volatile_recovery_plan` (`task_recovery.rs:10`); without work there is no plan. -/
def volatileRecoveryPlan (task : TaskRecord) : VolatileRecoveryPlan where
  interruptActiveTurn := task.activeTurnId.isSome
  markLiveSessionDataStale :=
    (task.configOptionsCatalog.isSome || task.agentCommandsCatalog.isSome) &&
    !task.nativeSessionDataFreshness.isStale
  clearPendingConfigChange := task.configMutation.pending.isSome

def VolatileRecoveryPlan.hasWork (plan : VolatileRecoveryPlan) : Bool :=
  plan.interruptActiveTurn || plan.markLiveSessionDataStale || plan.clearPendingConfigChange

/-- The queue of a restarted Task (`recovery.rs:29-40`). -/
def pauseRestarted (task : TaskRecord) : TaskRecord :=
  if ¬task.messageQueue.items.isEmpty ∧ task.messageQueue.pause ≠ some .restarted then
    editQueue (fun queue => { queue with pause := some .restarted }) task
  else task

/-- The rest of the recovery (`recovery.rs:41-57`). -/
def retireVolatile (plan : VolatileRecoveryPlan) (task : TaskRecord) : TaskRecord :=
  let task := if plan.markLiveSessionDataStale then
    { task with
      nativeSessionDataFreshness := task.nativeSessionDataFreshness.markStale
      contextUsage := none
      lastTurnUsage := none } else task
  if plan.clearPendingConfigChange then
    { task with configMutation := { task.configMutation with pending := none } } else task

/-- One Task of `recover_volatile_runtime_state` (`recovery.rs:12`). -/
def recoverVolatileRuntimeState (rowId : String) (now : Nat) : Draft := fun ctx =>
  let plan := volatileRecoveryPlan (task ctx)
  if !plan.hasWork ∧ (task ctx).messageQueue.items.isEmpty then .ok .unchanged
  else
    let ctx := if plan.interruptActiveTurn then applyActiveWorkEnd ctx .restarted rowId now else ctx
    .ok (.changed (editTask ctx fun task => retireVolatile plan (pauseRestarted task)))

/-! ## Events -/

/-- A commit on the Task, with what it finds outside the record. -/
inductive TurnEvent where
  | queueAppend (client : String) (item : QueuedMessageRecord) (now : Nat)
  | queueRemove (client queuedMessageId : String) (queueRevision now : Nat)
  | queueTake (client queuedMessageId : String) (queueRevision now : Nat)
  | queueMove (client queuedMessageId : String) (targetIndex queueRevision now : Nat)
  | queueResume (queueRevision : Nat)
  | deliveryFailed (queuedMessageId : String) (pause : TaskMessageQueuePauseRecord)
  | send (message : Send) (turnId rowId : String) (ready : Bool)
  | steer (message : Send) (activeTurnId : String) (expectedSessionId : Option String)
  | turnRunning (turnId : String) (now : Nat)
  | turnStopping (turnId : String) (now : Nat)
  | turnFinished (turnId : String) (result : Except RuntimeError AgentPromptOutcome)
      (successor : Option Successor) (available : QueuedMessageRecord → Bool) (rowId : String)
      (now : Nat)
  | workEnded (expectedWorkId : Option String) (cause : ActiveWorkEnd) (rowId : String) (now : Nat)
  | questionWaiting (sessionId : String) (now : Nat)
  | questionResolved (row : QuestionMessage) (pending stopped : Bool) (now : Nat)
  | permissionWaiting (turnId : String) (cancelled : Bool) (now : Nat)
  | permissionResolved (tool : Option LinkedTool) (pending stopped attention : Bool) (now : Nat)
  | backgroundWork (sessionId : String) (changed held : Bool) (now : Nat)
  | restart (rowId : String) (now : Nat)

namespace TurnEvent

/-- The mutation an event commits. -/
def draft : TurnEvent → Draft
  | queueAppend client item now => queueAppendMessage client item now
  | queueRemove client id queueRevision now => queueRemoveMessage client id queueRevision now
  | queueTake client id queueRevision now => queueTakeMessage client id queueRevision now
  | queueMove client id targetIndex queueRevision now =>
    queueMoveMessage client id targetIndex queueRevision now
  | queueResume queueRevision => resumeScheduledQueue queueRevision
  | deliveryFailed id pause => pauseFailedDelivery id pause
  | send message turnId rowId ready => sendMessage message turnId rowId ready
  | steer message activeTurnId expectedSessionId =>
    acceptSteeringMessage message activeTurnId expectedSessionId
  | turnRunning turnId now => markTurnRunning turnId now
  | turnStopping turnId now => markTurnStopping turnId now
  | turnFinished turnId result successor available rowId now =>
    finishTurn turnId result successor available rowId now
  | workEnded expectedWorkId cause rowId now => endActiveWork expectedWorkId cause rowId now
  | questionWaiting sessionId now => Turns.questionWaiting sessionId now
  | questionResolved row pending stopped now => Turns.questionResolved row pending stopped now
  | permissionWaiting turnId cancelled now => Turns.permissionWaiting turnId cancelled now
  | permissionResolved tool pending stopped attention now =>
    Turns.permissionResolved tool pending stopped attention now
  | backgroundWork sessionId changed held now => updateBackgroundWork sessionId changed held now
  | restart rowId now => recoverVolatileRuntimeState rowId now

/-- Which commits carry the Chat's history version (`chat_commit_options`,
`durable_send_commit_options`). -/
def refreshes : TurnEvent → Bool
  | send .. | steer .. | turnFinished .. | workEnded .. | questionResolved ..
  | permissionResolved ..
  | restart .. => true
  | _ => false

/-- The Task after the commit of an event. -/
def step (imaging : Imaging) (event : TurnEvent) (p : TaskProjection) : TaskProjection :=
  commitExistingTask imaging event.refreshes p event.draft

/-- The Task after a sequence of commits. -/
def run (imaging : Imaging) (p : TaskProjection) (events : List TurnEvent) : TaskProjection :=
  events.foldl (fun p event => event.step imaging p) p

end TurnEvent

/-! ## What a commit leaves -/

/-- **A commit** leaves the Task as it was or stores the draft of its mutation. -/
theorem commit_cases (imaging : Imaging) (refresh : Bool) (p : TaskProjection) (mutation : Draft) :
    commitExistingTask imaging refresh p mutation = p ∨
      ∃ ctx, mutation { projection := p } = .ok (.changed ctx) ∧
        commitExistingTask imaging refresh p mutation =
          persisted imaging refresh p ctx.projection := by
  unfold commitExistingTask
  split
  · rename_i ctx hctx
    split
    · exact .inr ⟨ctx, hctx, rfl⟩
    · exact .inl rfl
  · exact .inl rfl

/-- A draft that is not refused is stored. -/
theorem commit_of_changed {imaging : Imaging} (refresh : Bool) {p : TaskProjection}
    {mutation : Draft} {ctx : TaskMutationContext}
    (h : mutation { projection := p } = .ok (.changed ctx))
    (hstores : stores imaging p ctx.projection) :
    commitExistingTask imaging refresh p mutation = persisted imaging refresh p ctx.projection := by
  simp only [commitExistingTask, h, hstores, if_true]

/-- Rows that a draft left alone are stored as they are. -/
theorem writtenRows_self (imaging : Imaging) (rows : List StoredMessage) :
    writtenRows imaging rows rows = rows := by
  induction rows with
  | nil => rfl
  | cons row rest ih => rw [writtenRows, if_pos rfl, ih]

@[simp] theorem task_editTask (f : TaskRecord → TaskRecord) :
    (editTask ctx f).projection.task = f ctx.projection.task := rfl

end Turns

namespace TaskMutationContext

open Mutation

/-! Operations on the rows leave the Task record alone. -/

@[simp] theorem task_recordChanged (messages changed : List StoredMessage) (now : Nat) :
    (ctx.recordChanged messages changed now).projection.task = ctx.projection.task := by
  unfold recordChanged
  split <;> rfl

@[simp] theorem task_appendMessage (message : NormalizedMessage) (now : Nat) :
    (ctx.appendMessage message now).projection.task = ctx.projection.task := rfl

@[simp] theorem task_recordToolPermissionOutcome (activityIdentity toolCallId : String)
    (outcome : ToolPermissionOutcome) (now : Nat) :
    (ctx.recordToolPermissionOutcome activityIdentity toolCallId outcome now).projection.task =
      ctx.projection.task :=
  task_recordChanged ctx _ _ now

@[simp] theorem task_finishRunningActivities (status : ActivityStatus) (observedAt now : Nat) :
    (ctx.finishRunningActivities status observedAt now).projection.task = ctx.projection.task :=
  task_recordChanged ctx _ _ now

@[simp] theorem task_finishRunningActivity (identity : String) (status : ActivityStatus)
    (observedAt now : Nat) :
    (ctx.finishRunningActivity identity status observedAt now).projection.task =
      ctx.projection.task :=
  task_recordChanged ctx _ _ now

@[simp] theorem task_closeTurnOnFinalAnswer (endedAt : String) (now : Nat) :
    (ctx.closeTurnOnFinalAnswer endedAt now).projection.task = ctx.projection.task := by
  unfold closeTurnOnFinalAnswer
  split
  · rfl
  · split <;> rfl

@[simp] theorem task_closeTurnOnLastRow (endedAt : String) (now : Nat) :
    (ctx.closeTurnOnLastRow endedAt now).projection.task = ctx.projection.task := by
  unfold closeTurnOnLastRow
  split <;> rfl

end TaskMutationContext

end OpenAide

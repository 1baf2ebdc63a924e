import OpenAide.Storage.Rows
import OpenAide.Storage.ToolArtifacts

/-!
# Drafting a Task mutation

`tasks/mutation.rs` and `tasks/mutation/observed_timing.rs`.  A mutation works on a private copy of
the Task's projection through a `TaskMutationContext`, which records what each operation did to the
Chat as a list of `CommittedChatChange`.  Times come from the clock and new message ids from
`uuid`; both are arguments of the operations here.

Every operation changes the rows in one of five ways and records it accordingly: `RowChange` lists
them, and `drafts_perform` says that there are no others.
-/

namespace OpenAide

open Library Projection ToolArtifacts

/-! ## Published changes -/

/-- `ChatItem` (`snapshot/chat.rs:25`). -/
structure ChatItem where
  messageId : String
  message : NormalizedMessage
  timing : Option ChatTiming
  deriving DecidableEq

/-- `project_chat_item` (`chat_projection.rs:25`). -/
def projectChatItem (chat : ChatMessage) : ChatItem where
  messageId := chat.messageId
  message := chat.message
  timing := if chat.timing.isEmpty then none else some chat.timing

/-- `CommittedChatChange` (`task_events.rs:9`). -/
inductive CommittedChatChange where
  | append (item : ChatItem)
  | upsert (item : ChatItem)
  | appendText (messageId text : String)
  | replace
  deriving DecidableEq

/-- The record that `persist_changed_projection` commits (`commit.rs:653-660`). -/
def committedRecord (refreshMessageHistory : Bool) (original : TaskRecord)
    (draft : TaskProjection) : TaskRecord :=
  { draft.task with
    messageHistoryVersion :=
      if refreshMessageHistory then draft.messageMeta.version else draft.task.messageHistoryVersion
    taskVersion := draft.task.taskVersion + 1
    revision := original.revision + 1 }

/-- The changes that it commits and publishes: a changed history version without a recorded change
is a replacement (`commit.rs:661-665`). -/
def committedChat (original task : TaskRecord) (chat : List CommittedChatChange) :
    List CommittedChatChange :=
  if task.messageHistoryVersion ≠ original.messageHistoryVersion ∧ chat.isEmpty then [.replace]
  else chat

/-! ## Observed timing -/

namespace ObservedTiming

/-- `first_observation` (`observed_timing.rs:20`). -/
def firstObservation (message : NormalizedMessage) : ChatTiming where
  sentAt := match message with
    | .user _ => some message.createdAt
    | _ => none
  run :=
    if message.isInProgress && !message.isAwaitingStart then some { startedAt := message.createdAt }
    else none

/-- `carried_over` (`observed_timing.rs:35`). -/
def carriedOver (existing : ChatTiming) (existingMessage replacement : NormalizedMessage)
    (now : String) : ChatTiming :=
  if existing.run.isNone && existingMessage.isAwaitingStart && replacement.isInProgress &&
      !replacement.isAwaitingStart then
    { existing with run := some { startedAt := now } }
  else
    { existing with
      run := existing.run.map fun run =>
        if replacement.isInProgress then { run with endedAt := none }
        else { run with endedAt := run.endedAt <|> some now } }

def finishStep (status : ActivityStatus) : ActivityStep → ActivityStep
  | .tool step => .tool (if step.status = .running then { step with status } else step)
  | .command step => .command (if step.status = .running then { step with status } else step)
  | .subagent step => .subagent (if step.status = .running then { step with status } else step)
  | step => step

/-- `finish_running_activity` (`observed_timing.rs:64`): the settled row, if it was running. -/
def finishRunningActivity (chat : ChatMessage) (status : ActivityStatus) (now : String) :
    Option ChatMessage :=
  match chat.message with
  | .activity m =>
    if m.status ≠ .running then none
    else some { chat with
      message := .activity { m with status, steps := m.steps.map (finishStep status) }
      timing := { chat.timing with
        run := chat.timing.run.map fun run => { run with endedAt := run.endedAt <|> some now } } }
  | _ => none

/-- `close_turn` (`observed_timing.rs:182`). -/
def closeTurn (stored : StoredMessage) (span : ObservedSpan) : StoredMessage :=
  { stored with
    chat := { stored.chat with timing := { stored.chat.timing with closedTurn := some span } } }

/-- The search of `close_turn_on_final_answer`, from the last row backwards to the last user
message: the rows with the answer closed, and the answer. -/
def closeFinalAnswer (span : ObservedSpan) :
    List StoredMessage → Option (List StoredMessage × StoredMessage)
  | [] => none
  | stored :: rest =>
    match stored.chat.message with
    | .user _ => none
    | .agentMessage { role := .agent, .. } =>
      some (closeTurn stored span :: rest, closeTurn stored span)
    | _ => (closeFinalAnswer span rest).map fun (rows, closed) => (stored :: rows, closed)

end ObservedTiming

/-! ## Rows -/

namespace Mutation

open ObservedTiming

/-- `cursor::from_sequence`. -/
def fromSequence (sequence : Nat) : String := "m:" ++ toString sequence

/-- The sequence of the next row; the addition wraps in a release build. -/
def nextSequence (messages : List StoredMessage) : Nat :=
  match messages.getLast? with
  | some stored => (stored.sequence + 1) % 2 ^ 64
  | none => 1

/-- `advance_message_meta` (`message_store.rs:316`). -/
def advanceMessageMeta (p : TaskProjection) (now minimumUpdatedAt : Nat) : TaskProjection :=
  let previous := (parseU128 p.messageMeta.localHistoryUpdatedAt).getD 0
  { p with
    messageMeta := {
      taskId := p.task.taskId
      version := max (saturatingAdd p.messageMeta.version 1) p.messages.length
      messageCount := p.messages.length
      localHistoryUpdatedAt :=
        toString (max (max now (min (previous + 1) (2 ^ 128 - 1))) minimumUpdatedAt)
      firstCursor := p.messages.head?.map (·.chat.cursor)
      lastCursor := p.messages.getLast?.map (·.chat.cursor) } }

/-- `append_agent_part` (`mutation.rs:443`): the message with the part, and whether the part was
text that went into the last one. -/
def appendAgentPart (existing incoming : NormalizedMessage) :
    Except RuntimeError (NormalizedMessage × Bool) :=
  match existing, incoming with
  | .agentMessage m, .agentMessage { role := role, parts := [part], .. } =>
    if m.role = role then
      match m.parts.getLast?, part with
      | some (.text _), .text chunk =>
        .ok (.agentMessage { m with parts := appendToLastPart chunk m.parts }, true)
      | _, part => .ok (.agentMessage { m with parts := m.parts ++ [part] }, false)
    else .error (.conflict "ACP message id changed content channel")
  | _, _ => .error (.conflict "ACP message id changed content channel")

def recordOutcome (outcome : ToolPermissionOutcome) :
    List ToolPermissionOutcome → List ToolPermissionOutcome
  | [] => [outcome]
  | existing :: rest =>
    if existing.requestId = outcome.requestId then outcome :: rest
    else existing :: recordOutcome outcome rest

/-- The outcome recorded on the first Tool step with the call id. -/
def recordInSteps (toolCallId : String) (outcome : ToolPermissionOutcome) :
    List ActivityStep → Option (List ActivityStep)
  | [] => none
  | .tool step :: rest =>
    if step.toolCallId = some toolCallId then
      some (.tool { step with
        permissionOutcomes := recordOutcome outcome step.permissionOutcomes } :: rest)
    else (recordInSteps toolCallId outcome rest).map (.tool step :: ·)
  | step :: rest => (recordInSteps toolCallId outcome rest).map (step :: ·)

def recordInRow (toolCallId : String) (outcome : ToolPermissionOutcome) (stored : StoredMessage) :
    Option StoredMessage :=
  match stored.chat.message with
  | .activity m =>
    (recordInSteps toolCallId outcome m.steps).map fun steps =>
      { stored with chat := { stored.chat with message := .activity { m with steps } } }
  | _ => none

def finishRow (status : ActivityStatus) (now : String) (stored : StoredMessage) :
    Option StoredMessage :=
  (finishRunningActivity stored.chat status now).map fun chat => { stored with chat }

/-- Change the first row with the identity where `f` has something to change: the rows, and the
changed one. -/
def changeFirst (messages : List StoredMessage) (identity : String)
    (f : StoredMessage → Option StoredMessage) : List StoredMessage × List StoredMessage :=
  match messages.find? (·.chat.identity = identity) with
  | none => (messages, [])
  | some stored =>
    match f stored with
    | none => (messages, [])
    | some changed => (updateFirst identity (fun _ => changed) messages, [changed])

end Mutation

/-! ## The context -/

/-- `TaskMutationContext` (`mutation.rs:89`). -/
structure TaskMutationContext where
  projection : TaskProjection
  artifactReplacements : List ToolArtifactReplacement := []
  terminalAppends : List ToolTerminalAppend := []
  chatChanges : List CommittedChatChange := []

namespace TaskMutationContext

open ObservedTiming Mutation

/-- How every operation on the rows ends: rows in place, metadata advanced, changes recorded. -/
def record (ctx : TaskMutationContext) (messages : List StoredMessage)
    (changes : List CommittedChatChange) (now : Nat) (minimumUpdatedAt : Nat := 0) :
    TaskMutationContext :=
  { ctx with
    projection := advanceMessageMeta { ctx.projection with messages } now minimumUpdatedAt
    chatChanges := ctx.chatChanges ++ changes }

def appended (stored : StoredMessage) : CommittedChatChange := .append (projectChatItem stored.chat)

def upserted (stored : StoredMessage) : CommittedChatChange := .upsert (projectChatItem stored.chat)

/-- Record the changed rows; without one, nothing happened. -/
def recordChanged (ctx : TaskMutationContext) (messages changed : List StoredMessage) (now : Nat) :
    TaskMutationContext :=
  if changed.isEmpty then ctx else ctx.record messages (changed.map upserted) now

def replaceArtifacts (ctx : TaskMutationContext) (replacements : List ToolArtifactReplacement) :
    TaskMutationContext :=
  { ctx with artifactReplacements := ctx.artifactReplacements ++ replacements }

/-- A row of its own identity at the end of the Chat. -/
def newRow (messages : List StoredMessage) (message : NormalizedMessage) (timing : ChatTiming) :
    StoredMessage where
  sequence := nextSequence messages
  chat := {
    cursor := fromSequence (nextSequence messages)
    messageId := message.identity
    identity := message.identity
    messageType := message.messageType
    message
    timing }

/-- `append_message` (`mutation.rs:112`). -/
def appendMessage (ctx : TaskMutationContext) (message : NormalizedMessage) (now : Nat) :
    TaskMutationContext :=
  let (message, replacements) := extractToolArtifacts message
  let messages := ctx.projection.messages
  let stored := newRow messages message (firstObservation message)
  (ctx.replaceArtifacts replacements).record (messages ++ [stored]) [appended stored] now

/-- `append_chat_message` (`mutation.rs:147`). -/
def appendChatMessage (ctx : TaskMutationContext) (message : ChatMessage) (now : Nat) :
    TaskMutationContext :=
  let messages := ctx.projection.messages
  let sequence := nextSequence messages
  let timing :=
    if message.timing.isEmpty then firstObservation message.message else message.timing
  let stored : StoredMessage :=
    { sequence, chat := { message with cursor := fromSequence sequence, timing } }
  ctx.record (messages ++ [stored]) [appended stored] now

/-- `append_terminal` (`mutation.rs:171`). -/
def appendTerminal (ctx : TaskMutationContext) (append : ToolTerminalAppend) :
    TaskMutationContext :=
  { ctx with terminalAppends := ctx.terminalAppends ++ [append] }

/-- `record_tool_permission_outcome` (`mutation.rs:185`). -/
def recordToolPermissionOutcome (ctx : TaskMutationContext) (activityIdentity toolCallId : String)
    (outcome : ToolPermissionOutcome) (now : Nat) : TaskMutationContext :=
  let (messages, changed) :=
    changeFirst ctx.projection.messages activityIdentity (recordInRow toolCallId outcome)
  ctx.recordChanged messages changed now

/-- The row an Agent update leaves in the place of `stored`. -/
def replacedRow (stored : StoredMessage) (message : NormalizedMessage) (observedAt : String) :
    StoredMessage :=
  let preserved := (message.preserveToolPermissionOutcomesFrom stored.chat.message)
    |>.preserveCreatedAtFrom stored.chat.message
  { stored with
    chat := {
      cursor := stored.chat.cursor
      messageId := stored.chat.messageId
      identity := message.identity
      messageType := message.messageType
      message := preserved
      timing := carriedOver stored.chat.timing stored.chat.message preserved observedAt } }

/-- `upsert_message_with_details` (`mutation.rs:207`). -/
def upsertMessageWithDetails (ctx : TaskMutationContext) (message : NormalizedMessage)
    (observedAt now : Nat) : TaskMutationContext :=
  let (message, replacements) := extractToolArtifacts message
  let ctx := ctx.replaceArtifacts replacements
  let messages := ctx.projection.messages
  match messages.find? (·.chat.identity = message.identity) with
  | some stored =>
    let changed := replacedRow stored message (toString observedAt)
    ctx.record (updateFirst message.identity (fun _ => changed) messages) [upserted changed] now
  | none =>
    let stored := newRow messages message (firstObservation message)
    ctx.record (messages ++ [stored]) [upserted stored] now

/-- `append_agent_message_part` (`mutation.rs:272`). -/
def appendAgentMessagePart (ctx : TaskMutationContext) (message : NormalizedMessage) (now : Nat) :
    Except RuntimeError TaskMutationContext := do
  let text := match message with
    | .agentMessage { parts := [.text text], .. } => text
    | _ => ""   -- never published: only a single text part is reported as appended text
  let messages := ctx.projection.messages
  match messages.find? (·.chat.identity = message.identity) with
  | some stored =>
    let (extended, textAppended) ← appendAgentPart stored.chat.message message
    let changed := { stored with chat := { stored.chat with message := extended } }
    let change :=
      if textAppended then .appendText changed.chat.messageId text else upserted changed
    return ctx.record (updateFirst message.identity (fun _ => changed) messages) [change] now
  | none =>
    let stored := newRow messages message {}
    return ctx.record (messages ++ [stored]) [appended stored] now

/-- `replace_messages_from_native_session` (`mutation.rs:342`); `newId` are the fresh UUIDs. -/
def replaceMessagesFromNativeSession (ctx : TaskMutationContext) (messages : List NormalizedMessage)
    (nativeUpdatedAt : Nat) (newId : Nat → String) (now : Nat) : TaskMutationContext :=
  let extracted := messages.map extractToolArtifacts
  -- a map collected from the rows keeps the last row of an identity
  let existing (identity : String) :=
    ctx.projection.messages.reverse.find? (·.chat.identity = identity)
  let rows := (extracted.map (·.1)).zipIdx.map fun (message, index) =>
    let (messageId, timing) := match existing message.identity with
      | some stored => (stored.chat.messageId, stored.chat.timing)
      | none => (newId index, {})
    { sequence := index + 1
      chat := {
        cursor := fromSequence (index + 1)
        messageId
        identity := message.identity
        messageType := message.messageType
        message
        timing } : StoredMessage }
  (ctx.replaceArtifacts (extracted.flatMap (·.2))).record rows [.replace] now nativeUpdatedAt

/-- `finish_running_activities` (`mutation.rs:388`), from the last row to the first. -/
def finishRunningActivities (ctx : TaskMutationContext) (status : ActivityStatus)
    (observedAt now : Nat) : TaskMutationContext :=
  let finish := finishRow status (toString observedAt)
  let messages := ctx.projection.messages
  ctx.recordChanged (messages.map fun stored => (finish stored).getD stored)
    (messages.reverse.filterMap finish) now

/-- `finish_running_activity` (`mutation.rs:411`). -/
def finishRunningActivity (ctx : TaskMutationContext) (identity : String)
    (status : ActivityStatus) (observedAt now : Nat) : TaskMutationContext :=
  let (messages, changed) :=
    changeFirst ctx.projection.messages identity (finishRow status (toString observedAt))
  ctx.recordChanged messages changed now

/-- `active_turn_span` (`observed_timing.rs:147`). -/
def activeTurnSpan (ctx : TaskMutationContext) (endedAt : String) : Option ObservedSpan :=
  ctx.projection.task.activeTurnStartedAt.map fun startedAt =>
    { startedAt, endedAt := some endedAt }

/-- `close_turn_on_final_answer` (`observed_timing.rs:108`). -/
def closeTurnOnFinalAnswer (ctx : TaskMutationContext) (endedAt : String) (now : Nat) :
    TaskMutationContext :=
  match ctx.activeTurnSpan endedAt with
  | none => ctx
  | some span =>
    match closeFinalAnswer span ctx.projection.messages.reverse with
    | none => ctx
    | some (rows, closed) => ctx.record rows.reverse [upserted closed] now

/-- `close_turn_on_last_row` (`observed_timing.rs:137`). -/
def closeTurnOnLastRow (ctx : TaskMutationContext) (endedAt : String) (now : Nat) :
    TaskMutationContext :=
  match ctx.activeTurnSpan endedAt, ctx.projection.messages.getLast? with
  | some span, some last =>
    ctx.record (ctx.projection.messages.dropLast ++ [closeTurn last span])
      [upserted (closeTurn last span)] now
  | _, _ => ctx

end TaskMutationContext

/-- An operation of the context with its arguments and the clock readings it takes. -/
inductive TaskMutation where
  /-- `task_mut`: any edit of the Task record. -/
  | editTask (f : TaskRecord → TaskRecord)
  | appendMessage (message : NormalizedMessage) (now : Nat)
  | appendChatMessage (message : ChatMessage) (now : Nat)
  | appendTerminal (append : ToolTerminalAppend)
  | recordToolPermissionOutcome (activityIdentity toolCallId : String)
      (outcome : ToolPermissionOutcome) (now : Nat)
  | upsertMessageWithDetails (message : NormalizedMessage) (observedAt now : Nat)
  | appendAgentMessagePart (message : NormalizedMessage) (now : Nat)
  | replaceMessagesFromNativeSession (messages : List NormalizedMessage) (nativeUpdatedAt : Nat)
      (newId : Nat → String) (now : Nat)
  | finishRunningActivities (status : ActivityStatus) (observedAt now : Nat)
  | finishRunningActivity (identity : String) (status : ActivityStatus) (observedAt now : Nat)
  | closeTurnOnFinalAnswer (endedAt : String) (now : Nat)
  | closeTurnOnLastRow (endedAt : String) (now : Nat)

namespace TaskMutationContext

/-- One operation; the one that can fail does so before it changes anything. -/
def perform (ctx : TaskMutationContext) : TaskMutation → TaskMutationContext
  | .editTask f => { ctx with projection := { ctx.projection with task := f ctx.projection.task } }
  | .appendMessage message now => ctx.appendMessage message now
  | .appendChatMessage message now => ctx.appendChatMessage message now
  | .appendTerminal append => ctx.appendTerminal append
  | .recordToolPermissionOutcome activityIdentity toolCallId outcome now =>
    ctx.recordToolPermissionOutcome activityIdentity toolCallId outcome now
  | .upsertMessageWithDetails message observedAt now =>
    ctx.upsertMessageWithDetails message observedAt now
  | .appendAgentMessagePart message now =>
    match ctx.appendAgentMessagePart message now with
    | .ok ctx => ctx
    | .error _ => ctx
  | .replaceMessagesFromNativeSession messages nativeUpdatedAt newId now =>
    ctx.replaceMessagesFromNativeSession messages nativeUpdatedAt newId now
  | .finishRunningActivities status observedAt now =>
    ctx.finishRunningActivities status observedAt now
  | .finishRunningActivity identity status observedAt now =>
    ctx.finishRunningActivity identity status observedAt now
  | .closeTurnOnFinalAnswer endedAt now => ctx.closeTurnOnFinalAnswer endedAt now
  | .closeTurnOnLastRow endedAt now => ctx.closeTurnOnLastRow endedAt now

/-- The draft a mutation leaves of a projection. -/
def draft (p : TaskProjection) (mutations : List TaskMutation) : TaskMutationContext :=
  mutations.foldl perform { projection := p }

end TaskMutationContext

/-! ## What an operation may do to the rows -/

/-- Rows rewritten in place, and only rows with one of the ids. -/
def Rewritten (ids : List String) (old new : List StoredMessage) : Prop :=
  List.Forall₂ (fun a b => b.SameKeys a ∧ (a.chat.messageId ∉ ids → b = a)) old new

/-- The ways in which an operation changes the rows, and what it records. -/
inductive RowChange (messages : List StoredMessage) :
    List StoredMessage → List CommittedChatChange → Prop where
  /-- A row is added without a look at the others. -/
  | append (stored : StoredMessage) :
      RowChange messages (messages ++ [stored]) [TaskMutationContext.appended stored]
  /-- A row is added because its identity is not there. -/
  | insert (stored : StoredMessage)
      (absent : stored.chat.identity ∉ messages.map (·.chat.identity)) :
      RowChange messages (messages ++ [stored]) [TaskMutationContext.upserted stored]
  /-- Rows are rewritten in place and recorded. -/
  | rewrite {rows : List StoredMessage} (changed : List StoredMessage)
      (rewritten : Rewritten (changed.map (·.chat.messageId)) messages rows)
      (present : ∀ c ∈ changed, c ∈ rows) :
      RowChange messages rows (changed.map TaskMutationContext.upserted)
  /-- Text goes to the end of the first row with the identity. -/
  | text {identity : String} {stored : StoredMessage} (text : String)
      (found : messages.find? (·.chat.identity = identity) = some stored)
      (ends : stored.EndsInText) :
      RowChange messages (updateFirst identity (appendToMessage text) messages)
        [.appendText stored.chat.messageId text]
  /-- The whole Chat is replaced. -/
  | replace (rows : List StoredMessage) : RowChange messages rows [.replace]

/-- What one operation does to a context: nothing to the Chat, or a recorded change of its rows. -/
inductive Drafts (ctx ctx' : TaskMutationContext) : Prop where
  | idle (chat : ctx'.projection.chat = ctx.projection.chat)
      (changes : ctx'.chatChanges = ctx.chatChanges)
  | recorded {changes : List CommittedChatChange}
      (rows : RowChange ctx.projection.messages ctx'.projection.messages changes)
      (nonempty : changes ≠ [])
      (changes : ctx'.chatChanges = ctx.chatChanges ++ changes)
      (heads : ctx'.projection.artifactHeads = ctx.projection.artifactHeads)

namespace Mutation

open TaskMutationContext ObservedTiming

theorem rewritten_refl (ids : List String) (messages : List StoredMessage) :
    Rewritten ids messages messages :=
  List.forall₂_same.mpr fun a _ => ⟨.refl a, fun _ => rfl⟩

variable {messages : List StoredMessage} {identity : String} {stored : StoredMessage}

theorem rewritten_updateFirst {changed : StoredMessage}
    (found : messages.find? (·.chat.identity = identity) = some stored)
    (hkeys : changed.SameKeys stored) :
    Rewritten [changed.chat.messageId] messages (updateFirst identity (fun _ => changed) messages) ∧
      changed ∈ updateFirst identity (fun _ => changed) messages := by
  induction messages with
  | nil => cases found
  | cons row rest ih =>
    by_cases hrow : row.chat.identity = identity
    · simp only [List.find?_cons, hrow, decide_true] at found
      cases found
      simp only [updateFirst, if_pos hrow]
      refine ⟨.cons ⟨hkeys, fun h => ?_⟩ (rewritten_refl _ rest), List.mem_cons_self⟩
      exact absurd (List.mem_singleton.mpr hkeys.messageId.symm) h
    · simp only [List.find?_cons, hrow, decide_false] at found
      simp only [updateFirst, if_neg hrow]
      exact ⟨.cons ⟨.refl row, fun _ => rfl⟩ (ih found).1, List.mem_cons_of_mem _ (ih found).2⟩

theorem rewritten_changeFirst {f : StoredMessage → Option StoredMessage}
    (hf : ∀ stored changed, f stored = some changed → changed.SameKeys stored)
    (messages : List StoredMessage) (identity : String) :
    Rewritten ((changeFirst messages identity f).2.map (·.chat.messageId)) messages
        (changeFirst messages identity f).1 ∧
      ∀ c ∈ (changeFirst messages identity f).2, c ∈ (changeFirst messages identity f).1 := by
  have hnone : Rewritten (([] : List StoredMessage).map (·.chat.messageId)) messages messages ∧
      ∀ c ∈ ([] : List StoredMessage), c ∈ messages :=
    ⟨rewritten_refl _ messages, fun c hc => (List.not_mem_nil hc).elim⟩
  unfold changeFirst
  split
  · exact hnone
  · rename_i stored found
    split
    · exact hnone
    · rename_i changed hchanged
      obtain ⟨hrows, hmem⟩ := rewritten_updateFirst found (hf stored changed hchanged)
      exact ⟨hrows, by simpa using hmem⟩

theorem sameKeys_recordInRow (toolCallId : String) (outcome : ToolPermissionOutcome)
    (stored changed : StoredMessage) (h : recordInRow toolCallId outcome stored = some changed) :
    changed.SameKeys stored := by
  unfold recordInRow at h
  split at h
  · obtain ⟨steps, -, rfl⟩ := Option.map_eq_some_iff.mp h
    exact ⟨rfl, rfl, rfl⟩
  · cases h

theorem sameKeys_finishRow (status : ActivityStatus) (now : String) (stored changed : StoredMessage)
    (h : finishRow status now stored = some changed) : changed.SameKeys stored := by
  obtain ⟨chat, hchat, rfl⟩ := Option.map_eq_some_iff.mp h
  unfold ObservedTiming.finishRunningActivity at hchat
  split at hchat
  · split at hchat
    · cases hchat
    · cases hchat
      exact ⟨rfl, rfl, rfl⟩
  · cases hchat

theorem rewritten_finishRows (status : ActivityStatus) (now : String)
    (messages : List StoredMessage) :
    Rewritten ((messages.reverse.filterMap (finishRow status now)).map (·.chat.messageId)) messages
        (messages.map fun stored => (finishRow status now stored).getD stored) ∧
      ∀ c ∈ messages.reverse.filterMap (finishRow status now),
        c ∈ messages.map fun stored => (finishRow status now stored).getD stored := by
  constructor
  · refine List.forall₂_map_right_iff.mpr (List.forall₂_same.mpr fun a ha => ?_)
    cases hfinish : finishRow status now a with
    | none => exact ⟨.refl a, fun _ => rfl⟩
    | some changed =>
      have hkeys := sameKeys_finishRow status now a changed hfinish
      refine ⟨hkeys, fun habsent =>
        absurd (List.mem_map.mpr ⟨changed, ?_, hkeys.messageId⟩) habsent⟩
      exact List.mem_filterMap.mpr ⟨a, List.mem_reverse.mpr ha, hfinish⟩
  · intro c hc
    obtain ⟨a, ha, hfinish⟩ := List.mem_filterMap.mp hc
    exact List.mem_map.mpr ⟨a, List.mem_reverse.mp ha, by rw [hfinish, Option.getD_some]⟩

theorem sameKeys_closeTurn (stored : StoredMessage) (span : ObservedSpan) :
    (closeTurn stored span).SameKeys stored := ⟨rfl, rfl, rfl⟩

variable {rows : List StoredMessage}

theorem rewritten_closeFinalAnswer {span : ObservedSpan} {closed : StoredMessage}
    (h : closeFinalAnswer span messages = some (rows, closed)) :
    Rewritten [closed.chat.messageId] messages rows ∧ closed ∈ rows := by
  induction messages generalizing rows with
  | nil => cases h
  | cons stored rest ih =>
    unfold closeFinalAnswer at h
    split at h
    · cases h
    · cases h
      refine ⟨.cons ⟨sameKeys_closeTurn stored span, fun habsent => ?_⟩ (rewritten_refl _ rest),
        List.mem_cons_self⟩
      exact absurd (List.mem_singleton_self _) habsent
    · obtain ⟨⟨rows', closed'⟩, hrest, heq⟩ := Option.map_eq_some_iff.mp h
      cases heq
      exact ⟨.cons ⟨.refl stored, fun _ => rfl⟩ (ih hrest).1, List.mem_cons_of_mem _ (ih hrest).2⟩

theorem rewritten_closeLast {last : StoredMessage} (span : ObservedSpan)
    (h : messages.getLast? = some last) :
    Rewritten [(closeTurn last span).chat.messageId] messages
      (messages.dropLast ++ [closeTurn last span]) := by
  obtain ⟨front, rfl⟩ := List.getLast?_eq_some_iff.mp h
  rw [List.dropLast_concat]
  refine List.rel_append (rewritten_refl _ front) (.cons ⟨sameKeys_closeTurn last span, ?_⟩ .nil)
  exact fun habsent => absurd (List.mem_singleton_self _) habsent

/-! ## One lemma per operation -/

variable (ctx : TaskMutationContext)

theorem drafts_record {b : TaskMutationContext} (hp : b.projection = ctx.projection)
    (hc : b.chatChanges = ctx.chatChanges) {changes : List CommittedChatChange}
    (h : RowChange ctx.projection.messages rows changes) (hne : changes ≠ [])
    (now minimumUpdatedAt : Nat) : Drafts ctx (b.record rows changes now minimumUpdatedAt) :=
  .recorded h hne (by rw [record, hc]) (by simp only [record, advanceMessageMeta, hp])

theorem drafts_recordChanged {changed : List StoredMessage}
    (hrows : Rewritten (changed.map (·.chat.messageId)) ctx.projection.messages rows)
    (hmem : ∀ c ∈ changed, c ∈ rows) (now : Nat) :
    Drafts ctx (ctx.recordChanged rows changed now) := by
  unfold recordChanged
  split
  · exact .idle rfl rfl
  · rename_i hne
    refine drafts_record ctx rfl rfl (.rewrite changed hrows hmem) ?_ now 0
    simpa using hne

theorem drafts_appendMessage (message : NormalizedMessage) (now : Nat) :
    Drafts ctx (ctx.appendMessage message now) :=
  drafts_record ctx (b := ctx.replaceArtifacts _) rfl rfl (.append _) (List.cons_ne_nil _ _) now 0

theorem drafts_appendChatMessage (message : ChatMessage) (now : Nat) :
    Drafts ctx (ctx.appendChatMessage message now) :=
  drafts_record ctx rfl rfl (.append _) (List.cons_ne_nil _ _) now 0

theorem sameKeys_replacedRow {message : NormalizedMessage}
    (h : stored.chat.identity = message.identity) (observedAt : String) :
    (replacedRow stored message observedAt).SameKeys stored :=
  ⟨rfl, h.symm, rfl⟩

theorem identity_of_find? (h : messages.find? (·.chat.identity = identity) = some stored) :
    stored.chat.identity = identity := by
  simpa using List.find?_some h

theorem absent_of_find? (h : messages.find? (·.chat.identity = identity) = none) :
    identity ∉ messages.map (·.chat.identity) := by
  intro hmem
  obtain ⟨stored, hstored, rfl⟩ := List.mem_map.mp hmem
  exact List.find?_eq_none.mp h stored hstored (decide_eq_true rfl)

theorem drafts_upsertMessageWithDetails (message : NormalizedMessage) (observedAt now : Nat) :
    Drafts ctx (ctx.upsertMessageWithDetails message observedAt now) := by
  unfold upsertMessageWithDetails
  simp only
  split
  · rename_i stored found
    have hkeys := sameKeys_replacedRow (identity_of_find? found) (toString observedAt)
    obtain ⟨hrows, hmem⟩ := rewritten_updateFirst found hkeys
    exact drafts_record ctx (b := ctx.replaceArtifacts _) rfl rfl
      (.rewrite [_] hrows (by simpa using hmem)) (List.cons_ne_nil _ _) now 0
  · rename_i absent
    exact drafts_record ctx (b := ctx.replaceArtifacts _) rfl rfl
      (.insert _ (absent_of_find? absent)) (List.cons_ne_nil _ _) now 0

theorem appendAgentPart_eq_ok {existing incoming extended : NormalizedMessage} {merged : Bool}
    (h : appendAgentPart existing incoming = .ok (extended, merged)) :
    merged = true → ∃ m i text last, existing = .agentMessage m ∧ incoming = .agentMessage i ∧
      i.parts = [.text text] ∧ m.parts.getLast? = some (.text last) ∧
      extended = .agentMessage { m with parts := appendToLastPart text m.parts } := by
  rintro rfl
  unfold appendAgentPart at h
  split at h
  · split at h
    · split at h
      · rename_i hlast
        cases h
        exact ⟨_, _, _, _, rfl, rfl, rfl, hlast, rfl⟩
      · cases h
    · cases h
  · cases h

theorem drafts_appendAgentMessagePart {message : NormalizedMessage} {now : Nat}
    {ctx' : TaskMutationContext} (h : ctx.appendAgentMessagePart message now = .ok ctx') :
    Drafts ctx ctx' := by
  unfold appendAgentMessagePart at h
  simp only at h
  split at h
  · rename_i stored found
    obtain ⟨⟨extended, merged⟩, hpart, heq⟩ := bind_eq_ok.mp h
    cases heq
    cases merged with
    | true =>
      obtain ⟨m, i, text, last, hm, rfl, hi, hlast, rfl⟩ := appendAgentPart_eq_ok hpart rfl
      have hrow : appendToMessage text stored = { stored with chat := { stored.chat with
          message := .agentMessage { m with parts := appendToLastPart text m.parts } } } := by
        simp only [appendToMessage, hm]
      obtain ⟨id, role, parts, createdAt⟩ := i
      cases hi
      simp only [if_true]
      rw [← hrow, ← updateFirst_found found]
      exact drafts_record ctx rfl rfl (.text text found ⟨m, last, hm, hlast⟩)
        (List.cons_ne_nil _ _) now 0
    | false =>
      have hkeys : ({ stored with chat := { stored.chat with message := extended } } :
          StoredMessage).SameKeys stored := ⟨rfl, rfl, rfl⟩
      obtain ⟨hrows, hmem⟩ := rewritten_updateFirst found hkeys
      exact drafts_record ctx rfl rfl (.rewrite [_] hrows (by simpa using hmem))
        (List.cons_ne_nil _ _) now 0
  · cases h
    exact drafts_record ctx rfl rfl (.append _) (List.cons_ne_nil _ _) now 0

theorem drafts_closeTurnOnFinalAnswer (endedAt : String) (now : Nat) :
    Drafts ctx (ctx.closeTurnOnFinalAnswer endedAt now) := by
  unfold closeTurnOnFinalAnswer
  split
  · exact .idle rfl rfl
  · split
    · exact .idle rfl rfl
    · rename_i rows closed hclose
      obtain ⟨hrows, hmem⟩ := rewritten_closeFinalAnswer hclose
      have hrows' : Rewritten [closed.chat.messageId] ctx.projection.messages rows.reverse := by
        rw [← ctx.projection.messages.reverse_reverse]
        exact List.rel_reverse hrows
      exact drafts_record ctx rfl rfl (.rewrite [closed] hrows' (by simpa using hmem))
        (List.cons_ne_nil _ _) now 0

theorem drafts_closeTurnOnLastRow (endedAt : String) (now : Nat) :
    Drafts ctx (ctx.closeTurnOnLastRow endedAt now) := by
  unfold closeTurnOnLastRow
  split
  · rename_i span last _ hlast
    exact drafts_record ctx rfl rfl (.rewrite [closeTurn last span] (rewritten_closeLast span hlast)
      (by simp)) (List.cons_ne_nil _ _) now 0
  · exact .idle rfl rfl

/-- **One operation of a mutation** leaves the Chat alone or records how it changed the rows. -/
theorem drafts_perform (mutation : TaskMutation) : Drafts ctx (ctx.perform mutation) := by
  cases mutation with
  | editTask f => exact .idle rfl rfl
  | appendMessage message now => exact drafts_appendMessage ctx message now
  | appendChatMessage message now => exact drafts_appendChatMessage ctx message now
  | appendTerminal append => exact .idle rfl rfl
  | recordToolPermissionOutcome activityIdentity toolCallId outcome now =>
    obtain ⟨hrows, hmem⟩ := rewritten_changeFirst (sameKeys_recordInRow toolCallId outcome)
      ctx.projection.messages activityIdentity
    exact drafts_recordChanged ctx hrows hmem now
  | upsertMessageWithDetails message observedAt now =>
    exact drafts_upsertMessageWithDetails ctx message observedAt now
  | appendAgentMessagePart message now =>
    simp only [perform]
    split
    · rename_i h
      exact drafts_appendAgentMessagePart ctx h
    · exact .idle rfl rfl
  | replaceMessagesFromNativeSession messages nativeUpdatedAt newId now =>
    exact drafts_record ctx (b := ctx.replaceArtifacts _) rfl rfl (.replace _)
      (List.cons_ne_nil _ _) now nativeUpdatedAt
  | finishRunningActivities status observedAt now =>
    obtain ⟨hrows, hmem⟩ :=
      rewritten_finishRows status (toString observedAt) ctx.projection.messages
    exact drafts_recordChanged ctx hrows hmem now
  | finishRunningActivity identity status observedAt now =>
    obtain ⟨hrows, hmem⟩ := rewritten_changeFirst
      (sameKeys_finishRow status (toString observedAt)) ctx.projection.messages identity
    exact drafts_recordChanged ctx hrows hmem now
  | closeTurnOnFinalAnswer endedAt now => exact drafts_closeTurnOnFinalAnswer ctx endedAt now
  | closeTurnOnLastRow endedAt now => exact drafts_closeTurnOnLastRow ctx endedAt now

end Mutation

end OpenAide

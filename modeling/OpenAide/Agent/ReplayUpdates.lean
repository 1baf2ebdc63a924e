import OpenAide.Library.Maps
import OpenAide.Protocol.Json
import OpenAide.Storage.ToolArtifacts

/-!
# Replayed session updates

The updates an Agent replays on `session/load`, and the parts of the replay that keep state of their
own beside the Chat rows:

- the tool calls seen so far (`agent/acp_tool_call_projection.rs`);
- Codex's Subagent lifecycle tools (`agent/acp_codex_subagent.rs`);
- the delegation rows rebuilt from a parent's session messages
  (`agent/acp_native_subagents_delegation.rs`);
- compactions (`agent/acp_compaction_projection.rs`).

What is only shown in a row (a tool's summary and details, a Subagent's identities, a plan's
entries) is a parameter, `Shown`: no function here reads it back.  So is the protocol crate's
`ToolCall::update`.
-/

namespace OpenAide.Replay

open Library ToolArtifacts

/-! ## Updates -/

/-- `MaybeUndefined`: a field left out, cleared, or set. -/
inductive MaybeUndefined (α : Type) where
  | undefined
  | null
  | value (a : α)

/-- `ContentBlock`; sounds and resources are shown as they are. -/
inductive ContentBlock where
  | text (text : String)
  | image (mimeType data : String) (uri : Option String)
  | other (shown : JsonText)

inductive ToolCallStatus where
  | pending | inProgress | completed | failed | other
  deriving DecidableEq

/-- `ToolCallContent`: a block, or a diff or terminal that is only shown. -/
inductive ToolCallContent where
  | content (block : ContentBlock)
  | shown (json : JsonText)

structure ToolCall where
  toolCallId : String
  title : String
  kind : String := "other"
  status : ToolCallStatus := .pending
  content : List ToolCallContent := []
  locations : List JsonText := []
  rawInput : Option Json := none
  rawOutput : Option Json := none
  metadata : Option Json := none

/-- `ToolCallUpdate` with its `ToolCallUpdateFields`. -/
structure ToolCallUpdate where
  toolCallId : String
  title : Option String := none
  kind : Option String := none
  status : Option ToolCallStatus := none
  content : Option (List ToolCallContent) := none
  locations : Option (List JsonText) := none
  rawInput : Option Json := none
  rawOutput : Option Json := none
  metadata : Option Json := none

inductive PlanEntryPriority where
  | high | medium | low | other
  deriving DecidableEq

inductive PlanEntryStatus where
  | pending | inProgress | completed | other
  deriving DecidableEq

structure PlanEntry where
  content : String
  priority : PlanEntryPriority
  status : PlanEntryStatus
  deriving DecidableEq

inductive AcpCompactionStatus where
  | inProgress | completed | failed | cancelled | other
  deriving DecidableEq

structure CompactionUpdate where
  compactionId : String
  status : AcpCompactionStatus
  summary : MaybeUndefined (List ContentBlock) := .undefined
  error : MaybeUndefined String := .undefined

inductive IdleStopReason where
  | endTurn | cancelled | error | refusal | maxTokens | maxTurnRequests | other
  deriving DecidableEq

inductive StateUpdate where
  | running
  | requiresAction
  | idle (stopReason : Option IdleStopReason)
  | unknown
  | other
  deriving DecidableEq

structure SubagentUpdate where
  sessionId : String
  title : MaybeUndefined String := .undefined
  description : MaybeUndefined String := .undefined
  state : MaybeUndefined StateUpdate := .undefined

structure SessionMessage where
  messageId : String
  senderSessionId : Option String
  recipientSessionId : Option String
  content : MaybeUndefined (List ContentBlock)

/-- `SessionUpdate`, as far as the replay tells its variants apart. -/
inductive SessionUpdate where
  | userMessageChunk (content : ContentBlock) (messageId : Option String)
  | agentMessageChunk (content : ContentBlock) (messageId : Option String)
  | agentThoughtChunk (content : ContentBlock) (messageId : Option String)
  | toolCall (toolCall : ToolCall)
  | toolCallUpdate (update : ToolCallUpdate)
  | plan (entries : List PlanEntry)
  | compactionUpdate (update : CompactionUpdate)
  | compactionSummaryChunk (compactionId : String) (content : ContentBlock)
  | subagentUpdate (update : SubagentUpdate)
  | sessionMessage (message : SessionMessage)
  | other

/-! ## Texts -/

/-- `text.trim().is_empty()`. -/
def blank (text : String) : Bool := text.toList.all isWhitespace

/-! ## Tool calls -/

abbrev ToolCallState := Assoc String ToolCall

/-- `tool_call_from_update` (`acp_tool_call_projection.rs:71`). -/
def toolCallFromUpdate (update : ToolCallUpdate) : ToolCall where
  toolCallId := update.toolCallId
  title := update.title.getD "Tool call"
  kind := update.kind.getD "other"
  status := update.status.getD .pending
  content := update.content.getD []
  locations := update.locations.getD []
  rawInput := update.rawInput
  rawOutput := update.rawOutput

/-- `merge_tool_call_update` (`acp_tool_call_projection.rs:30`), with `ToolCall::update` of the
protocol crate. -/
def mergeToolCallUpdate (updated : ToolCall → ToolCallUpdate → ToolCall) (toolCalls : ToolCallState)
    (update : ToolCallUpdate) : ToolCall × ToolCallState :=
  let toolCall := match toolCalls.get? update.toolCallId with
    | some toolCall => updated toolCall update
    | none => toolCallFromUpdate update
  (toolCall, toolCalls.insert update.toolCallId toolCall)

/-! ## Codex Subagents -/

/-- `AgentSubagent`. -/
structure AgentSubagent where
  toolCallId : String
  title : String
  threadId : String
  path : String
  activity : String
  status : ActivityStatus
  deriving DecidableEq

/-- `CodexSubagentProjection` (`acp_codex_subagent.rs:9`). -/
inductive CodexSubagentProjection where
  | event (subagent : AgentSubagent)
  | suppress
  | genericTool

abbrev CodexSubagentState := Assoc String AgentSubagent

/-- `activity_status` (`acp_codex_subagent.rs:226`). -/
def activityStatus : ToolCallStatus → ActivityStatus
  | .pending | .inProgress | .other => .running
  | .completed => .completed
  | .failed => .error

/-- `string_field` (`acp_codex_subagent.rs:140`). -/
def stringField (value : Option Json) (key : String) : Option String :=
  ((value.bind (Json.get? key)).bind Json.asStr).filter (· ≠ "")

structure SubagentFields where
  threadId : String
  path : String
  activity : String

/-- `parse_subagent_fields` (`acp_codex_subagent.rs:114`). -/
def parseSubagentFields (rawInput metadata : Option Json) : Option SubagentFields := do
  let metadata := (metadata.bind (Json.get? "codex")).bind (Json.get? "subagent")
  let threadId ← stringField metadata "threadId" <|> stringField rawInput "agentThreadId"
  let path ← stringField metadata "path" <|> stringField rawInput "agentPath"
  let activity ← stringField metadata "activity" <|> stringField rawInput "activityKind"
  return ⟨threadId, path, activity⟩

/-- `record` (`acp_codex_subagent.rs:88`). -/
def recordSubagent (state : CodexSubagentState) (subagent : AgentSubagent) :
    CodexSubagentProjection × CodexSubagentState :=
  if state.get? subagent.toolCallId = some subagent then (.suppress, state)
  else (.event subagent, state.insert subagent.toolCallId subagent)

/-- `project_tool_call` (`acp_codex_subagent.rs:29`). -/
def projectCodexToolCall (state : CodexSubagentState) (toolCall : ToolCall) :
    CodexSubagentProjection × CodexSubagentState :=
  match parseSubagentFields toolCall.rawInput toolCall.metadata with
  | none => (.genericTool, state)
  | some fields => recordSubagent state
      ⟨toolCall.toolCallId, toolCall.title, fields.threadId, fields.path, fields.activity,
        activityStatus toolCall.status⟩

/-- `project_tool_update` (`acp_codex_subagent.rs:46`). -/
def projectCodexToolUpdate (state : CodexSubagentState) (update : ToolCallUpdate) :
    CodexSubagentProjection × CodexSubagentState :=
  let existing := state.get? update.toolCallId
  let known := existing.map fun e => (⟨e.threadId, e.path, e.activity⟩ : SubagentFields)
  match parseSubagentFields update.rawInput update.metadata <|> known with
  | none => (.genericTool, state)
  | some fields => recordSubagent state
      ⟨update.toolCallId, (update.title <|> existing.map (·.title)).getD "Subagent",
        fields.threadId, fields.path, fields.activity,
        (update.status.map activityStatus <|> existing.map (·.status)).getD .completed⟩

/-- Whether `project_codex_collaboration` (`acp_codex_subagent.rs:145`) shows the call as a wait for
Subagents instead of a generic tool. -/
def isCodexWait (toolCall : ToolCall) : Bool :=
  match (toolCall.metadata.bind (Json.get? "codex")).bind (Json.get? "collaboration") with
  | some metadata => (metadata.get? "tool").bind Json.asStr = some "wait"
  | none =>
    toolCall.title = "wait" && toolCall.rawInput.any fun input =>
      -- one of the fields is there, and all of them are as they should be
      (stringField (some input) "senderThreadId").any (!blank ·) &&
      ((input.get? "receiverThreadIds").bind Json.asArray).any
        (·.all fun id => id.asStr.any (!blank ·)) &&
      (input.get? "agentsStates").any Json.isObject

/-! ## Delegation rows -/

/-- `AgentNativeSubagentState`. -/
inductive AgentNativeSubagentState where
  | running | completed | failed | cancelled | disconnected
  deriving DecidableEq

/-- `ChildDelegation` (`acp_native_subagents_delegation.rs:34`). -/
structure ChildDelegation where
  description : Option String := none
  launchId : Option String := none
  openLaunch : Option String := none
  reconnected : Bool := false

def DELEGATION_META_KEY : String := "openaideDelegationRow"

/-- `delegation_meta` (`acp_native_subagents_delegation.rs:262`). -/
def delegationMeta (toolName : String) : Json :=
  .object [("claudeCode", .object [("toolName", .string toolName)]),
  (DELEGATION_META_KEY, .bool true)]

/-- `is_delegation_row` (`acp_native_subagents_delegation.rs:254`). -/
def isDelegationRow (toolCall : ToolCall) : Bool :=
  (toolCall.metadata.bind (Json.get? DELEGATION_META_KEY)).bind Json.asBool = some true

/-- `launch_tool_call` (`acp_native_subagents_delegation.rs:200`). -/
def launchToolCall (messageId : String) (prompt : List ContentBlock) (title : String) :
    ToolCall where
  toolCallId := messageId
  title := title
  kind := "think"
  status := .inProgress
  content := prompt.map .content
  metadata := some (delegationMeta "Agent")

/-- `message_tool_call` (`acp_native_subagents_delegation.rs:213`). -/
def messageToolCall (messageId title toolName : String) (content : List ContentBlock) :
    ToolCall where
  toolCallId := messageId
  title := title
  kind := "other"
  status := .completed
  content := content.map .content
  metadata := some (delegationMeta toolName)

/-- `reply_update` (`acp_native_subagents_delegation.rs:227`). -/
def replyUpdate (launchId : String) (content : List ContentBlock) : ToolCallUpdate where
  toolCallId := launchId
  status := some .completed
  content := some (content.map .content)

/-- `close_update` (`acp_native_subagents_delegation.rs:238`). -/
def closeUpdate (launchId : String) (state : AgentNativeSubagentState) : ToolCallUpdate where
  toolCallId := launchId
  status := some (match state with
    | .completed => .completed
    | .running => .inProgress
    | .failed | .cancelled | .disconnected => .failed)

/-- A Tool row change for the parent's transcript: a call or an update of one. -/
inductive ToolRow where
  | call (toolCall : ToolCall)
  | update (update : ToolCallUpdate)

/-- The part of an id before `:reply`. -/
def stripReply (messageId : String) : Option String :=
  if ":reply".toList <:+ messageId.toList then
    some (.ofList (messageId.toList.dropLast.dropLast.dropLast.dropLast.dropLast.dropLast))
  else none

/-- `message_row` (`acp_native_subagents_delegation.rs:107`); `none` for a message to be ignored. -/
def ChildDelegation.messageRow (child : ChildDelegation) (name : String) (outgoing : Bool)
    (messageId : String) (content : List ContentBlock) : Option ToolRow × ChildDelegation :=
  if outgoing then
    if child.launchId = some messageId then (none, child)
    else if child.launchId.isNone && !child.reconnected then
      (some (.call (launchToolCall messageId content (child.description.getD name))),
        { child with launchId := some messageId, openLaunch := some messageId })
    else (some (.call (messageToolCall messageId ("Message to " ++ name) "SendMessage" content)),
      child)
  else
    match stripReply messageId with
    | some launchId =>
      if child.launchId ≠ some launchId then (none, child)
      else (some (.update (replyUpdate launchId content)),
        { child with
          openLaunch := if child.openLaunch = some launchId then none else child.openLaunch })
    | none =>
      match child.openLaunch with
      | some launchId =>
        (some (.update (replyUpdate launchId content)), { child with openLaunch := none })
      | none => (some (.call (messageToolCall messageId ("Message from " ++ name) "SubagentHandback"
          content)), child)

/-- `close_row` (`acp_native_subagents_delegation.rs:171`). -/
def ChildDelegation.closeRow (child : ChildDelegation) (state : AgentNativeSubagentState) :
    Option ToolRow × ChildDelegation :=
  if state = .running then (none, child)
  else (child.openLaunch.map fun launchId => .update (closeUpdate launchId state),
    { child with openLaunch := none })

/-- `counterpart` (`acp_native_subagents_delegation.rs:185`). -/
def counterpart (sessionId : String) (sender recipient : Option String) : Option (String × Bool) :=
  match sender, recipient with
  | some sender, some recipient =>
    if sender = sessionId ∧ recipient ≠ sessionId then some (recipient, true)
    else if sender ≠ sessionId ∧ recipient = sessionId then some (sender, false)
    else none
  | some sender, none => if sender ≠ sessionId then some (sender, false) else none
  | none, _ => none

/-- `subagent_name` (`acp_native_subagents_delegation.rs:282`). -/
def subagentName (title : Option String) : String :=
  ((title.map trim).filter (· ≠ "")).getD "Subagent"

/-- `released_state` (`acp_native_subagents_delegation.rs:317`), without the category for logs. -/
def releasedState : StateUpdate → Option AgentNativeSubagentState
  | .running | .requiresAction => some .running
  | .idle none | .idle (some .endTurn) => some .completed
  | .idle (some .cancelled) => some .cancelled
  | .idle (some _) => some .failed
  | .unknown => some .disconnected
  | .other => none

/-- `ReplayDelegations` (`acp_native_subagents_delegation.rs:350`): the children with their names.
-/
abbrev ReplayDelegations := Assoc String (String × ChildDelegation)

/-- `normalize_claude_identity` (`acp_native_subagents_delegation.rs:295`). -/
def normalizeClaudeIdentity (update : SubagentUpdate) : SubagentUpdate :=
  match update.description with
  | .value _ => { update with title := update.description, description := update.title }
  | _ => update

/-- `subagent_update` (`acp_native_subagents_delegation.rs:358`). -/
def ReplayDelegations.subagentUpdate (delegations : ReplayDelegations) (update : SubagentUpdate) :
    Option ToolRow × ReplayDelegations :=
  let (name, child) := (Assoc.get? delegations update.sessionId).getD (subagentName none, {})
  let name := match update.title with
    | .value title => subagentName (some title)
    | .null => subagentName none
    | .undefined => name
  let child := match update.description with
    | .value text => { child with description := (some (trim text)).filter (· ≠ "") }
    | .null => { child with description := none }
    | .undefined => child
  let (row, child) := match update.state with
    | .value state => match releasedState state with
      | some state => child.closeRow state
      | none => (none, child)
    | _ => (none, child)
  (row, Assoc.insert delegations update.sessionId (name, child))

/-- `session_message` (`acp_native_subagents_delegation.rs:388`). -/
def ReplayDelegations.sessionMessage (delegations : ReplayDelegations) (sessionId : String)
    (message : SessionMessage) : Option ToolRow × ReplayDelegations :=
  match counterpart sessionId message.senderSessionId message.recipientSessionId with
  | none => (none, delegations)
  | some (child, outgoing) =>
    match Assoc.get? delegations child with
    | none => (none, delegations)
    | some (name, delegation) =>
      let content := match message.content with
        | .value content => content
        | _ => []
      let (row, delegation) := delegation.messageRow name outgoing message.messageId content
      (row, Assoc.insert delegations child (name, delegation))

/-! ## Compactions -/

/-- `AgentMetadataField`: what a patch does to a field. -/
inductive AgentMetadataField (α : Type) where
  | unchanged
  | clear
  | value (a : α)

/-- `apply_patch` (`acp_compaction_projection.rs:120`). -/
def AgentMetadataField.apply {α : Type} : AgentMetadataField α → Option α → Option α
  | unchanged, old => old
  | clear, _ => none
  | value a, _ => some a

/-- `AgentCompactionChange`. -/
inductive AgentCompactionChange where
  | update (status : CompactionStatus) (summary error : AgentMetadataField String)
  | summaryChunk (text : String)

/-- `summary_text` (`acp_compaction_projection.rs:66`). -/
def summaryText (blocks : List ContentBlock) : Option String :=
  let text := String.join (blocks.filterMap fun
    | .text text => some text
    | _ => none)
  if blank text then none else some text

/-- `project_compaction_update` (`acp_compaction_projection.rs:15`). -/
def projectCompactionUpdate (update : CompactionUpdate) : AgentCompactionChange :=
  .update
    (match update.status with
      | .inProgress => .inProgress
      | .completed => .completed
      | .failed => .failed
      | .cancelled => .cancelled
      | .other => .unknown)
    (match update.summary with
      | .undefined => .unchanged
      | .null => .clear
      | .value blocks => match summaryText blocks with
        | some text => .value text
        | none => .clear)
    (match update.error with
      | .undefined => .unchanged
      | .null => .clear
      | .value error => if blank error then .clear else .value error)

/-- `apply_compaction_change` (`acp_compaction_projection.rs:79`). -/
def applyCompactionChange (id : String) (existing : Option NormalizedMessage)
    (change : AgentCompactionChange) (createdAt : String) : CompactionMessage :=
  let old : CompactionMessage := match existing with
    | some (.compaction m) => m
    | _ => ⟨id, .inProgress, none, none, createdAt⟩
  match change with
  | .update status summary error =>
    ⟨id, status, summary.apply old.summary, error.apply old.error, old.createdAt⟩
  | .summaryChunk text =>
    ⟨id, old.status, some (old.summary.getD "" ++ text), old.error, old.createdAt⟩

end OpenAide.Replay

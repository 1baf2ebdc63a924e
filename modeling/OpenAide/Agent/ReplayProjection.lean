import OpenAide.Agent.ReplayUpdates

/-!
# Chat rows of a replayed history

`agent/acp_replay_projection.rs`: the updates an Agent replays become Chat rows.  A chunk with an
ACP message id goes to the row of that id, wherever it is; a chunk without one extends the text run
just before it or starts a new one.  Tools, plans and compactions have rows of their own, which
later updates replace in place.

Rows of anonymous text get their identity at the very end, from the text and from how often it
occurred before (`finalizeFallbackIds`), so that a history replayed again gives the same rows.
-/

namespace OpenAide.Replay

open Library

/-! ## Identities -/

/-- `stable_message_id` (`acp_message_identity.rs:4`). -/
def stableMessageId (sessionId sourceMessageId : String) : String :=
  "acp:" ++ sessionId ++ ":message:" ++ sourceMessageId

/-- `stable_agent_message_id` (`acp_message_identity.rs:14`). -/
def stableAgentMessageId (sessionId : String) (role : AgentMessageRole) (sourceMessageId : String) :
    String :=
  match role with
  | .agent => stableMessageId sessionId sourceMessageId
  | .thought => "acp:" ++ sessionId ++ ":thought:" ++ sourceMessageId

/-- `stable_compaction_id` (`acp_message_identity.rs:30`). -/
def stableCompactionId (sessionId compactionId : String) : String :=
  "acp:" ++ sessionId ++ ":compaction:" ++ compactionId

/-- `ReplayTextKind` (`acp_replay_projection.rs:490`). -/
inductive ReplayTextKind where
  | user | agent | thought
  deriving DecidableEq

/-- `ReplayTextKind::label`. -/
def ReplayTextKind.label : ReplayTextKind → String
  | user => "user"
  | agent => "agent"
  | thought => "thought"

def ReplayTextKind.ofRole : AgentMessageRole → ReplayTextKind
  | .agent => agent
  | .thought => thought

/-- The id of an anonymous row until the end of the replay (`acp_replay_projection.rs:347, 421`). -/
def ordinalId (sessionId : String) (kind : ReplayTextKind) (ordinal : Nat) : String :=
  "acp:" ++ sessionId ++ ":replay:" ++ kind.label ++ ":" ++ toString ordinal

/-- The id of a completed plan (`acp_replay_projection.rs:308`). -/
def planId (sessionId : String) (ordinal : Nat) : String :=
  "acp:" ++ sessionId ++ ":replay:plan:" ++ toString ordinal

/-- `stable_text_fingerprint` (`acp_replay_projection.rs:563`): FNV-1a over the bytes of the text.
-/
def stableTextFingerprint (text : String) : UInt64 :=
  text.toUTF8.toList.foldl (fun hash byte => (hash ^^^ byte.toUInt64) * 0x100000001b3)
    0xcbf29ce484222325

/-- The last digits of a number to base 16. -/
def hexDigits : Nat → Nat → List Char
  | 0, _ => []
  | width + 1, n => hexDigits width (n / 16) ++ [Nat.digitChar (n % 16)]

/-- `{:016x}`: a 64-bit number has sixteen digits. -/
def hex16 (n : UInt64) : String := .ofList (hexDigits 16 n.toNat)

/-- The final id of an anonymous row (`acp_replay_projection.rs:465`). -/
def fallbackId (sessionId : String) (kind : ReplayTextKind) (fingerprint : UInt64)
    (occurrence : Nat) : String :=
  "acp:" ++ sessionId ++ ":replay:" ++ kind.label ++ ":" ++ hex16 fingerprint ++ ":" ++
    toString occurrence

/-- `id.contains(":replay:")`. -/
def containsReplay (id : String) : Bool := ":replay:".toList <:+: id.toList

/-! ## Rows -/

/-- What is shown of a tool call beside its title and status (`agent/tool_details.rs:19-43`). -/
structure ToolSummary where
  kind : String
  presentation : Option JsonText := none
  description : Option String := none
  inputSummary : Option String := none
  outputPreview : Option String := none
  details : Option ActivityToolDetails := none

/-- What the rows show and nothing reads back, and what the protocol crate makes of a tool call. -/
structure Shown where
  /-- `ToolCall::update`. -/
  updated : ToolCall → ToolCallUpdate → ToolCall
  /-- `safe_inline_image`. -/
  safeInlineImage : String → String → Bool
  /-- The part of an image that is not inlined. -/
  unsupportedImage : String → Option String → JsonText
  /-- `tool_call_event`. -/
  toolSummary : ToolCall → ToolSummary
  subagent : AgentSubagent → JsonText
  planEntry : PlanEntry → JsonText

/-- `project_content_block` (`acp_content_projection.rs:8`). -/
def projectContentBlock (shown : Shown) : ContentBlock → AgentMessagePart
  | .text text => .text text
  | .image mimeType data uri =>
    if shown.safeInlineImage mimeType data then .image mimeType data none none none none uri
    else .shown (shown.unsupportedImage mimeType uri)
  | .other json => .shown json

/-- `ReplayTextKind::new_message` (`acp_replay_projection.rs:505`). -/
def ReplayTextKind.newMessage (kind : ReplayTextKind) (id text createdAt : String) :
    NormalizedMessage :=
  match kind with
  | user => .user ⟨id, text, createdAt, []⟩
  | agent => .agentMessage ⟨id, .agent, [.text text], createdAt⟩
  | thought => .agentMessage ⟨id, .thought, [.text text], createdAt⟩

/-- `replay_text_parts` (`acp_replay_projection.rs:539`). -/
def replayTextParts : NormalizedMessage → Option (ReplayTextKind × String × String)
  | .user m => some (.user, m.text, m.id)
  | .agentMessage m => match m.parts with
    | [.text text] => some (.ofRole m.role, text, m.id)
    | _ => none
  | _ => none

/-- `set_message_id` (`acp_replay_projection.rs:529`). -/
def setMessageId (id : String) : NormalizedMessage → NormalizedMessage
  | .user m => .user { m with id := id }
  | .agentMessage m => .agentMessage { m with id := id }
  | message => message

/-- The last part takes a chunk of text, or a new part follows it (`acp_replay_projection.rs:604`).
-/
def appendPart : List AgentMessagePart → AgentMessagePart → List AgentMessagePart
  | [.text text], .text chunk => [.text (text ++ chunk)]
  | [], part => [part]
  | [last], part => [last, part]
  | first :: rest, part => first :: appendPart rest part

/-- `append_text_chunk` (`acp_replay_projection.rs:578`).  The rows without a text at their end are
never asked for one (`Located`). -/
def appendTextChunk (chunk : String) : NormalizedMessage → NormalizedMessage
  | .user m => .user { m with text := m.text ++ chunk }
  | .agentMessage m => .agentMessage { m with parts := appendPart m.parts (.text chunk) }
  | message => message

/-- `append_agent_part` (`acp_replay_projection.rs:590`). -/
def appendAgentPart (role : AgentMessageRole) (part : AgentMessagePart) :
    NormalizedMessage → NormalizedMessage
  | .agentMessage m =>
    if m.role = role then .agentMessage { m with parts := appendPart m.parts part }
    else .agentMessage m
  | message => message

/-- `tool_call_status` of `normalizer.rs:129` over `tool_status`. -/
def toolActivityStatus : ToolCallStatus → ActivityStatus
  | .pending | .inProgress | .other => .running
  | .completed => .completed
  | .failed => .error

/-- The id of a tool's row (`normalizer.rs:20`); a replayed tool has no scope. -/
def toolRowId (toolCallId : String) : String := "acp_tool:" ++ toolCallId

/-- `normalize_event(replay_tool_event(..))` (`normalizer.rs:18`, `acp_replay_projection.rs:477`).
-/
def toolActivity (shown : Shown) (codex : Bool) (toolCall : ToolCall) (createdAt : String) :
    NormalizedMessage :=
  let wait := codex && isCodexWait toolCall
  let summary : ToolSummary :=
    if wait then { kind := "collaboration" } else shown.toolSummary toolCall
  let status := toolActivityStatus toolCall.status
  .activity
    { id := toolRowId toolCall.toolCallId
      title := if wait then "Wait for subagents" else toolCall.title
      status
      createdAt
      collapsed := true
      steps := [.tool
        { toolCallId := some toolCall.toolCallId
          name := summary.kind
          status
          presentation := summary.presentation
          description := summary.description
          inputSummary := summary.inputSummary
          outputPreview := summary.outputPreview
          details := summary.details
          pending := toolCall.status = .pending ∨ toolCall.status = .other }] }

/-- `normalize_event(AgentEvent::Subagent(..))` (`normalizer.rs:73`). -/
def subagentActivity (shown : Shown) (subagent : AgentSubagent) (createdAt : String) :
    NormalizedMessage :=
  .activity
    { id := toolRowId subagent.toolCallId
      title := subagent.title
      status := subagent.status
      createdAt
      collapsed := true
      steps := [.subagent ⟨subagent.status, shown.subagent subagent⟩] }

/-! ## The buffer -/

/-- `ReplayProjection` (`acp_replay_projection.rs:31`). -/
structure ReplayProjection where
  agentId : Option String
  sessionId : String

def ReplayProjection.codex (p : ReplayProjection) : Bool := p.agentId = some "codex"

def ReplayProjection.claudeIdentity (p : ReplayProjection) : Bool := p.agentId = some "claude-code"

/-- `ActiveAnonymousTextRun` (`acp_replay_projection.rs:573`). -/
structure ActiveAnonymousTextRun where
  kind : ReplayTextKind
  messageIndex : Nat
  deriving DecidableEq

/-- `ReplayBuffer` (`acp_replay_projection.rs:98`), with the tool calls and Codex's Subagents. -/
structure ReplayBuffer where
  messages : List NormalizedMessage := []
  activeAnonymousText : Option ActiveAnonymousTextRun := none
  sourcedUserIndices : Assoc String Nat := []
  sourcedAgentIndices : Assoc (AgentMessageRole × String) Nat := []
  sourcedAgentTextChunks : List (AgentMessageRole × String) := []
  nextTextOrdinal : Nat := 0
  currentPlan : Option (List PlanEntry) := none
  completedPlanMessageId : Option String := none
  nextPlanOrdinal : Nat := 0
  delegations : ReplayDelegations := []
  toolCalls : ToolCallState := []
  codexSubagents : CodexSubagentState := []

namespace ReplayBuffer

/-- `end_anonymous_text_run`. -/
def endAnonymousTextRun (b : ReplayBuffer) : ReplayBuffer := { b with activeAnonymousText := none }

/-- `upsert` (`acp_replay_projection.rs:435`). -/
def upsert (b : ReplayBuffer) (message : NormalizedMessage) : ReplayBuffer :=
  match b.messages.findIdx? (·.identity = message.identity) with
  | some index => { b with messages := b.messages.modify index (message.preserveCreatedAtFrom ·) }
  | none => { b with messages := b.messages ++ [message] }

variable (p : ReplayProjection) (shown : Shown) (createdAt : String)

/-- `push_anonymous_text` (`acp_replay_projection.rs:409`). -/
def pushAnonymousText (b : ReplayBuffer) (kind : ReplayTextKind) (text : String) : ReplayBuffer :=
  let start : ReplayBuffer :=
    { b with
      messages := b.messages ++ [kind.newMessage (ordinalId p.sessionId kind b.nextTextOrdinal) text
        createdAt]
      nextTextOrdinal := b.nextTextOrdinal + 1
      activeAnonymousText := some ⟨kind, b.messages.length⟩ }
  match b.activeAnonymousText with
  | some active =>
    if active.kind = kind then
      { b with messages := b.messages.modify active.messageIndex (appendTextChunk text) }
    else start
  | none => start

/-- `push_user_text` (`acp_replay_projection.rs:384`). -/
def pushUserText (b : ReplayBuffer) (text : String) : Option String → ReplayBuffer
  | none => b.pushAnonymousText p createdAt .user text
  | some source =>
    let b := b.endAnonymousTextRun
    match b.sourcedUserIndices.get? source with
    | some index => { b with messages := b.messages.modify index (appendTextChunk text) }
    | none =>
      { b with
        messages := b.messages ++
          [ReplayTextKind.user.newMessage (stableMessageId p.sessionId source) text createdAt]
        sourcedUserIndices := b.sourcedUserIndices.insert source b.messages.length }

/-- A chunk without an ACP message id (`acp_replay_projection.rs:331-362`). -/
def pushAnonymousPart (b : ReplayBuffer) (role : AgentMessageRole) (part : AgentMessagePart) :
    ReplayBuffer :=
  match part with
  | .text text =>
    -- Codex repeats sourced chunks without their ids.
    if p.codex && decide ((role, text) ∈ b.sourcedAgentTextChunks) then b.endAnonymousTextRun
    else b.pushAnonymousText p createdAt (.ofRole role) text
  | part =>
    { b.endAnonymousTextRun with
      messages := b.messages ++ [.agentMessage
        ⟨ordinalId p.sessionId (.ofRole role) b.nextTextOrdinal, role, [part], createdAt⟩]
      nextTextOrdinal := b.nextTextOrdinal + 1 }

/-- A chunk with an ACP message id (`acp_replay_projection.rs:364-381`). -/
def pushSourcedPart (b : ReplayBuffer) (role : AgentMessageRole) (part : AgentMessagePart)
    (source : String) : ReplayBuffer :=
  let b := { b.endAnonymousTextRun with
    sourcedAgentTextChunks := match part with
      | .text text => if p.codex then (role, text) :: b.sourcedAgentTextChunks
          else b.sourcedAgentTextChunks
      | _ => b.sourcedAgentTextChunks }
  match b.sourcedAgentIndices.get? (role, source) with
  | some index => { b with messages := b.messages.modify index (appendAgentPart role part) }
  | none =>
    { b with
      messages := b.messages ++ [.agentMessage
        ⟨stableAgentMessageId p.sessionId role source, role, [part], createdAt⟩]
      sourcedAgentIndices := b.sourcedAgentIndices.insert (role, source) b.messages.length }

/-- `push_agent_part` (`acp_replay_projection.rs:323`). -/
def pushAgentPart (b : ReplayBuffer) (role : AgentMessageRole) (part : AgentMessagePart) :
    Option String → ReplayBuffer
  | none => b.pushAnonymousPart p createdAt role part
  | some source => b.pushSourcedPart p createdAt role part source

/-- The row of a tool call (`acp_replay_projection.rs:181-200, 209-224`). -/
def showTool (b : ReplayBuffer) (projection : CodexSubagentProjection) (toolCall : ToolCall) :
    ReplayBuffer :=
  match projection with
  | .event subagent => b.upsert (subagentActivity shown subagent createdAt)
  | .suppress => b
  | .genericTool => b.upsert (toolActivity shown p.codex toolCall createdAt)

/-- Agents other than Codex have no lifecycle tools (`acp_replay_projection.rs:181, 204`). -/
def ifCodex (b : ReplayBuffer) (projected : CodexSubagentProjection × CodexSubagentState) :
    CodexSubagentProjection × CodexSubagentState :=
  if p.codex then projected else (.genericTool, b.codexSubagents)

/-- What is remembered of a tool call. -/
def rememberToolCall (b : ReplayBuffer) (toolCall : ToolCall) : ReplayBuffer :=
  { b.endAnonymousTextRun with
    toolCalls := b.toolCalls.insert toolCall.toolCallId toolCall
    codexSubagents := (b.ifCodex p (projectCodexToolCall b.codexSubagents toolCall)).2 }

/-- The `ToolCall` update (`acp_replay_projection.rs:167`). -/
def projectToolCall (b : ReplayBuffer) (toolCall : ToolCall) : ReplayBuffer :=
  -- As live: the Agent's real tool call keeps its row.
  if isDelegationRow toolCall &&
      (b.toolCalls.get? toolCall.toolCallId).any (!isDelegationRow ·) then b.endAnonymousTextRun
  else (b.rememberToolCall p toolCall).showTool p shown createdAt
    (b.ifCodex p (projectCodexToolCall b.codexSubagents toolCall)).1 toolCall

/-- The `ToolCallUpdate` update (`acp_replay_projection.rs:202`). -/
def projectToolUpdate (b : ReplayBuffer) (update : ToolCallUpdate) : ReplayBuffer :=
  let (toolCall, toolCalls) := mergeToolCallUpdate shown.updated b.toolCalls update
  let (projection, codexSubagents) := b.ifCodex p (projectCodexToolUpdate b.codexSubagents update)
  ({ b.endAnonymousTextRun with toolCalls, codexSubagents }).showTool p shown createdAt projection
    toolCall

/-- A delegation row goes the way of the tool call it stands for. -/
def projectToolRow (b : ReplayBuffer) : Option ToolRow → ReplayBuffer
  | some (.call toolCall) => b.projectToolCall p shown createdAt toolCall
  | some (.update update) => b.projectToolUpdate p shown createdAt update
  | none => b

/-- `apply_compaction` (`acp_replay_projection.rs:274`). -/
def applyCompaction (b : ReplayBuffer) (compactionId : String) (change : AgentCompactionChange) :
    ReplayBuffer :=
  let id := stableCompactionId p.sessionId compactionId
  b.upsert (.compaction
    (applyCompactionChange id (b.messages.find? (·.identity = id)) change createdAt))

/-- The id of the completed plan shown last, or a new one (`acp_replay_projection.rs:306`). -/
def completedPlanId (b : ReplayBuffer) : String :=
  b.completedPlanMessageId.getD (planId p.sessionId b.nextPlanOrdinal)

/-- `replace_plan` (`acp_replay_projection.rs:290`). -/
def replacePlan (b : ReplayBuffer) (entries : List PlanEntry) : ReplayBuffer :=
  if entries.isEmpty then { b with currentPlan := none, completedPlanMessageId := none }
  else if entries.all (·.status = .completed) then
    ({ b with
      nextPlanOrdinal :=
        if b.completedPlanMessageId.isSome then b.nextPlanOrdinal else b.nextPlanOrdinal + 1
      currentPlan := none
      completedPlanMessageId := some (b.completedPlanId p) }).upsert
        (.completedPlan ⟨b.completedPlanId p, entries.map shown.planEntry, createdAt⟩)
  else { b with currentPlan := some entries, completedPlanMessageId := none }

/-- `project` (`acp_replay_projection.rs:140`). -/
def project (b : ReplayBuffer) : SessionUpdate → ReplayBuffer
  | .userMessageChunk (.text text) source => b.pushUserText p createdAt text source
  | .userMessageChunk _ _ => b
  | .agentMessageChunk content source =>
    b.pushAgentPart p createdAt .agent (projectContentBlock shown content) source
  | .agentThoughtChunk content source =>
    b.pushAgentPart p createdAt .thought (projectContentBlock shown content) source
  | .toolCall toolCall => b.projectToolCall p shown createdAt toolCall
  | .toolCallUpdate update => b.projectToolUpdate p shown createdAt update
  | .plan entries =>
    -- `project_plan_entry`: a plan with an unsupported entry is ignored.
    if entries.any fun entry => entry.priority = .other ∨ entry.status = .other then
      b.endAnonymousTextRun
    else b.endAnonymousTextRun.replacePlan p shown createdAt entries
  | .compactionUpdate update =>
    b.endAnonymousTextRun.applyCompaction p createdAt update.compactionId
      (projectCompactionUpdate update)
  | .compactionSummaryChunk compactionId content =>
    match summaryText [content] with
    | some text =>
      b.endAnonymousTextRun.applyCompaction p createdAt compactionId (.summaryChunk text)
    | none => b.endAnonymousTextRun
  | .subagentUpdate update =>
    let update := if p.claudeIdentity then normalizeClaudeIdentity update else update
    let (row, delegations) := b.delegations.subagentUpdate update
    ({ b.endAnonymousTextRun with delegations }).projectToolRow p shown createdAt row
  | .sessionMessage message =>
    let (row, delegations) := b.delegations.sessionMessage p.sessionId message
    ({ b.endAnonymousTextRun with delegations }).projectToolRow p shown createdAt row
  | .other => b.endAnonymousTextRun

def projectAll (updates : List SessionUpdate) : ReplayBuffer :=
  updates.foldl (project p shown createdAt) {}

end ReplayBuffer

/-! ## Final identities -/

/-- What decides about the final id of a row: the kind and fingerprint of its text, if its id marks
it as anonymous (`acp_replay_projection.rs:456-462`). -/
def fallbackKey (message : NormalizedMessage) : Option (ReplayTextKind × UInt64) :=
  match replayTextParts message with
  | some (kind, text, id) =>
    if containsReplay id then some (kind, stableTextFingerprint text) else none
  | none => none

/-- `finalize_fallback_ids` (`acp_replay_projection.rs:453`), with the occurrences so far. -/
def finalizeFallbackIds (sessionId : String) (occurrences : Assoc (ReplayTextKind × UInt64) Nat) :
    List NormalizedMessage → List NormalizedMessage
  | [] => []
  | message :: rest =>
    match fallbackKey message with
    | none => message :: finalizeFallbackIds sessionId occurrences rest
    | some key =>
      let occurrence := (occurrences.get? key).getD 0
      setMessageId (fallbackId sessionId key.1 key.2 occurrence) message ::
        finalizeFallbackIds sessionId (occurrences.insert key (occurrence + 1)) rest

/-- The messages of `project_with_plan` (`acp_replay_projection.rs:65`); its plan is that of the
buffer. -/
def ReplayProjection.messages (p : ReplayProjection) (shown : Shown) (createdAt : String)
    (updates : List SessionUpdate) : List NormalizedMessage :=
  finalizeFallbackIds p.sessionId [] (ReplayBuffer.projectAll p shown createdAt updates).messages

end OpenAide.Replay

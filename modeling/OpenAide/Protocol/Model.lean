import Mathlib

/-!
# Errors and Chat messages

The protocol types the Task journal stores (`protocol/errors.rs`, `protocol/model/chat.rs`,
`protocol/model/activity.rs`) and the functions of those files that later modules call.  A value
whose inside no modelled function looks at is kept as its JSON text (`JsonText`): storage only
compares and copies it.
-/

namespace OpenAide

/-- `RuntimeError` (`protocol/errors.rs`), each with its message. -/
inductive RuntimeError where
  | invalidParams (message : String)
  | taskNotFound (message : String)
  | nativeSessionMissing (message : String)
  | notReady (message : String)
  | conflict (message : String)
  | outcomeUnknown (message : String)
  | authRequired (message : String)
  | setupRequired (message : String)
  | nodeJsRequired (message : String)
  | unsupported (message : String)
  | capabilityMissing (message : String)
  | methodNotFound (message : String)
  | storage (message : String)
  | internal (message : String)
  | agentReported (message : String)
  deriving DecidableEq

/-- The JSON text of a value that is stored and compared but never looked into. -/
structure JsonText where
  text : String
  deriving DecidableEq

/-! ## Timing -/

/-- Epoch-millisecond bounds of observed work; `endedAt` is absent while it runs. -/
structure ObservedSpan where
  startedAt : String
  endedAt : Option String := none
  deriving DecidableEq

/-- Times the App Server witnessed for one Chat row. -/
structure ChatTiming where
  sentAt : Option String := none
  run : Option ObservedSpan := none
  closedTurn : Option ObservedSpan := none
  deriving DecidableEq

def ChatTiming.isEmpty (timing : ChatTiming) : Bool :=
  timing.sentAt.isNone && timing.run.isNone && timing.closedTurn.isNone

/-! ## Tool details -/

structure ActivityToolLocation where
  path : String
  line : Option Nat := none
  deriving DecidableEq

inductive ActivityToolContent where
  | text (text : String)
  | diff (path : String) (oldText : Option String) (newText : String)
  | terminal (terminalId : String)
  | image (mediaType data : String) (uri : Option String)
  | audio (mediaType data : String)
  /-- A resource or an unsupported block: shown, never inspected. -/
  | shown (json : JsonText)
  deriving DecidableEq

/-- A value inside an argument object: the summary only asks whether it is a string. -/
inductive ActivityToolLeaf where
  | string (value : String)
  | other (json : JsonText)
  deriving DecidableEq

/-- `ActivityToolValue`, to the depth the summary looks into it. -/
inductive ActivityToolValue where
  | string (value : String)
  | object (fields : List (String × ActivityToolLeaf))
  | other (json : JsonText)
  deriving DecidableEq

structure ActivityToolInput where
  command : List String := []
  cwd : Option String := none
  query : Option String := none
  queries : List String := []
  url : Option String := none
  path : Option String := none
  fields : List (String × ActivityToolValue) := []
  deriving DecidableEq

structure ActivityToolDetails where
  locations : List ActivityToolLocation := []
  content : List ActivityToolContent := []
  input : Option ActivityToolInput := none
  output : Option JsonText := none
  deriving DecidableEq

/-! ## Activities -/

inductive ActivityStatus where
  | running | completed | interrupted | error
  deriving DecidableEq

inductive BackgroundCommandOutcome where
  | completed | failed | stopped
  deriving DecidableEq

inductive ToolPermissionDecision where
  | approved | rejected | cancelled
  deriving DecidableEq

structure ToolPermissionOutcome where
  requestId : String
  decision : ToolPermissionDecision
  optionId : Option String := none
  optionLabel : Option String := none
  resolvedAt : String
  deriving DecidableEq

/-- `ActivityStep::Tool`. -/
structure ToolStep where
  toolCallId : Option String := none
  name : String
  status : ActivityStatus
  presentation : Option JsonText := none
  description : Option String := none
  inputSummary : Option String := none
  outputPreview : Option String := none
  detailArtifactId : Option String := none
  details : Option ActivityToolDetails := none
  permissionOutcomes : List ToolPermissionOutcome := []
  backgroundOutcome : Option BackgroundCommandOutcome := none
  pending : Bool := false
  deriving DecidableEq

/-- `ActivityStep::Command`. -/
structure CommandStep where
  commandLabel : String
  status : ActivityStatus
  exitCode : Option Int := none
  outputPreview : Option String := none
  deriving DecidableEq

/-- `ActivityStep::Subagent`; its identities and event history are only shown. -/
structure SubagentStep where
  status : ActivityStatus
  shown : JsonText
  deriving DecidableEq

inductive ActivityStep where
  | text (text : String) (level : Option String)
  | tool (step : ToolStep)
  | command (step : CommandStep)
  | subagent (step : SubagentStep)
  deriving DecidableEq

/-! ## Messages -/

inductive AgentMessageRole where
  | agent | thought
  deriving DecidableEq

inductive AgentMessagePart where
  | text (text : String)
  | image (mediaType data : String) (imageId : Option String)
      (sizeBytes width height : Option Nat) (uri : Option String)
  /-- A resource or an unsupported block: shown, never inspected. -/
  | shown (json : JsonText)
  deriving DecidableEq

structure Attachment where
  kind : String
  label : String
  path : Option String := none
  payload : Option JsonText := none
  deriving DecidableEq

structure UserMessage where
  id : String
  text : String
  createdAt : String
  attachments : List Attachment := []
  deriving DecidableEq

structure AgentMessage where
  id : String
  role : AgentMessageRole
  parts : List AgentMessagePart
  createdAt : String
  deriving DecidableEq

structure ActivityMessage where
  id : String
  title : String
  status : ActivityStatus
  createdAt : String
  collapsed : Bool
  steps : List ActivityStep
  deriving DecidableEq

/-- A completed or a closed Plan row. -/
structure PlanMessage where
  id : String
  entries : List JsonText
  createdAt : String
  deriving DecidableEq

inductive QuestionState where
  | pending | resolved | cancelled | error
  deriving DecidableEq

structure QuestionMessage where
  id : String
  requestId : String
  message : String
  fields : List JsonText
  state : QuestionState
  createdAt : String
  /-- The action, content, error and resolution text of an answered question. -/
  resolution : Option JsonText := none
  deriving DecidableEq

inductive InterruptionReason where
  | canceled | failed | backendUnavailable
  deriving DecidableEq

structure InterruptionMessage where
  id : String
  reason : InterruptionReason
  message : String
  createdAt : String
  recoverable : Bool
  deriving DecidableEq

inductive CompactionStatus where
  | inProgress | completed | failed | cancelled | unknown
  deriving DecidableEq

structure CompactionMessage where
  id : String
  status : CompactionStatus
  summary : Option String := none
  error : Option String := none
  createdAt : String
  deriving DecidableEq

/-- `NormalizedMessage` (`chat.rs:67`), one structure per variant. -/
inductive NormalizedMessage where
  | user (m : UserMessage)
  | agentMessage (m : AgentMessage)
  | activity (m : ActivityMessage)
  | completedPlan (m : PlanMessage)
  | closedPlan (m : PlanMessage)
  | question (m : QuestionMessage)
  | interruption (m : InterruptionMessage)
  | compaction (m : CompactionMessage)
  deriving DecidableEq

namespace NormalizedMessage

def messageType : NormalizedMessage → String
  | user _ => "user"
  | agentMessage { role := .agent, .. } => "agent_message"
  | agentMessage { role := .thought, .. } => "thought_message"
  | activity _ => "activity"
  | completedPlan _ => "completed_plan"
  | closedPlan _ => "closed_plan"
  | question _ => "question"
  | interruption _ => "interruption"
  | compaction _ => "compaction"

def identity : NormalizedMessage → String
  | user m => m.id
  | agentMessage m => m.id
  | activity m => m.id
  | completedPlan m => m.id
  | closedPlan m => m.id
  | question m => m.id
  | interruption m => m.id
  | compaction m => m.id

/-- Whether the row represents work that has not settled yet. -/
def isInProgress : NormalizedMessage → Bool
  | activity m => m.status == .running
  | compaction m => m.status == .inProgress
  | _ => false

/-- Whether the row is an Activity whose every Tool is announced but not started. -/
def isAwaitingStart : NormalizedMessage → Bool
  | activity m => m.status == .running && !m.steps.isEmpty &&
      m.steps.all fun
        | .tool step => step.pending
        | _ => false
  | _ => false

def createdAt : NormalizedMessage → String
  | user m => m.createdAt
  | agentMessage m => m.createdAt
  | activity m => m.createdAt
  | completedPlan m => m.createdAt
  | closedPlan m => m.createdAt
  | question m => m.createdAt
  | interruption m => m.createdAt
  | compaction m => m.createdAt

def preserveCreatedAtFrom (self existing : NormalizedMessage) : NormalizedMessage :=
  match self with
  | user m => user { m with createdAt := existing.createdAt }
  | agentMessage m => agentMessage { m with createdAt := existing.createdAt }
  | activity m => activity { m with createdAt := existing.createdAt }
  | completedPlan m => completedPlan { m with createdAt := existing.createdAt }
  | closedPlan m => closedPlan { m with createdAt := existing.createdAt }
  | question m => question { m with createdAt := existing.createdAt }
  | interruption m => interruption { m with createdAt := existing.createdAt }
  | compaction m => compaction { m with createdAt := existing.createdAt }

/-- The outcomes recorded on the first Tool step with the same call id. -/
def recordedOutcomes (steps : List ActivityStep) (toolCallId : Option String) :
    Option (List ToolPermissionOutcome × Option BackgroundCommandOutcome) :=
  steps.findSome? fun
    | .tool step =>
      if step.toolCallId = toolCallId then some (step.permissionOutcomes, step.backgroundOutcome)
      else none
    | _ => none

/-- Agent updates replace the Activity row; the outcomes the App Server owns survive. -/
def preserveToolPermissionOutcomesFrom (self existing : NormalizedMessage) : NormalizedMessage :=
  match self, existing with
  | activity m, activity e =>
    activity { m with
      steps := m.steps.map fun
        | .tool step =>
          match recordedOutcomes e.steps step.toolCallId with
          | some (outcomes, background) =>
            .tool { step with permissionOutcomes := outcomes, backgroundOutcome := background }
          | none => .tool step
        | step => step }
  | m, _ => m

end NormalizedMessage

/-- One Chat row as clients page it (`chat.rs:20`). -/
structure ChatMessage where
  cursor : String
  identity : String
  messageType : String
  messageId : String
  message : NormalizedMessage
  timing : ChatTiming := {}
  deriving DecidableEq

end OpenAide

import OpenAide.Storage.ChatImages
import OpenAide.Tasks.Snapshot

/-!
# Chat as clients see it

`snapshots/task_snapshot/chat_projection.rs`: what the App Server shows of a Chat row, and the Chat
part of a Task snapshot and of a published change.  Wire enumerations that only rename ours are kept
as ours, and so is what is copied field by field.

A row that ends in text is shown with that text in its last part, whatever the projection leaves out
of the other parts; a row that carries an image inline is shown with the reference the journal will
store.
-/

namespace OpenAide

open Library Projection ChatImages ToolArtifacts ChatPage

/-! ## Items -/

inductive ChatRole where
  | user | agent | system
  deriving DecidableEq

inductive ChatItemStatus where
  | complete | streaming | interrupted | failed
  deriving DecidableEq

inductive AttachmentKind where
  | embeddedSnapshot | fileReference
  deriving DecidableEq

structure AttachmentSnapshot where
  attachmentId : String
  kind : AttachmentKind
  label : String
  previewImageId : Option String
  mediaType : Option String
  sizeBytes : Option Nat
  deriving DecidableEq

/-- `MessagePart` (`snapshot/chat.rs:88`). -/
inductive MessagePart where
  | text (text : String)
  | attachment (attachment : AttachmentSnapshot)
  | image (mediaType imageId : String) (sizeBytes : Nat) (dimensions : Option (Nat × Nat))
      (uri : Option String)
  /-- A resource or an unsupported block. -/
  | shown (json : JsonText)
  | activity (title : String) (status : ActivityStatus) (steps : List ActivityStep)
  | question (requestId message : String) (fields : List JsonText) (state : QuestionState)
      (resolution : Option JsonText)
  | completedPlan (entries : List JsonText)
  | closedPlan (entries : List JsonText)
  | compaction (status : CompactionStatus) (summary error : Option String)
  deriving DecidableEq

/-- `ChatItem` (`snapshot/chat.rs:25`) with all that clients see of it; `turn_id` is never set. -/
structure ChatItemView where
  messageId : String
  role : ChatRole
  status : ChatItemStatus
  parts : List MessagePart
  timing : Option ChatTiming
  deriving DecidableEq

namespace ChatProjection

section Parts

variable (imaging : Imaging)

/-- `inline_reference` (`chat_images.rs:419`). -/
def inlineReference (data : String) : Option ImageReference :=
  (imaging.decode data).map fun bytes => describe imaging (imaging.digest bytes) bytes

/-- `project_image`. -/
def projectImage (mediaType : String) (reference : ImageReference) (uri : Option String) :
    MessagePart :=
  .image mediaType reference.imageId reference.sizeBytes reference.dimensions uri

/-- `attachment_payload_string`. -/
def attachmentPayloadString (attachment : Attachment) (key : String) : Option String :=
  (((attachment.payload.map imaging.value).bind (·.get? key)).bind Json.asStr).filter (· ≠ "")

/-- `attachment_payload_u64`. -/
def attachmentPayloadU64 (attachment : Attachment) (key : String) : Option Nat :=
  ((attachment.payload.map imaging.value).bind (·.get? key)).bind Json.asU64

/-- `attachment_snapshot`. -/
def attachmentSnapshot (index : Nat) (attachment : Attachment) : AttachmentSnapshot where
  attachmentId := "legacy-attachment-" ++ toString index
  kind := if attachment.kind = "embedded_snapshot" ∨
    attachment.kind = "image" then .embeddedSnapshot else .fileReference
  label := attachment.label
  previewImageId := attachmentImageId imaging attachment
  mediaType := attachmentPayloadString imaging attachment "mimeType"
    <|> attachmentPayloadString imaging attachment "mime"
  sizeBytes := attachmentPayloadU64 imaging attachment "sizeBytes"

/-- The image an attachment of kind `image` refers to or still holds. -/
def attachmentReference (attachment : Attachment) : Option ImageReference :=
  match attachmentImageId imaging attachment with
  | some imageId => some {
      imageId
      sizeBytes := (attachmentPayloadU64 imaging attachment "sizeBytes").getD 0
      dimensions := attachmentDimensions imaging attachment }
  | none => (inlineImagePayload imaging attachment).bind (inlineReference imaging)

/-- `project_user_attachment`. -/
def projectUserAttachment (index : Nat) (attachment : Attachment) : MessagePart :=
  let shown := .attachment (attachmentSnapshot imaging index attachment)
  if attachment.kind = "image" then
    match attachmentPayloadString imaging attachment "mimeType",
        attachmentReference imaging attachment with
    | some mediaType, some reference => projectImage mediaType reference none
    | _, _ => shown
  else shown

/-- `project_agent_message_part`; an image without a reference is left out. -/
def projectAgentMessagePart : AgentMessagePart → Option MessagePart
  | .text text => some (.text text)
  | .image mediaType _ (some imageId) sizeBytes width height uri =>
    some (projectImage mediaType
      ⟨imageId, sizeBytes.getD 0, width.bind fun w => height.map fun h => (w, h)⟩ uri)
  | .image mediaType data none _ _ _ uri =>
    ((inlineReference imaging data).filter fun _ => data ≠ "").map (projectImage mediaType · uri)
  | .shown json => some (.shown json)

/-- `project_activity_step`: a settled step was started, whatever the Agent last announced. -/
def projectActivityStep : ActivityStep → ActivityStep
  | .tool step => .tool { step with pending := step.pending && step.status == .running }
  | step => step

def activityItemStatus : ActivityStatus → ChatItemStatus
  | .running => .streaming
  | .completed => .complete
  | .interrupted => .interrupted
  | .error => .failed

def compactionItemStatus : CompactionStatus → ChatItemStatus
  | .inProgress => .streaming
  | .failed => .failed
  | .cancelled => .interrupted
  | .completed | .unknown => .complete

/-- `project_message` (`chat_projection.rs:53`). -/
def projectMessage : NormalizedMessage → ChatRole × ChatItemStatus × List MessagePart
  | .user m =>
    -- attachment-only messages get no empty text part
    let text := if (trim m.text).isEmpty then [] else [.text m.text]
    (.user, .complete,
      text ++ m.attachments.zipIdx.map fun (attachment, index) =>
        projectUserAttachment imaging index attachment)
  | .agentMessage m =>
    (match m.role with | .agent => .agent | .thought => .system, .complete,
      m.parts.filterMap (projectAgentMessagePart imaging))
  | .activity m =>
    (.system, activityItemStatus m.status,
      [.activity m.title m.status (m.steps.map projectActivityStep)])
  | .completedPlan m => (.system, .complete, [.completedPlan m.entries])
  | .closedPlan m => (.system, .complete, [.closedPlan m.entries])
  | .question m =>
    (.system, .complete, [.question m.requestId m.message m.fields m.state m.resolution])
  | .interruption m => (.system, .interrupted, [.text m.message])
  | .compaction m =>
    (.system, compactionItemStatus m.status, [.compaction m.status m.summary m.error])

/-- The rest of `project_chat_item` (`chat_projection.rs:25`). -/
def view (item : ChatItem) : ChatItemView :=
  let (role, status, parts) := projectMessage imaging item.message
  { messageId := item.messageId, role, status, parts, timing := item.timing }

/-- What clients see of a row. -/
def viewRow (stored : StoredMessage) : ChatItemView := view imaging (projectChatItem stored.chat)

/-- What clients see of a row on a page. -/
def pageRow (summarized : ToolStep → ToolStep) (stored : StoredMessage) : ChatItemView :=
  view imaging (projectChatItem (withLightweightToolSummaries summarized stored.chat))

@[simp] theorem messageId_viewRow (stored : StoredMessage) :
    (viewRow imaging stored).messageId = stored.chat.messageId := rfl

end Parts

end ChatProjection

/-! ## Chat snapshots and published changes -/

/-- `ChatSnapshot` (`snapshot/chat.rs:12`). -/
structure ChatSnapshot where
  items : List ChatItemView
  hasMoreBefore : Bool
  hasMessages : Bool
  startCursor : Option String
  endCursor : Option String
  deriving DecidableEq

/-- `TaskChatChange` (`events.rs`). -/
inductive TaskChatChange where
  | append (item : ChatItemView)
  | upsert (item : ChatItemView)
  | appendText (messageId text : String)
  | replace (chat : ChatSnapshot)
  deriving DecidableEq

namespace ChatProjection

variable (imaging : Imaging)

/-- `project_chat_page` (`task_snapshot.rs:789`). -/
def projectChatPage (page : MessagePage) : ChatSnapshot where
  items := page.items.map fun chat => view imaging (projectChatItem chat)
  hasMoreBefore := page.hasBefore
  hasMessages := 0 < page.totalCount
  startCursor := page.startCursor
  endCursor := page.endCursor

/-- `ChatHistoryPolicy::default().task_snapshot_tail_limit()`. -/
def taskSnapshotTailLimit : Nat := 100

/-- The Chat part of `project_committed_changes` (`commit.rs:730`): a row is published as it is, a
whole Chat as a page shows it. -/
def projectChatChange (summarized : ToolStep → ToolStep) (p : TaskProjection) :
    CommittedChatChange → TaskChatChange
  | .append item => .append (view imaging item)
  | .upsert item => .upsert (view imaging item)
  | .appendText messageId text => .appendText messageId text
  | .replace =>
    let total := p.messages.length
    let start := chatPageStart p.messages (total - taskSnapshotTailLimit) total
    .replace (projectChatPage imaging (pageFromProjection summarized p start total))

end ChatProjection

end OpenAide

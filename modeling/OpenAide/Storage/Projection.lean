import OpenAide.Library.Fallible
import OpenAide.Storage.Model

/-!
# Applying operations to a Task projection

`storage/task_journal/projection.rs`.  A batch of operations is first validated against a private
shadow (`validateOperations`), then applied (`applyOperations`); the journal replays frames through
the second alone.  Both look only at the entry of the Task they are given, so the map of recovered
Tasks is that entry here.

A projection is a Task record and a `Chat`: messages, their metadata, artifact heads.  The main fact
is that the two do not mix: what an operation does to the Chat, and whether it fails, depends on the
Chat alone (`edit_eq`, `applyTo_eq`), and the only field of the Task record that a Chat operation
touches is the history version (`unversioned_applyTask`).  So leaving the Task operations out of a
durable frame loses nothing of the Chat.
-/

namespace OpenAide

open Library

/-- `RecoveredTask` (`store.rs`). -/
inductive RecoveredTask where
  | available (projection : TaskProjection) (journalSequence : Nat)
  | unavailable (error : String)
  deriving DecidableEq

/-- `u64::checked_add`, with the error of its overflow. -/
def checkedAdd (a b : Nat) (overflow : String) : Except RuntimeError Nat :=
  if a + b < 2 ^ 64 then .ok (a + b) else .error (.storage overflow)

/-- A character an artifact id may have. -/
def isArtifactIdChar (c : Char) : Bool := c.isAlphanum || c == '_' || c == '-'

/-- `validate_artifact_id` (`artifact.rs:351`). -/
def validateArtifactId (artifactId : String) : Except RuntimeError Unit :=
  if artifactId.isEmpty || !artifactId.toList.all isArtifactIdChar then
    .error (.storage "Invalid Tool artifact id")
  else .ok ()

namespace Projection

/-! ## Messages -/

/-- `validate_text_target` (`projection.rs:321`). -/
def validateTextTarget (messages : List StoredMessage) (identity : String) :
    Except RuntimeError Unit :=
  match messages.find? (·.chat.identity = identity) with
  | none => .error (.conflict "Agent text target is missing")
  | some stored =>
    match stored.chat.message with
    | .agentMessage m =>
      match m.parts.getLast? with
      | some (.text _) => .ok ()
      | _ => .error (.conflict "Agent text target has no trailing text part")
    | _ => .error (.conflict "Agent text target changed content channel")

/-- Append to the last part, a text. -/
def appendToLastPart (chunk : String) : List AgentMessagePart → List AgentMessagePart
  | [.text text] => [.text (text ++ chunk)]
  | part :: rest => part :: appendToLastPart chunk rest
  | [] => []

def appendToMessage (chunk : String) (stored : StoredMessage) : StoredMessage :=
  match stored.chat.message with
  | .agentMessage m =>
    { stored with
      chat := { stored.chat with
        message := .agentMessage { m with parts := appendToLastPart chunk m.parts } } }
  | _ => stored

/-- Change the first row with an identity. -/
def updateFirst (identity : String) (f : StoredMessage → StoredMessage) :
    List StoredMessage → List StoredMessage
  | [] => []
  | stored :: rest =>
    if stored.chat.identity = identity then f stored :: rest
    else stored :: updateFirst identity f rest

/-- `append_text` (`projection.rs:339`). -/
def appendText (messages : List StoredMessage) (identity chunk : String) :
    Except RuntimeError (List StoredMessage) := do
  validateTextTarget messages identity
  return updateFirst identity (appendToMessage chunk) messages

/-- `validate_message_meta` (`projection.rs:359`). -/
def validateMessageMeta (taskId : String) (messageMeta : MessageMeta) : Except RuntimeError Unit :=
  if messageMeta.taskId ≠ taskId then
    .error (.storage "Task journal message metadata identity does not match")
  else .ok ()

def duplicateMessage : RuntimeError :=
  .conflict "Task journal message append duplicates durable identity"

/-- `validate_message_set` (`projection.rs:368`). -/
def validateMessageSet (messages : List StoredMessage) : Except RuntimeError Unit :=
  if (messages.map (·.sequence)).Nodup ∧ (messages.map (·.chat.identity)).Nodup ∧
      (messages.map (·.chat.messageId)).Nodup then .ok ()
  else .error duplicateMessage

/-- Whether two rows share a sequence, an identity or a message id. -/
def clash (stored message : StoredMessage) : Bool :=
  stored.sequence = message.sequence || stored.chat.identity = message.chat.identity ||
    stored.chat.messageId = message.chat.messageId

/-- `validate_message_append` (`projection.rs:385`). -/
def validateMessageAppend (messages : List StoredMessage) (message : StoredMessage) :
    Except RuntimeError Unit :=
  if messages.any (clash · message) then .error duplicateMessage else .ok ()

/-- Whether a row other than the one at `index` shares a sequence or a message id. -/
def collides (messages : List StoredMessage) (index : Nat) (message : StoredMessage) : Bool :=
  (messages.zipIdx).any fun (stored, candidate) =>
    candidate ≠ index && (stored.sequence = message.sequence ||
      stored.chat.messageId = message.chat.messageId)

/-- `upsert_message` (`projection.rs:401`). -/
def upsertMessage (messages : List StoredMessage) (message : StoredMessage) :
    Except RuntimeError (List StoredMessage) :=
  match messages.findIdx? (·.chat.identity = message.chat.identity) with
  | some index =>
    if collides messages index message then
      .error (.conflict "Task journal message upsert collides with durable identity")
    else .ok (messages.set index message)
  | none => do
    validateMessageAppend messages message
    return messages ++ [message]

/-! ## Validation -/

/-- The shadow, which has to exist. -/
def shadow (projection : Option TaskProjection) (taskId : String) :
    Except RuntimeError TaskProjection :=
  match projection with
  | some p => .ok p
  | none => .error (.taskNotFound taskId)

/-- One round of the loop of `validate_operations`. -/
def validateOperation (taskId : String) (projection : Option TaskProjection) :
    TaskOperation → Except RuntimeError (Option TaskProjection)
  | .create created =>
    if projection.isSome then .error (.conflict s!"Task already exists: {taskId}")
    else if created.task.taskId ≠ taskId ∨ created.messageMeta.taskId ≠ taskId then
      .error (.storage "Task journal create identities do not match")
    else .ok (some created)
  | .replaceTask task => do
    let p ← shadow projection taskId
    if task.taskId ≠ taskId then
      .error (.storage "Task journal replacement identity does not match")
    else .ok (some { p with task })
  | .replaceProjection replacement => do
    let _ ← shadow projection taskId
    if replacement.task.taskId ≠ taskId ∨ replacement.messageMeta.taskId ≠ taskId then
      .error (.storage "Task journal replacement identities do not match")
    else .ok (some replacement)
  | .appendText identity _ _ _ => do
    let p ← shadow projection taskId
    validateTextTarget p.messages identity
    return some p
  | .appendMessage message => do
    let p ← shadow projection taskId
    validateMessageAppend p.messages message
    return some { p with messages := p.messages ++ [message] }
  | .upsertMessage message => do
    let p ← shadow projection taskId
    return some { p with messages := ← upsertMessage p.messages message }
  | .replaceMessages messages messageMeta => do
    let p ← shadow projection taskId
    validateMessageMeta taskId messageMeta
    validateMessageSet messages
    return some { p with messages, messageMeta }
  | .replaceMessageMeta messageMeta => do
    let p ← shadow projection taskId
    validateMessageMeta taskId messageMeta
    return some { p with messageMeta }
  | .commitArtifact artifactId artifactSequence => do
    let p ← shadow projection taskId
    validateArtifactId artifactId
    let expected ← checkedAdd ((p.artifactHeads.get? artifactId).getD 0) 1
      "Tool artifact sequence overflow"
    if artifactSequence ≠ expected then
      .error (.storage
        s!"Tool artifact sequence gap: expected {expected}, found {artifactSequence}")
    else
      .ok (some { p with artifactHeads := p.artifactHeads.insert artifactId artifactSequence })

/-- `validate_operations` (`projection.rs:14`). -/
def validateOperations (current : Option RecoveredTask) (taskId : String)
    (operations : List TaskOperation) : Except RuntimeError Unit := do
  let projection ← match current with
    | some (.available projection _) => .ok (some projection)
    | some (.unavailable error) => .error (.storage error)
    | none => .ok none
  let _ ← operations.foldlM (validateOperation taskId) projection
  return ()

/-! ## Application -/

/-- `available_projection_mut`: the entry of a Task that can be changed. -/
def availableProjection (entry : Option RecoveredTask) (taskId : String) :
    Except RuntimeError (TaskProjection × Nat) :=
  match entry with
  | some (.available projection journalSequence) => .ok (projection, journalSequence)
  | some (.unavailable error) => .error (.storage error)
  | none => .error (.taskNotFound taskId)

/-- The variables of the loop of `apply_operations`. -/
structure Applying where
  entry : Option RecoveredTask
  historyChanged : Bool := false
  messageMetaReplaced : Bool := false

/-- Change the projection in place. -/
def Applying.update (s : Applying) (taskId : String)
    (f : TaskProjection → Except RuntimeError TaskProjection) : Except RuntimeError Applying := do
  let (projection, journalSequence) ← availableProjection s.entry taskId
  return { s with entry := some (.available (← f projection) journalSequence) }

/-- Put in place new message metadata, which brings its own history version. -/
def replaceMeta (p : TaskProjection) (messageMeta : MessageMeta) : TaskProjection :=
  { p with
    messageMeta
    task := { p.task with messageHistoryVersion := messageMeta.version } }

/-- One round of the loop of `apply_operations`. -/
def applyOperation (taskId : String) (sequence : Nat) (s : Applying) :
    TaskOperation → Except RuntimeError Applying
  | .create projection => .ok { s with entry := some (.available projection sequence) }
  | .replaceTask task => s.update taskId fun p => .ok { p with task }
  | .replaceProjection projection =>
    match s.entry with
    | some (.available _ journalSequence) =>
      .ok { s with entry := some (.available projection journalSequence) }
    | some (.unavailable _) => .error (.storage "Task is unavailable")
    | none => .error (.taskNotFound taskId)
  | .appendText identity text localHistoryUpdatedAt _ => do
    let s ← s.update taskId fun p => do
      let messages ← appendText p.messages identity text
      return { p with messages, messageMeta := { p.messageMeta with localHistoryUpdatedAt } }
    return { s with historyChanged := true }
  | .appendMessage message => do
    let s ← s.update taskId fun p => do
      validateMessageAppend p.messages message
      return { p with messages := p.messages ++ [message] }
    return { s with historyChanged := true }
  | .upsertMessage message => do
    let s ← s.update taskId fun p => do
      return { p with messages := ← upsertMessage p.messages message }
    return { s with historyChanged := true }
  | .replaceMessages messages messageMeta => do
    validateMessageSet messages
    validateMessageMeta taskId messageMeta
    let s ← s.update taskId fun p => .ok (replaceMeta { p with messages } messageMeta)
    return { s with messageMetaReplaced := true }
  | .replaceMessageMeta messageMeta => do
    validateMessageMeta taskId messageMeta
    let s ← s.update taskId fun p => .ok (replaceMeta p messageMeta)
    return { s with messageMetaReplaced := true }
  | .commitArtifact artifactId artifactSequence =>
    s.update taskId fun p =>
      .ok { p with artifactHeads := p.artifactHeads.insert artifactId artifactSequence }

/-- The next history version, in the Chat and in the Task record. -/
def advanceVersion (p : TaskProjection) : Except RuntimeError TaskProjection := do
  let version ← checkedAdd p.messageMeta.version 1 "Message history version overflow"
  return replaceMeta p { p.messageMeta with version }

/-- `apply_operations` (`projection.rs:140`). -/
def applyOperations (entry : Option RecoveredTask) (taskId : String)
    (operations : List TaskOperation) (sequence : Nat) : Except RuntimeError RecoveredTask := do
  let s ← operations.foldlM (applyOperation taskId sequence) { entry }
  let s ← if s.historyChanged && !s.messageMetaReplaced then s.update taskId advanceVersion
    else .ok s
  match s.entry with
  | some (.available projection _) => .ok (.available projection sequence)
  | some (.unavailable _) => .error (.storage s!"Task is unavailable: {taskId}")
  | none => .error (.taskNotFound taskId)

/-! ## Task record and Chat apart -/

end Projection

/-- What a projection holds besides the Task record. -/
structure Chat where
  messages : List StoredMessage
  messageMeta : MessageMeta
  artifactHeads : Assoc String Nat
  deriving DecidableEq

def TaskProjection.chat (p : TaskProjection) : Chat := ⟨p.messages, p.messageMeta, p.artifactHeads⟩

def Chat.withTask (c : Chat) (task : TaskRecord) : TaskProjection :=
  ⟨task, c.messages, c.messageMeta, c.artifactHeads⟩

@[simp] theorem Chat.chat_withTask (c : Chat) (task : TaskRecord) :
    (c.withTask task).chat = c := rfl

@[simp] theorem Chat.task_withTask (c : Chat) (task : TaskRecord) : (c.withTask task).task = task :=
  rfl

@[simp] theorem TaskProjection.withTask_chat (p : TaskProjection) :
    p.chat.withTask p.task = p := rfl

variable {p : TaskProjection}

theorem TaskProjection.eq_of {q : TaskProjection} (hc : p.chat = q.chat) (ht : p.task = q.task) :
    p = q := by
  rw [← p.withTask_chat, ← q.withTask_chat, hc, ht]

namespace TaskOperation

def isCreate : TaskOperation → Bool
  | create _ => true
  | _ => false

/-- Operations after which `apply_operations` counts the history as changed. -/
def changesHistory : TaskOperation → Bool
  | appendText .. => true
  | appendMessage _ => true
  | upsertMessage _ => true
  | _ => false

/-- Operations that bring their own history version. -/
def replacesMeta : TaskOperation → Bool
  | replaceMessages .. => true
  | replaceMessageMeta _ => true
  | _ => false

/-- The Task record an operation puts in place. -/
def task? : TaskOperation → Option TaskRecord
  | replaceTask task => some task
  | replaceProjection p => some p.task
  | _ => none

end TaskOperation

namespace Projection

/-- What an operation does to the Chat of an available Task. -/
def editChat (taskId : String) (c : Chat) : TaskOperation → Except RuntimeError Chat
  | .create p => .ok p.chat
  | .replaceTask _ => .ok c
  | .replaceProjection p => .ok p.chat
  | .appendText identity text localHistoryUpdatedAt _ => do
    let messages ← appendText c.messages identity text
    return { c with messages, messageMeta := { c.messageMeta with localHistoryUpdatedAt } }
  | .appendMessage message => do
    validateMessageAppend c.messages message
    return { c with messages := c.messages ++ [message] }
  | .upsertMessage message => do
    return { c with messages := ← upsertMessage c.messages message }
  | .replaceMessages messages messageMeta => do
    validateMessageSet messages
    validateMessageMeta taskId messageMeta
    return { c with messages, messageMeta }
  | .replaceMessageMeta messageMeta => do
    validateMessageMeta taskId messageMeta
    return { c with messageMeta }
  | .commitArtifact artifactId artifactSequence =>
    .ok { c with artifactHeads := c.artifactHeads.insert artifactId artifactSequence }

/-- What an operation does to the Task record. -/
def editTask (task : TaskRecord) : TaskOperation → TaskRecord
  | .create p => p.task
  | .replaceTask t => t
  | .replaceProjection p => p.task
  | .replaceMessages _ messageMeta => task.withVersion messageMeta.version
  | .replaceMessageMeta messageMeta => task.withVersion messageMeta.version
  | _ => task

/-- Whether a list of operations advances the history version on its own. -/
def advances (operations : List TaskOperation) : Bool :=
  operations.any (·.changesHistory) && !operations.any (·.replacesMeta)

/-- The Chat after a list of operations. -/
def applyChat (taskId : String) (c : Chat) (operations : List TaskOperation) :
    Except RuntimeError Chat := do
  let c ← operations.foldlM (editChat taskId) c
  if advances operations then do
    let version ← checkedAdd c.messageMeta.version 1 "Message history version overflow"
    return { c with messageMeta := { c.messageMeta with version } }
  else .ok c

/-- The Task record after a list of operations that left the Chat at `version`. -/
def applyTask (task : TaskRecord) (operations : List TaskOperation) (version : Nat) : TaskRecord :=
  let task := operations.foldl editTask task
  if advances operations then task.withVersion version else task

variable (taskId : String)

theorem update_available (n : Nat) (p : TaskProjection) (h m : Bool)
    (f : TaskProjection → Except RuntimeError TaskProjection) :
    Applying.update ⟨some (.available p n), h, m⟩ taskId f = do
      return ⟨some (.available (← f p) n), h, m⟩ := rfl

theorem applyOperation_available (sequence n : Nat) (p : TaskProjection)
    (h m : Bool) {op : TaskOperation} (hop : op.isCreate = false) :
    applyOperation taskId sequence ⟨some (.available p n), h, m⟩ op = do
      let c ← editChat taskId p.chat op
      return ⟨some (.available (c.withTask (editTask p.task op)) n), h || op.changesHistory,
        m || op.replacesMeta⟩ := by
  cases op with
  | create p => cases hop
  | replaceProjection p' =>
    simp [applyOperation, editChat, editTask, TaskOperation.changesHistory,
      TaskOperation.replacesMeta]
  | _ =>
    -- both sides run the same checks on the same rows, then rebuild the projection
    simp only [applyOperation, update_available, editChat, editTask, bind_assoc, pure_bind,
      TaskOperation.changesHistory, TaskOperation.replacesMeta, Bool.or_false, Bool.or_true]
    rfl

variable {operations : List TaskOperation}

theorem foldlM_applyOperation (sequence n : Nat) (p : TaskProjection) (h m : Bool)
    (hops : ∀ op ∈ operations, op.isCreate = false) :
    operations.foldlM (applyOperation taskId sequence) ⟨some (.available p n), h, m⟩ = do
      let c ← operations.foldlM (editChat taskId) p.chat
      return ⟨some (.available (c.withTask (operations.foldl editTask p.task)) n),
        h || operations.any (·.changesHistory), m || operations.any (·.replacesMeta)⟩ := by
  induction operations generalizing p h m with
  | nil => simp
  | cons op rest ih =>
    have hop := hops op List.mem_cons_self
    have hrest : ∀ op ∈ rest, op.isCreate = false := fun o ho => hops o (List.mem_cons_of_mem _ ho)
    simp only [List.foldlM_cons, List.foldl_cons, List.any_cons, bind_assoc,
      applyOperation_available taskId sequence n p h m hop, pure_bind]
    refine bind_congr fun c => ?_
    rw [ih _ _ _ hrest]
    simp only [Chat.chat_withTask, Chat.task_withTask, Bool.or_assoc]

/-- **Applying operations to an available Task**: the Chat evolves on its own, and the record
follows it. -/
theorem applyOperations_available (sequence n : Nat) (p : TaskProjection)
    (hops : ∀ op ∈ operations, op.isCreate = false) :
    applyOperations (some (.available p n)) taskId operations sequence = do
      let c ← applyChat taskId p.chat operations
      return .available (c.withTask (applyTask p.task operations c.messageMeta.version))
        sequence := by
  simp only [applyOperations, foldlM_applyOperation taskId sequence n p false false hops,
    Bool.false_or, applyChat, applyTask, bind_assoc, pure_bind]
  refine bind_congr fun c => ?_
  cases hadv : advances operations with
  | false =>
    rw [advances] at hadv
    simp only [hadv, Bool.false_eq_true, if_false]
    rfl
  | true =>
    rw [advances] at hadv
    simp only [hadv, if_true, update_available, advanceVersion, bind_assoc, pure_bind,
      Chat.withTask]
    rfl

variable {taskId : String}

theorem applyOperations_eq_ok {sequence n : Nat} (hops : ∀ op ∈ operations, op.isCreate = false)
    {task' : RecoveredTask}
    (h : applyOperations (some (.available p n)) taskId operations sequence = .ok task') :
    ∃ c, applyChat taskId p.chat operations = .ok c ∧
      task' = .available (c.withTask (applyTask p.task operations c.messageMeta.version))
        sequence := by
  rw [applyOperations_available taskId sequence n p hops] at h
  cases hc : applyChat taskId p.chat operations with
  | error e => rw [hc] at h; cases h
  | ok c => rw [hc] at h; cases h; exact ⟨c, rfl, rfl⟩

/-! ### The Task record -/

/-- The record the last Task operation put in place, or else the one before. -/
def lastTask (task : TaskRecord) (operations : List TaskOperation) : TaskRecord :=
  operations.foldl (fun task op => op.task?.getD task) task

theorem unversioned_foldl_editTask (hops : ∀ op ∈ operations, op.isCreate = false)
    {a b : TaskRecord} (h : a.unversioned = b.unversioned) :
    (operations.foldl editTask a).unversioned = (lastTask b operations).unversioned := by
  induction operations generalizing a b with
  | nil => exact h
  | cons op rest ih =>
    have hop := hops op List.mem_cons_self
    refine ih (fun o ho => hops o (List.mem_cons_of_mem _ ho)) ?_
    cases op <;> first | exact h | rfl | cases hop

/-- **Operations change the record as the Task operations among them say**, and besides only its
history version. -/
theorem unversioned_applyTask (hops : ∀ op ∈ operations, op.isCreate = false) (task : TaskRecord)
    (version : Nat) :
    (applyTask task operations version).unversioned = (lastTask task operations).unversioned := by
  unfold applyTask
  split
  · rw [TaskRecord.unversioned_withVersion]
    exact unversioned_foldl_editTask hops rfl
  · exact unversioned_foldl_editTask hops rfl

/-! ### What validation promises -/

/-- What is checked of an operation alone: the identities it carries, and those of the rows it
brings. -/
def Identified (taskId : String) : TaskOperation → Prop
  | .replaceTask task => task.taskId = taskId
  | .replaceProjection p => p.task.taskId = taskId ∧ p.messageMeta.taskId = taskId
  | .replaceMessages messages messageMeta =>
    validateMessageMeta taskId messageMeta = .ok () ∧ validateMessageSet messages = .ok ()
  | .replaceMessageMeta messageMeta => validateMessageMeta taskId messageMeta = .ok ()
  | _ => True

theorem validateOperation_some {op : TaskOperation} {next : Option TaskProjection}
    (h : validateOperation taskId (some p) op = .ok next) :
    op.isCreate = false ∧ Identified taskId op ∧ next.isSome := by
  cases op with
  | create created => simp [validateOperation] at h
  | replaceTask task =>
    by_cases ht : task.taskId = taskId
    · simp only [validateOperation, shadow, bind, Except.bind, ht, ne_eq, not_true, if_false] at h
      cases h
      exact ⟨rfl, ht, rfl⟩
    · simp [validateOperation, shadow, bind, Except.bind, ht] at h
  | replaceProjection q =>
    by_cases hq : q.task.taskId ≠ taskId ∨ q.messageMeta.taskId ≠ taskId
    · simp [validateOperation, shadow, bind, Except.bind, if_pos hq] at h
    · simp only [validateOperation, shadow, bind, Except.bind, if_neg hq] at h
      cases h
      exact ⟨rfl, by simpa [not_or, Identified] using hq, rfl⟩
  | appendText identity text updatedAt taskUpdatedAt =>
    cases hx : validateTextTarget p.messages identity <;>
      simp only [validateOperation, shadow, bind, Except.bind, hx] at h <;> cases h
    exact ⟨rfl, trivial, rfl⟩
  | appendMessage message =>
    cases hx : validateMessageAppend p.messages message <;>
      simp only [validateOperation, shadow, bind, Except.bind, hx] at h <;> cases h
    exact ⟨rfl, trivial, rfl⟩
  | upsertMessage message =>
    cases hx : upsertMessage p.messages message <;>
      simp only [validateOperation, shadow, bind, Except.bind, hx] at h <;> cases h
    exact ⟨rfl, trivial, rfl⟩
  | replaceMessages messages messageMeta =>
    cases hx : validateMessageMeta taskId messageMeta <;>
      simp only [validateOperation, shadow, bind, Except.bind, hx] at h <;> try cases h
    cases hy : validateMessageSet messages <;> simp only [hy] at h <;> cases h
    exact ⟨rfl, ⟨hx, hy⟩, rfl⟩
  | replaceMessageMeta messageMeta =>
    cases hx : validateMessageMeta taskId messageMeta <;>
      simp only [validateOperation, shadow, bind, Except.bind, hx] at h <;> cases h
    exact ⟨rfl, hx, rfl⟩
  | commitArtifact artifactId artifactSequence =>
    refine ⟨rfl, trivial, ?_⟩
    simp only [validateOperation, shadow, bind, Except.bind] at h
    repeat' split at h
    all_goals cases h
    rfl

theorem foldlM_validateOperation {projection next : Option TaskProjection} (hp : projection.isSome)
    (h : operations.foldlM (validateOperation taskId) projection = .ok next) :
    ∀ op ∈ operations, op.isCreate = false ∧ Identified taskId op := by
  induction operations generalizing projection with
  | nil => simp
  | cons op rest ih =>
    obtain ⟨p, rfl⟩ := Option.isSome_iff_exists.mp hp
    rw [List.foldlM_cons] at h
    cases hstep : validateOperation taskId (some p) op with
    | error e => rw [hstep] at h; cases h
    | ok middle =>
      rw [hstep] at h
      obtain ⟨hcreate, hid, hsome⟩ := validateOperation_some hstep
      intro o ho
      rcases List.mem_cons.mp ho with rfl | ho
      · exact ⟨hcreate, hid⟩
      · exact ih hsome h o ho

/-- **Validated operations of an existing Task** create nothing and carry its identity. -/
theorem validateOperations_available {n : Nat}
    (h : validateOperations (some (.available p n)) taskId operations = .ok ()) :
    ∀ op ∈ operations, op.isCreate = false ∧ Identified taskId op := by
  simp only [validateOperations, bind, Except.bind] at h
  cases hfold : operations.foldlM (validateOperation taskId) (some p) with
  | error e => rw [hfold] at h; cases h
  | ok next => exact foldlM_validateOperation rfl hfold

theorem taskId_lastTask (hops : ∀ op ∈ operations, Identified taskId op) {task : TaskRecord}
    (ht : task.taskId = taskId) : (lastTask task operations).taskId = taskId := by
  induction operations generalizing task with
  | nil => exact ht
  | cons op rest ih =>
    refine ih (fun o ho => hops o (List.mem_cons_of_mem _ ho)) ?_
    have hop := hops op List.mem_cons_self
    cases op with
    | replaceTask t => exact hop
    | replaceProjection p => exact hop.1
    | _ => exact ht

end Projection

end OpenAide

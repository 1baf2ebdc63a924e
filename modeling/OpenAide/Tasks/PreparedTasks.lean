import OpenAide.Library.Keyed
import OpenAide.Library.Programs
import OpenAide.Snapshots.TaskSnapshot
import OpenAide.Tasks.Turns

/-!
# Prepared Tasks

A Prepared Task is an empty Task whose Agent session is made ready before its first message.  It is
leased to one client, or it lies in the free pool until a client asks for its Agent and workspace.
This is the code of `tasks/mutation/commit.rs:155-588`, which runs under the one lock of
`TaskMutations`, over the records the store lists.

* `TaskCatalog`: what the store serves.  A commit changes the catalog after its frame is durable
  (`task_journal/store.rs:587-606`), so a write either shows whole or not at all; one that fails
  ends the operation it is part of.  A Task whose durable state is in doubt is frozen: its record
  stays listed and nothing of it can be loaded.
* `acquirePreparedTask`, `releasePreparedTask`, `reconcilePreparedTaskPool`,
  `disposePreparedTasksMatching`, over `Library.Prog`, so that every write may fail and every
  operation may be cut short between two writes.
* `PoolEvent`: those operations and every other commit that reaches a record, `PoolRun` the runs.

Snapshots for the response, publication and logging read the catalog and leave it alone; they are
left out.
-/

namespace OpenAide

open Library
open Prog (get ofExcept perform)

/-! ## The catalog -/

/-- A Task as the store serves it: its record in the catalog and the rows of its Chat. -/
structure CatalogTask where
  task : ShownTask
  messages : List StoredMessage := []
  deriving DecidableEq

structure TaskCatalog where
  tasks : List CatalogTask := []
  /-- Tasks whose projection is `Unavailable`. -/
  frozen : List String := []
  deriving DecidableEq

variable {s : TaskCatalog}

namespace TaskCatalog

/-- The Tasks of the catalog, by id. -/
def taskIds (s : TaskCatalog) : List String := s.tasks.map (·.task.taskId)

/-- The catalog is a map from ids. -/
def Keyed (s : TaskCatalog) : Prop := s.taskIds.Nodup

/-- `list_all_task_records` (`task_store.rs:53`), the values of the catalog's map. -/
def listAllTaskRecords (s : TaskCatalog) : List ShownTask := s.tasks.map (·.task)

/-- `TaskJournalStore::load` (`store/reads.rs:11`). -/
def load (s : TaskCatalog) (taskId : String) : Except RuntimeError CatalogTask :=
  if taskId ∈ s.frozen then
    .error (.storage "Task storage is frozen after a durability failure")
  else match s.tasks.find? (·.task.taskId = taskId) with
    | some entry => .ok entry
    | none => .error (.taskNotFound taskId)

/-- `read_task` (`task_store.rs:36`). -/
def readTask (s : TaskCatalog) (taskId : String) : Except RuntimeError ShownTask :=
  (·.task) <$> s.load taskId

/-- `read_messages` (`message_store.rs:118`). -/
def readMessages (s : TaskCatalog) (taskId : String) : Except RuntimeError (List StoredMessage) :=
  (·.messages) <$> s.load taskId

/-- Put an entry in the place of the one with its id. -/
def set (s : TaskCatalog) (entry : CatalogTask) : TaskCatalog :=
  { s with
    tasks := s.tasks.map fun e => if e.task.taskId = entry.task.taskId then entry else e }

theorem taskIds_set (s : TaskCatalog) (entry : CatalogTask) :
    (s.set entry).taskIds = s.taskIds := by
  unfold taskIds set
  rw [List.map_map]
  refine List.map_congr_left fun e _ => ?_
  by_cases h : e.task.taskId = entry.task.taskId
  · simp [h]
  · simp [h]

variable {entry : CatalogTask}

theorem mem_set {e : CatalogTask} (h : e ∈ (s.set entry).tasks) :
    e = entry ∨ e ∈ s.tasks ∧ e.task.taskId ≠ entry.task.taskId := by
  obtain ⟨old, hold, rfl⟩ := List.mem_map.mp h
  by_cases hid : old.task.taskId = entry.task.taskId
  · exact .inl (if_pos hid)
  · rw [if_neg hid]
    exact .inr ⟨hold, hid⟩

theorem load_eq_ok {taskId : String} (h : s.load taskId = .ok entry) :
    taskId ∉ s.frozen ∧ entry ∈ s.tasks ∧ entry.task.taskId = taskId := by
  unfold load at h
  split at h
  · cases h
  · next hfrozen =>
    split at h
    · next found hfind =>
      cases h
      exact ⟨hfrozen, List.mem_of_find?_eq_some hfind, by simpa using List.find?_some hfind⟩
    · cases h

theorem load_of_mem (hkeyed : s.Keyed) (hmem : entry ∈ s.tasks)
    (hfrozen : entry.task.taskId ∉ s.frozen) : s.load entry.task.taskId = .ok entry := by
  unfold load
  rw [if_neg hfrozen, find?_key hkeyed hmem]

end TaskCatalog

/-! ## Writes -/

/-- The writes of this code: a new Task, the next state of a Task, and the removal of one. -/
inductive CatalogWrite where
  | create (entry : CatalogTask)
  | replace (entry : CatalogTask)
  | purge (taskId : String)

namespace TaskCatalog

/-- What a write does to the catalog when the journal takes it. -/
def write (s : TaskCatalog) : CatalogWrite → Except RuntimeError TaskCatalog
  | .create entry =>
    match s.load entry.task.taskId with
    | .ok _ => .error (.conflict s!"Task already exists: {entry.task.taskId}")
    | .error (.taskNotFound _) => .ok { s with tasks := s.tasks ++ [entry] }
    | .error error => .error error
  | .replace entry => do
    let _ ← s.load entry.task.taskId
    .ok (s.set entry)
  | .purge taskId =>
    match s.tasks.find? (·.task.taskId = taskId) with
    | none => .error (.taskNotFound taskId)
    | some entry =>
      if entry.task.tombstoned then
        .ok { s with tasks := s.tasks.filter (·.task.taskId ≠ taskId) }
      else .error (.conflict "Only a tombstoned Task can be physically purged")

/-- A write that fails leaves the catalog as it was. -/
instance : Device TaskCatalog CatalogWrite RuntimeError where
  perform a s := s.write a
  torn _ s s' := s' = s
  fault _ := True
  torn_refl _ _ := rfl

theorem load_eq_notFound {taskId message : String}
    (h : s.load taskId = .error (.taskNotFound message)) : taskId ∉ s.taskIds := by
  unfold load at h
  split at h
  · cases h
  · split at h
    · cases h
    · next hfind =>
      intro hmem
      obtain ⟨entry, hentry, hid⟩ := List.mem_map.mp hmem
      have hnone := List.find?_eq_none.mp hfind entry hentry
      simp [hid] at hnone

theorem write_eq_ok {s' : TaskCatalog} {a : CatalogWrite} (h : s.write a = .ok s') :
    (∃ entry, a = .create entry ∧ entry.task.taskId ∉ s.taskIds ∧
        s' = { s with tasks := s.tasks ++ [entry] }) ∨
      (∃ entry, a = .replace entry ∧ s' = s.set entry) ∨
      ∃ taskId, a = .purge taskId ∧
        s' = { s with tasks := s.tasks.filter (·.task.taskId ≠ taskId) } := by
  cases a with
  | create entry =>
    refine .inl ⟨entry, rfl, ?_⟩
    simp only [write] at h
    split at h
    · cases h
    · next hload =>
      cases h
      exact ⟨load_eq_notFound hload, rfl⟩
    · cases h
  | replace entry =>
    refine .inr (.inl ⟨entry, rfl, ?_⟩)
    simp only [write, bind, Except.bind] at h
    split at h
    · cases h
    · cases h
      rfl
  | purge taskId =>
    refine .inr (.inr ⟨taskId, rfl, ?_⟩)
    simp only [write] at h
    split at h
    · cases h
    · split at h
      · cases h
        rfl
      · cases h

end TaskCatalog

/-- Programs over the catalog. -/
abbrev PoolProg (α : Type) := Prog TaskCatalog CatalogWrite RuntimeError RuntimeError α

/-- `persist_changed_task` (`commit.rs:594`): the record a caller changed, with the versions of
the next commit, over the rows the journal has. -/
def committed (original task : ShownTask) : ShownTask :=
  { task with taskVersion := task.taskVersion + 1, revision := original.revision + 1 }

def persistChangedTask (original task : ShownTask) : PoolProg ShownTask := do
  let s ← get
  let projection ← ofExcept (s.load task.taskId)
  perform (.replace { projection with task := committed original task }) id
  return committed original task

/-- `persist_new_task` (`persist_new.rs:10`): the first commit of a Task. -/
def newRecord (task : ShownTask) (initialMessages : List StoredMessage) : ShownTask :=
  { task with messageHistoryVersion := initialMessages.length, revision := 1 }

def persistNewTask (task : ShownTask) (initialMessages : List StoredMessage) :
    PoolProg ShownTask := do
  perform
    (.create { task := newRecord task initialMessages, messages := initialMessages }) id
  return newRecord task initialMessages

/-! ## Acquiring -/

/-- A Task that `client` holds, tombstoned or not. -/
def ShownTask.leasedBy (client : String) (task : ShownTask) : Bool :=
  task.lifecycle = .prepared (some client)

/-- A Task that lies in the pool. -/
def ShownTask.isFree (task : ShownTask) : Bool :=
  !task.tombstoned && task.lifecycle = .prepared none

/-- The record of a Task that goes. -/
def ShownTask.tombstone (task : ShownTask) : ShownTask := { task with tombstoned := true }

/-- Two Tasks can stand for each other. -/
def ShownTask.sameKey (a b : ShownTask) : Bool :=
  a.agentId = b.agentId && a.workspaceRoot = b.workspaceRoot

/-- The Agent's preferences are in place. -/
def ShownTask.preferencesSettled (values : StoredValues) (task : ShownTask) : Bool :=
  task.configMutation.preferences.all fun preferences =>
    (values.preferences preferences).state = .settled

def TaskPreparationRecord.isFailed : TaskPreparationRecord → Bool
  | failed _ _ => true
  | _ => false

/-- The Agent's session is gone; the empty Task can be replaced. -/
def TaskPreparationRecord.sessionMissing : TaskPreparationRecord → Bool
  | failed _ nativeSessionMissing => nativeSessionMissing
  | _ => false

section Operations

variable (values : StoredValues)

/-- `is_reusable_prepared_task` (`commit.rs:289`). -/
def isReusablePreparedTask (s : TaskCatalog) (task : ShownTask) : Bool :=
  !task.tombstoned && task.lifecycle = .prepared none && task.preparation = .ready &&
    task.preferencesSettled values && task.status = .inactive && task.activeTurnId.isNone &&
    match s.readMessages task.taskId with
    | .ok messages => messages.isEmpty
    | .error _ => false

/-- What `acquire_prepared_task` answers with. -/
inductive Acquired where
  | committed (task : ShownTask)
  | noChange (task : ShownTask)

/-- `acquire_prepared_task` (`commit.rs:155`). -/
def acquirePreparedTask (task : ShownTask) (initialMessages : List StoredMessage) :
    PoolProg Acquired :=
  match task.lifecycle with
  | .prepared (some requestingClient) => do
    let s ← get
    match s.listAllTaskRecords.find? fun candidate =>
        !candidate.tombstoned && candidate.leasedBy requestingClient with
    | some existing =>
      if existing.agentId ≠ task.agentId ∨ existing.workspaceRoot ≠ task.workspaceRoot then
        .throw (.conflict "Release the current Prepared Task before acquiring another context")
      else if existing.preparation.sessionMissing then do
        let _ ← persistChangedTask existing
          { existing with
            lifecycle := .prepared none, tombstoned := true, updatedAt := task.updatedAt }
        return .committed (← persistNewTask task initialMessages)
      else return .noChange existing
    | none =>
      match s.listAllTaskRecords.find? fun candidate =>
          isReusablePreparedTask values s candidate && candidate.sameKey task with
      | some existing =>
        return .committed (← persistChangedTask existing
          { existing with lifecycle := .prepared (some requestingClient) })
      | none =>
        match s.readTask task.taskId with
        | .ok _ => .throw (.invalidParams "task_id")
        | .error (.taskNotFound _) => return .committed (← persistNewTask task initialMessages)
        | .error error => .throw error
  | _ => .throw (.invalidParams "task.lifecycle")

/-! ## Releasing -/

/-- `FREE_PREPARED_TASK_CAP` (`commit.rs:312`). -/
def freePreparedTaskCap : Nat := 8

/-- Oldest first, then by id: the order of `release_prepared_task`. -/
def olderFirst (a b : ShownTask) : Prop :=
  a.updatedAt < b.updatedAt ∨ a.updatedAt = b.updatedAt ∧ a.taskId ≤ b.taskId

instance : DecidableRel olderFirst := fun a b => by unfold olderFirst; infer_instance

/-- Newest first: the order of `reconcile_prepared_task_pool`. -/
def newerFirst (a b : ShownTask) : Prop := olderFirst b a

instance : DecidableRel newerFirst := fun a b => inferInstanceAs (Decidable (olderFirst b a))

/-- The reusable Tasks, which both sweeps over the pool list again. -/
def reusableTasks (s : TaskCatalog) : List ShownTask :=
  s.listAllTaskRecords.filter (isReusablePreparedTask values s)

/-- Tombstone one Task after another. -/
def evictEach : List ShownTask → PoolProg (List ShownTask)
  | [] => return []
  | task :: rest => do
    let evicted ← persistChangedTask task task.tombstone
    return evicted :: (← evictEach rest)

/-- A Prepared Task that something was done with. -/
def notEmptyOrIdle (s : TaskCatalog) (task : ShownTask) : Except RuntimeError Bool :=
  if task.status ≠ .inactive ∨ task.activeTurnId.isSome then .ok true
  else (fun messages => !messages.isEmpty) <$> s.readMessages task.taskId

/-- The record a release writes: free, or tombstoned if its preparation is not complete or a Task
for the same Agent and workspace lies in the pool already. -/
def releasedRecord (s : TaskCatalog) (now : String) (task : ShownTask) : ShownTask :=
  let freed := { task with lifecycle := .prepared none, updatedAt := now, lastActivity := now }
  let sameKeyAlreadyFree := s.listAllTaskRecords.any fun candidate =>
    candidate.taskId ≠ freed.taskId && candidate.sameKey freed &&
      isReusablePreparedTask values s candidate
  let preparationIncomplete := decide (freed.preparation ≠ .ready)
  { freed with tombstoned := freed.tombstoned || preparationIncomplete || sameKeyAlreadyFree }

/-- The second half of a release: the oldest of the reusable Tasks go, down to the cap. -/
def evictOverflow : PoolProg (List ShownTask) := do
  let free := (reusableTasks values (← get)).insertionSort olderFirst
  evictEach (free.take (free.length - freePreparedTaskCap))

/-- `release_prepared_task` (`commit.rs:314`). -/
def releasePreparedTask (clientInstanceId taskId now : String) : PoolProg (List ShownTask) := do
  let s ← get
  match s.readTask taskId with
  | .error (.taskNotFound _) => return []
  | .error error => .throw error
  | .ok task =>
    if !task.leasedBy clientInstanceId then return []
    else if ← ofExcept (notEmptyOrIdle s task) then
      .throw (.conflict "Only an empty inactive Prepared Task can be released")
    else do
      let released ← persistChangedTask task (releasedRecord values s now task)
      let evicted ← evictOverflow values
      return (if released.tombstoned then [released] else []) ++ evicted

/-! ## Reconciling -/

/-- The record the first loop of `reconcile_prepared_task_pool` makes of a Prepared Task. -/
def reconciled (clearLeases invalid : Bool) (lease : Option String) (task : ShownTask) :
    ShownTask :=
  let failedAndFree := (lease.isNone || clearLeases) && task.preparation.isFailed
  { task with
    lifecycle := if clearLeases then .prepared none else task.lifecycle
    tombstoned := task.tombstoned || invalid || failedAndFree }

/-- One round of that loop. -/
def reconcileTask (clearLeases : Bool) (task : ShownTask) : PoolProg (Option ShownTask) :=
  match task.lifecycle with
  | .prepared lease =>
    if task.tombstoned then return none
    else do
      let invalid ← ofExcept (notEmptyOrIdle (← get) task)
      let next := reconciled clearLeases invalid lease task
      if next.lifecycle = task.lifecycle ∧ next.tombstoned = task.tombstoned then return none
      else do
        let written ← persistChangedTask task next
        return if written.tombstoned then some written else none
  | _ => return none

/-- A loop over listed records that collects the ones it disposed of. -/
def collectDisposed (body : ShownTask → PoolProg (Option ShownTask)) :
    List ShownTask → PoolProg (List ShownTask)
  | [] => return []
  | task :: rest => do
    let disposed ← body task
    return disposed.toList ++ (← collectDisposed body rest)

/-- The second loop: keep one Task for each Agent and workspace, up to the cap. -/
def keepFree (keptKeys : List (String × String)) (keptCount : Nat) :
    List ShownTask → PoolProg (List ShownTask)
  | [] => return []
  | candidate :: rest =>
    let key := (candidate.agentId, candidate.workspaceRoot)
    if keptCount < freePreparedTaskCap ∧ key ∉ keptKeys then
      keepFree (key :: keptKeys) (keptCount + 1) rest
    else do
      let evicted ← persistChangedTask candidate candidate.tombstone
      return evicted :: (← keepFree keptKeys keptCount rest)

/-- `reconcile_prepared_task_pool` (`commit.rs:444`). -/
def reconcilePreparedTaskPool (clearLeases : Bool) : PoolProg (List ShownTask) := do
  let disposed ← collectDisposed (reconcileTask clearLeases) (← get).listAllTaskRecords
  let free := (reusableTasks values (← get)).insertionSort newerFirst
  return disposed ++ (← keepFree [] 0 free)

/-- One round of the loop of `dispose_prepared_tasks_matching`. -/
def disposeTask (matching : ShownTask → Bool) (task : ShownTask) : PoolProg (Option ShownTask) :=
  match task.lifecycle with
  | .prepared _ =>
    if task.tombstoned || !matching task then return none
    else do
      return some (← persistChangedTask task
        { task with lifecycle := .prepared none, tombstoned := true })
  | _ => return none

/-- `dispose_prepared_tasks_matching` (`commit.rs:560`), which every `dispose_` entry calls with
its own condition. -/
def disposePreparedTasksMatching (matching : ShownTask → Bool) : PoolProg (List ShownTask) := do
  collectDisposed (disposeTask matching) (← get).listAllTaskRecords

/-! ## The other commits -/

/-- `require_client_task_access` (`access.rs:7`). -/
def ShownTask.accessibleTo (client : String) (task : ShownTask) : Bool :=
  match task.lifecycle with
  | .open | .archived => true
  | .prepared lease => lease = some client

/-- The commit of a first Send (`send.rs:163`): the Task leaves the pool's lifecycle for good. -/
def sendMessage (client taskId turnId now : String) (rows : List StoredMessage) :
    PoolProg Bool := do
  let entry ← ofExcept ((← get).load taskId)
  let task := entry.task
  if task.tombstoned || !task.accessibleTo client || task.activeTurnId.isSome ||
      !task.preferencesSettled values || task.preparation ≠ .ready then
    return false
  else do
    let sent := { task with
      status := .starting, lifecycle := .open, activeTurnId := some turnId
      activeTurnStartedAt := some now, updatedAt := now, lastActivity := now }
    perform (.replace { task := committed task sent, messages := entry.messages ++ rows }) id
    return true

inductive DeleteMode where
  | archive | restore | delete

/-- The commit of `task_commands.rs:60`.  Project removal and retention tombstone in the same
way. -/
def hideTask (mode : DeleteMode) (taskId : String) : PoolProg Unit := do
  let task ← ofExcept ((← get).readTask taskId)
  match mode with
  | .archive =>
    if task.lifecycle = .archived then return ()
    else let _ ← persistChangedTask task { task with lifecycle := .archived }
  | .restore =>
    if task.lifecycle ≠ .archived then return ()
    else let _ ← persistChangedTask task { task with lifecycle := .open }
  | .delete =>
    if task.tombstoned then return ()
    else let _ ← persistChangedTask task task.tombstone

/-- What every other commit of a Task may set: preparation, preferences, turns and rows.  None
touches the lifecycle, the tombstone, the Agent or the workspace. -/
structure TaskEdit where
  status : TaskStatus
  activeTurnId : Option String
  updatedAt : String
  preparation : TaskPreparationRecord
  configMutation : TaskConfigMutationState
  messages : List StoredMessage

def TaskEdit.apply (edit : TaskEdit) (task : ShownTask) : ShownTask :=
  { task with
    status := edit.status, activeTurnId := edit.activeTurnId, updatedAt := edit.updatedAt
    preparation := edit.preparation, configMutation := edit.configMutation }

/-- `commit_existing_task` (`commit.rs:51`) with such an edit.  Archived history is not edited. -/
def commitExistingTask (taskId : String) (edit : TaskEdit) : PoolProg Unit := do
  let entry ← ofExcept ((← get).load taskId)
  if Turns.archivedEdit entry.task.toTaskRecord (edit.apply entry.task).toTaskRecord then return ()
  perform
    (.replace { task := committed entry.task (edit.apply entry.task), messages := edit.messages })
    id

/-- **The record it stores is the one that `Turns.commitExistingTask` stores** for a mutation with
this edit, which keeps what a mutation may not touch. -/
theorem task_commitExistingTask (imaging : Imaging) {p : TaskProjection} {task : ShownTask}
    (hp : p.task = task.toTaskRecord) (edit : TaskEdit) :
    (Turns.commitExistingTask imaging false p fun ctx =>
      .ok (.changed (Turns.editTask ctx fun _ => (edit.apply task).toTaskRecord))).task =
      (if Turns.archivedEdit task.toTaskRecord (edit.apply task).toTaskRecord then task
        else committed task (edit.apply task)).toTaskRecord := by
  have hvalid : Turns.validTask task.toTaskRecord (edit.apply task).toTaskRecord := by
    simp [Turns.validTask, TaskEdit.apply]
  have hdecode : p.messages.all (fun row =>
      row ∈ p.messages ∨ ChatImages.AllDecode imaging row.chat.message) = true :=
    List.all_eq_true.mpr fun row hrow => decide_eq_true (.inl hrow)
  have hstores : Turns.stores imaging p { p with task := (edit.apply task).toTaskRecord } =
      !Turns.archivedEdit task.toTaskRecord (edit.apply task).toTaskRecord := by
    simp only [Turns.stores, hp, hvalid, hdecode, Bool.and_true]
  unfold Turns.commitExistingTask
  dsimp only [Turns.editTask, TaskMutationContext.perform]
  rw [hstores]
  cases Turns.archivedEdit task.toTaskRecord (edit.apply task).toTaskRecord
  · simp [Turns.persisted, committedRecord, committed, hp]
  · simp [hp]

/-! ## Events -/

/-- What happens to the catalog. -/
inductive PoolEvent where
  | acquire (task : ShownTask) (initialMessages : List StoredMessage)
  | release (clientInstanceId taskId now : String)
  | reconcile (clearLeases : Bool)
  | dispose (matching : ShownTask → Bool)
  | send (client taskId turnId now : String) (rows : List StoredMessage)
  | hide (mode : DeleteMode) (taskId : String)
  | purge (taskId : String)
  /-- A Task that starts in the product's history, an adopted session or a fork. -/
  | create (task : ShownTask) (messages : List StoredMessage)
  | commit (taskId : String) (edit : TaskEdit)
  /-- A durable write of this Task failed, or one of its files could not be read. -/
  | freeze (taskId : String)

def PoolEvent.program : PoolEvent → PoolProg Unit
  | acquire task messages => do let _ ← acquirePreparedTask values task messages
  | release client taskId now => do let _ ← releasePreparedTask values client taskId now
  | reconcile clearLeases => do let _ ← reconcilePreparedTaskPool values clearLeases
  | dispose matching => do let _ ← disposePreparedTasksMatching matching
  | send client taskId turnId now rows => do
    let _ ← sendMessage values client taskId turnId now rows
  | hide mode taskId => hideTask mode taskId
  | purge taskId => perform (.purge taskId) id
  | create task messages => do let _ ← persistNewTask { task with lifecycle := .open } messages
  | commit taskId edit => commitExistingTask taskId edit
  | freeze taskId => .modify (fun s => { s with frozen := taskId :: s.frozen }) (return ())

structure PoolStep where
  before : TaskCatalog
  event : PoolEvent
  after : TaskCatalog

/-- Runs from an empty store.  An operation may fail at any write and may be cut short between
two; the order in which the catalog's map lists its records may change at any time. -/
inductive PoolRun : List PoolStep → TaskCatalog → Prop where
  | start : PoolRun [] {}
  | step {trace s event o s'} (h : PoolRun trace s)
      (hrun : Prog.Run (event.program values) s o s') : PoolRun (trace ++ [⟨s, event, s'⟩]) s'
  | reorder {trace s tasks} (h : PoolRun trace s) (hperm : tasks.Perm s.tasks) :
      PoolRun trace { s with tasks := tasks }

end Operations

end OpenAide

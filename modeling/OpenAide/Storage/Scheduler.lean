import OpenAide.Storage.Model

/-!
# The write scheduler

`storage/task_journal/scheduler.rs`: bounded admission shared by all callers, and the one physical
writer that takes batches.  Each Task has a queue; Tasks that have one take turns in `ready`.

The mutex makes every call one step, so the model is a state (`SchedulerState`) and one function per
method.  A caller that waits on the condition variable has not been let in: `admitWrite` answers
`waits`, and the caller is the same call made again later.  `next` returns the work it would hand to
the writer; the wait of at most 32 ms that gathers a larger batch is a delay before that step.

`reply` numbers the receipts, in admission order in every run (`Scheduler.run`).
-/

namespace OpenAide.Scheduler

open Library

/-! ## State -/

def GLOBAL_STREAM_BYTE_CAPACITY : Nat := 8 * 1024 * 1024

def PER_TASK_STREAM_BYTE_CAPACITY : Nat := 2 * 1024 * 1024

def CONTROL_CAPACITY : Nat := 64

def MAX_BATCH_BYTES : Nat := 64 * 1024

def MAX_BATCH_OPERATIONS : Nat := 256

/-- A write in the queue with the receipt its caller may wait for. -/
structure QueuedWrite where
  write : TaskWrite
  reply : Nat
  deriving DecidableEq

structure PendingTask where
  writes : List QueuedWrite := []
  queuedBytes : Nat := 0
  queuedOperations : Nat := 0
  streamBytes : Nat := 0
  controlWrites : Nat := 0

structure SchedulerState where
  pending : String → Option PendingTask := fun _ => none
  ready : List String := []
  globalStreamBytes : Nat := 0
  globalControlWrites : Nat := 0
  peakGlobalStreamBytes : Nat := 0
  peakTaskStreamBytes : Nat := 0
  resetReply : Option Nat := none
  resetting : Bool := false
  purgeReply : Option (String × Nat) := none
  purging : Bool := false
  shutdownReply : Option Nat := none
  closed : Bool := false

/-- The queue of a Task. -/
def SchedulerState.queue (s : SchedulerState) (taskId : String) : List QueuedWrite :=
  ((s.pending taskId).map PendingTask.writes).getD []

/-! ## Admission -/

def unavailable : RuntimeError := .storage "Task journal worker is unavailable"

def hasPendingExclusiveControl (s : SchedulerState) : Bool :=
  s.resetReply.isSome || s.resetting || s.purgeReply.isSome || s.purging

variable (sizes : JsonSizes)

def validateWriteSize (write : TaskWrite) : Except RuntimeError Unit :=
  if !write.boundary.isControl ∧ PER_TASK_STREAM_BYTE_CAPACITY < write.estimatedBytes sizes then
    .error (.storage "Task journal stream write exceeds admission capacity")
  else .ok ()

def hasCapacity (s : SchedulerState) (write : TaskWrite) : Bool :=
  if write.boundary.isControl then s.globalControlWrites < CONTROL_CAPACITY
  else
    let taskBytes := ((s.pending write.taskId).map PendingTask.streamBytes).getD 0
    write.estimatedBytes sizes ≤ GLOBAL_STREAM_BYTE_CAPACITY - s.globalStreamBytes &&
      write.estimatedBytes sizes ≤ PER_TASK_STREAM_BYTE_CAPACITY - taskBytes

/-- `enqueue` (`scheduler.rs:355`). -/
def enqueue (s : SchedulerState) (write : TaskWrite) (reply : Nat) : SchedulerState :=
  let isNew := (s.pending write.taskId).isNone
  let writeBytes := write.estimatedBytes sizes
  let entry := (s.pending write.taskId).getD {}
  let entry := { entry with
    queuedBytes := saturatingAdd entry.queuedBytes writeBytes
    queuedOperations := saturatingAdd entry.queuedOperations write.operationCount
    streamBytes := if write.boundary.isControl then entry.streamBytes
      else entry.streamBytes + writeBytes
    controlWrites := if write.boundary.isControl then entry.controlWrites + 1
      else entry.controlWrites
    writes := entry.writes ++ [⟨write, reply⟩] }
  let globalStreamBytes := if write.boundary.isControl then s.globalStreamBytes
    else s.globalStreamBytes + writeBytes
  { s with
    pending := Function.update s.pending write.taskId (some entry)
    ready := if isNew then s.ready ++ [write.taskId] else s.ready
    globalStreamBytes := globalStreamBytes
    globalControlWrites := if write.boundary.isControl then s.globalControlWrites + 1
      else s.globalControlWrites
    peakGlobalStreamBytes := if write.boundary.isControl then s.peakGlobalStreamBytes
      else max s.peakGlobalStreamBytes globalStreamBytes
    peakTaskStreamBytes := if write.boundary.isControl then s.peakTaskStreamBytes
      else max s.peakTaskStreamBytes entry.streamBytes }

/-- What a call that may block answers. -/
inductive AdmitResult where
  | waits
  | failed (e : RuntimeError)
  | admitted (s : SchedulerState)

/-- `admit` of the source (`scheduler.rs:91`). -/
def admitWrite (s : SchedulerState) (write : TaskWrite) (reply : Nat) : AdmitResult :=
  match validateWriteSize sizes write with
  | .error e => .failed e
  | .ok () =>
    if s.closed || s.shutdownReply.isSome then .failed unavailable
    else if hasPendingExclusiveControl s || !hasCapacity sizes s write then .waits
    else .admitted (enqueue sizes s write reply)

/-- `try_admit` (`scheduler.rs:117`): a write that does not fit comes back to its caller. -/
def tryAdmit (s : SchedulerState) (write : TaskWrite) (reply : Nat) :
    Except RuntimeError (Option TaskWrite) × SchedulerState :=
  match validateWriteSize sizes write with
  | .error e => (.error e, s)
  | .ok () =>
    if s.closed || s.shutdownReply.isSome then (.error unavailable, s)
    else if hasPendingExclusiveControl s || !hasCapacity sizes s write then (.ok (some write), s)
    else (.ok none, enqueue sizes s write reply)

/-! ## Exclusive control -/

def requestShutdown (s : SchedulerState) (reply : Nat) : Except RuntimeError SchedulerState :=
  if s.closed || s.shutdownReply.isSome then .error unavailable
  else .ok { s with shutdownReply := some reply }

/-- What keeps a reset or a purge out. -/
def controlBusy (s : SchedulerState) : Bool :=
  s.closed || s.shutdownReply.isSome || hasPendingExclusiveControl s

def requestReset (s : SchedulerState) (reply : Nat) : Except RuntimeError SchedulerState :=
  if controlBusy s then .error unavailable else .ok { s with resetReply := some reply }

def finishReset (s : SchedulerState) : SchedulerState := { s with resetting := false }

def requestPurge (s : SchedulerState) (taskId : String) (reply : Nat) :
    Except RuntimeError SchedulerState :=
  if controlBusy s then .error unavailable else .ok { s with purgeReply := some (taskId, reply) }

def finishPurge (s : SchedulerState) : SchedulerState := { s with purging := false }

def close (s : SchedulerState) : SchedulerState := { s with closed := true }

/-- `fail_all` (`scheduler.rs:231`), after the writer died: every queued receipt is answered with
the error and nothing stays queued.  A reset or purge that the writer had begun stays marked. -/
def failAll (s : SchedulerState) : SchedulerState :=
  { s with
    closed := true
    pending := fun _ => none
    ready := []
    globalStreamBytes := 0
    globalControlWrites := 0
    shutdownReply := none
    resetReply := none
    purgeReply := none }

/-! ## Taking a batch -/

def exceedsBatch (bytes operations : Nat) : Bool :=
  MAX_BATCH_BYTES < bytes || MAX_BATCH_OPERATIONS < operations

/-- The loop of `take_batch` (`scheduler.rs:416`): the batch, and what stays queued. -/
def takeFront : (batch : List QueuedWrite) → (bytes operations : Nat) → List QueuedWrite →
    List QueuedWrite × List QueuedWrite
  | batch, _, _, [] => (batch, [])
  | batch, bytes, operations, front :: rest =>
    let nextBytes := front.write.estimatedBytes sizes
    let nextOperations := front.write.operationCount
    if batch.head?.any fun first => first.write.isSubagent != front.write.isSubagent then
      (batch, front :: rest)
    else if !batch.isEmpty && exceedsBatch (bytes + nextBytes) (operations + nextOperations) then
      (batch, front :: rest)
    else if front.write.boundary.isControl then (batch ++ [front], rest)
    else takeFront (batch ++ [front]) (bytes + nextBytes) (operations + nextOperations) rest

def firstControlBoundary (writes : List QueuedWrite) : Option CommitBoundary :=
  writes.findSome? fun queued =>
    if queued.write.boundary.isControl then some queued.write.boundary else none

/-- The loop of `take_text_barrier_batch` (`scheduler.rs:488`): the selected text with its barrier,
and what is retained.  `started` says that something is selected already. -/
def selectText : (started : Bool) → (bytes operations : Nat) → List QueuedWrite →
    List QueuedWrite × List QueuedWrite
  | _, _, _, [] => ([], [])
  | started, bytes, operations, queued :: rest =>
    match queued.write.boundary with
    | .textStream =>
      let nextBytes := bytes + queued.write.estimatedBytes sizes
      let nextOperations := operations + queued.write.operationCount
      if started && exceedsBatch nextBytes nextOperations then ([], queued :: rest)
      else
        let later := selectText true nextBytes nextOperations rest
        (queued :: later.1, later.2)
    | .textBarrier => ([queued], rest)
    | .stream | .barrier =>
      let later := selectText started bytes operations rest
      (later.1, queued :: later.2)

/-- The counters of a Task after one of its writes left the queue. -/
def PendingTask.discharge (task : PendingTask) (queued : QueuedWrite) : PendingTask :=
  let bytes := queued.write.estimatedBytes sizes
  { task with
    queuedBytes := task.queuedBytes - bytes
    queuedOperations := task.queuedOperations - queued.write.operationCount
    streamBytes := if queued.write.boundary.isControl then task.streamBytes
      else task.streamBytes - bytes
    controlWrites := if queued.write.boundary.isControl then task.controlWrites - 1
      else task.controlWrites }

/-- The global counters after a write left its queue. -/
def SchedulerState.discharge (s : SchedulerState) (queued : QueuedWrite) : SchedulerState :=
  { s with
    globalStreamBytes := if queued.write.boundary.isControl then s.globalStreamBytes
      else s.globalStreamBytes - queued.write.estimatedBytes sizes
    globalControlWrites := if queued.write.boundary.isControl then s.globalControlWrites - 1
      else s.globalControlWrites }

/-- The batch the queue of a Task gives, and what stays queued. -/
def splitQueue (writes : List QueuedWrite) : List QueuedWrite × List QueuedWrite :=
  if firstControlBoundary writes = some .textBarrier then selectText sizes false 0 0 writes
  else takeFront sizes [] 0 0 writes

/-- `take_batch` (`scheduler.rs:402`) and `take_text_barrier_batch` (`scheduler.rs:480`). -/
def takeBatch (s : SchedulerState) (taskId : String) : List QueuedWrite × SchedulerState :=
  match s.pending taskId with
  | none => ([], s)
  | some task =>
    let (batch, rest) := splitQueue sizes task.writes
    let task := { batch.foldl (PendingTask.discharge sizes) task with writes := rest }
    let s := batch.foldl (SchedulerState.discharge sizes) s
    if rest.isEmpty then (batch, { s with pending := Function.update s.pending taskId none })
    else (batch, { s with
      pending := Function.update s.pending taskId (some task)
      ready := s.ready ++ [taskId] })

/-- What the writer is handed. -/
inductive NextWork where
  | batch (taskId : String) (writes : List QueuedWrite)
  | reset (reply : Nat)
  | purge (taskId : String) (reply : Nat)
  | shutdown (reply : Nat)
  | closed

/-- `next` (`scheduler.rs:271`); `none` while it waits. -/
def next (s : SchedulerState) : Option (NextWork × SchedulerState) :=
  match s.ready with
  | taskId :: ready =>
    let (writes, s) := takeBatch sizes { s with ready := ready } taskId
    some (.batch taskId writes, s)
  | [] =>
    match s.resetReply, s.purgeReply with
    | some reply, _ => some (.reset reply, { s with resetReply := none, resetting := true })
    | none, some (taskId, reply) =>
      some (.purge taskId reply, { s with purgeReply := none, purging := true })
    | none, none =>
      match s.shutdownReply with
      | some reply =>
        if !s.resetting && !s.purging then
          some (.shutdown reply, { s with shutdownReply := none, closed := true })
        else if s.closed then some (.closed, s) else none
      | none => if s.closed then some (.closed, s) else none

/-! ## Runs -/

/-- One call of a caller or of the writer. -/
inductive Call where
  | admitWrite (write : TaskWrite)
  | tryAdmit (write : TaskWrite)
  | next
  | requestReset (reply : Nat)
  | finishReset
  | requestPurge (taskId : String) (reply : Nat)
  | finishPurge
  | requestShutdown (reply : Nat)
  | close

/-- A scheduler with what happened so far: the admitted writes in admission order and the batches
in the order they were handed out. -/
structure History where
  state : SchedulerState := {}
  admitted : List QueuedWrite := []
  batches : List (String × List QueuedWrite) := []

/-- Everything handed out, in order. -/
def History.dispatched (h : History) : List QueuedWrite := h.batches.flatMap Prod.snd

/-- A write was let in, and the admission left the scheduler in `state`. -/
def History.enter (h : History) (state : SchedulerState) (write : TaskWrite) : History :=
  { h with state, admitted := h.admitted ++ [⟨write, h.admitted.length⟩] }

/-- What one call does to the scheduler, and what it adds to the history. -/
def step (h : History) : Call → History
  | .admitWrite write =>
    match admitWrite sizes h.state write h.admitted.length with
    | .admitted state => h.enter state write
    | _ => h
  | .tryAdmit write =>
    match tryAdmit sizes h.state write h.admitted.length with
    | (.ok none, state) => h.enter state write
    | (_, state) => { h with state }
  | .next =>
    match next sizes h.state with
    | some (.batch taskId writes, s) =>
      { h with state := s, batches := h.batches ++ [(taskId, writes)] }
    | some (_, s) => { h with state := s }
    | none => h
  | .requestReset reply =>
    match requestReset h.state reply with
    | .ok s => { h with state := s }
    | .error _ => h
  | .finishReset => { h with state := finishReset h.state }
  | .requestPurge taskId reply =>
    match requestPurge h.state taskId reply with
    | .ok s => { h with state := s }
    | .error _ => h
  | .finishPurge => { h with state := finishPurge h.state }
  | .requestShutdown reply =>
    match requestShutdown h.state reply with
    | .ok s => { h with state := s }
    | .error _ => h
  | .close => { h with state := close h.state }

/-- The history of a run. -/
def run (calls : List Call) : History := calls.foldl (step sizes) {}

end OpenAide.Scheduler

import OpenAide.Storage.SchedulerOrder

/-!
# The counters of the write scheduler

`scheduler.rs` keeps per Task how many bytes and operations its queue holds and how many of them are
stream bytes and control writes, and two global sums.  Admission adds to them in `enqueue`; taking a
batch subtracts, in `take_batch` while writes leave the front and in `take_text_barrier_batch` after
writes left the middle of the queue.  Each counter is the sum of a weight over the queue, and that
is all the two loops have to keep, since a batch and the rest are a permutation of the queue
(`Split.perm`).

- `Balanced`: the ready list, and the counters that admission looks at, which never saturate;
  `balanced_enqueue`, `balanced_next` are what one call keeps of them;
- `Exact`: these and the bytes and operations of each queue, as long as those do not saturate;
- `counters_exact`: **in every reachable state the counters are the sums over the queues**, within
  the capacities, and no subtraction goes below zero.
-/

namespace OpenAide.Scheduler

open Library
open SchedulerState (discharge queue)

variable (sizes : JsonSizes)

/-! ## Weights -/

/-- What a write adds to the stream bytes. -/
def streamWeight (queued : QueuedWrite) : Nat :=
  if queued.write.boundary.isControl then 0 else queued.write.estimatedBytes sizes

/-- What a write adds to the control writes. -/
def controlWeight (queued : QueuedWrite) : Nat :=
  if queued.write.boundary.isControl then 1 else 0

/-- The sum of a weight over a queue. -/
def total (weight : QueuedWrite → Nat) (queue : List QueuedWrite) : Nat := (queue.map weight).sum

variable (weight : QueuedWrite → Nat)

@[simp] theorem total_nil : total weight [] = 0 := rfl

@[simp] theorem total_cons (w : QueuedWrite) (queue : List QueuedWrite) :
    total weight (w :: queue) = weight w + total weight queue := rfl

@[simp] theorem total_append (xs ys : List QueuedWrite) :
    total weight (xs ++ ys) = total weight xs + total weight ys := by
  simp only [total, List.map_append, List.sum_append]

variable {batch rest : List QueuedWrite}

theorem total_split {q : List QueuedWrite} (h : Split q batch rest) :
    total weight batch + total weight rest = total weight q := by
  rw [← total_append]
  exact (h.perm.map weight).sum_eq

/-- The counters of a Task that admission looks at are the sums over its queue. -/
structure PendingTask.Weighed (task : PendingTask) : Prop where
  streamBytes : task.streamBytes = total (streamWeight sizes) task.writes
  controlWrites : task.controlWrites = total controlWeight task.writes

/-- The counters of a Task that delay its batch are the sums over its queue. -/
structure PendingTask.Sized (task : PendingTask) : Prop where
  queuedBytes : task.queuedBytes = total (fun w => w.write.estimatedBytes sizes) task.writes
  queuedOperations : task.queuedOperations = total (fun w => w.write.operationCount) task.writes

/-- The sum of a weight over the queues of all Tasks. -/
def SchedulerState.total (s : SchedulerState) (weight : QueuedWrite → Nat) : Nat :=
  (s.ready.map fun id => Scheduler.total weight (s.queue id)).sum

/-- What the counters behind admission say is so.  With `ready_nodup` and `ready_iff` the ready list
is a permutation of the keys of `pending`, so that sums over `ready` are sums over Tasks. -/
structure Balanced (s : SchedulerState) : Prop where
  ready_nodup : s.ready.Nodup
  ready_iff : ∀ id, id ∈ s.ready ↔ (s.pending id).isSome
  waiting : ∀ id task, s.pending id = some task → task.writes ≠ []
  weighed : ∀ id task, s.pending id = some task → task.Weighed sizes
  globalStreamBytes : s.globalStreamBytes = s.total (streamWeight sizes)
  globalControlWrites : s.globalControlWrites = s.total controlWeight
  taskCapacity : ∀ id task, s.pending id = some task →
    task.streamBytes ≤ PER_TASK_STREAM_BYTE_CAPACITY
  streamCapacity : s.globalStreamBytes ≤ GLOBAL_STREAM_BYTE_CAPACITY
  controlCapacity : s.globalControlWrites ≤ CONTROL_CAPACITY

/-- What all counters say is so.  The two that this adds saturate, so they are exact only while they
do not. -/
structure Exact (s : SchedulerState) : Prop extends Balanced sizes s where
  sized : ∀ id task, s.pending id = some task → task.Sized sizes

/-- Wherever `take_batch` stands in a batch, each counter is at least what it subtracts next. -/
def NoUnderflow (s : SchedulerState) : Prop :=
  ∀ id task, s.pending id = some task →
    ∀ done w later, (splitQueue sizes task.writes).1 = done ++ w :: later →
      let task := done.foldl (PendingTask.discharge sizes) task
      let s := done.foldl (discharge sizes) s
      w.write.estimatedBytes sizes ≤ task.queuedBytes ∧
        w.write.operationCount ≤ task.queuedOperations ∧
        streamWeight sizes w ≤ task.streamBytes ∧ controlWeight w ≤ task.controlWrites ∧
        streamWeight sizes w ≤ s.globalStreamBytes ∧ controlWeight w ≤ s.globalControlWrites

/-! ## Sums over Tasks -/

variable {id : String}

/-- One summand changed. -/
theorem sum_map_change {f g : String → Nat} {ids : List String} (hnodup : ids.Nodup)
    (hid : id ∈ ids) (hfg : ∀ other, other ≠ id → g other = f other) :
    (ids.map g).sum + f id = (ids.map f).sum + g id := by
  have hrest : (ids.erase id).map g = (ids.erase id).map f :=
    List.map_congr_left fun other hother => hfg other (hnodup.mem_erase_iff.mp hother).1
  rw [← List.sum_map_erase g hid, ← List.sum_map_erase f hid, hrest]
  omega

theorem sum_map_same {f g : String → Nat} {ids : List String} (hid : id ∉ ids)
    (hfg : ∀ other, other ≠ id → g other = f other) : (ids.map g).sum = (ids.map f).sum := by
  rw [List.map_congr_left fun other hother => hfg other fun heq => hid (heq ▸ hother)]

/-! ## Admission -/

/-- The write can be added to its Task's counters without saturating them. -/
def Fits (s : SchedulerState) (write : TaskWrite) : Prop :=
  let entry := (s.pending write.taskId).getD {}
  entry.queuedBytes + write.estimatedBytes sizes < 2 ^ 64 ∧
    entry.queuedOperations + write.operationCount < 2 ^ 64

theorem saturatingAdd_eq {a b : Nat} (h : a + b < 2 ^ 64) : saturatingAdd a b = a + b := by
  unfold saturatingAdd
  omega

variable {s : SchedulerState}

theorem Balanced.weighed_getD (h : Balanced sizes s) (id : String) :
    ((s.pending id).getD {}).Weighed sizes := by
  cases hp : s.pending id with
  | none => exact ⟨rfl, rfl⟩
  | some task => exact h.weighed id task hp

theorem Exact.sized_getD (h : Exact sizes s) (id : String) :
    ((s.pending id).getD {}).Sized sizes := by
  cases hp : s.pending id with
  | none => exact ⟨rfl, rfl⟩
  | some task => exact h.sized id task hp

theorem Balanced.taskCapacity_getD (h : Balanced sizes s) (id : String) :
    ((s.pending id).getD {}).streamBytes ≤ PER_TASK_STREAM_BYTE_CAPACITY := by
  cases hp : s.pending id with
  | none => exact Nat.zero_le _
  | some task => exact h.taskCapacity id task hp

theorem queue_of_isNone (h : (s.pending id).isNone) : s.queue id = [] := by
  rw [queue, Option.isNone_iff_eq_none.mp h]
  rfl

theorem getD_writes (s : SchedulerState) (id : String) :
    ((s.pending id).getD {}).writes = s.queue id := by
  unfold queue
  cases s.pending id <;> rfl

variable {write : TaskWrite} {task : PendingTask} {reply : Nat}

theorem enqueue_writes (htask : (enqueue sizes s write reply).pending write.taskId = some task) :
    task.writes = s.queue write.taskId ++ [⟨write, reply⟩] := by
  simp only [enqueue, Function.update_self, Option.some.injEq] at htask
  subst htask
  rw [← getD_writes]

theorem enqueue_weighed (h : Balanced sizes s)
    (htask : (enqueue sizes s write reply).pending write.taskId = some task) :
    task.Weighed sizes := by
  have hentry := h.weighed_getD sizes write.taskId
  simp only [enqueue, Function.update_self, Option.some.injEq] at htask
  subst htask
  constructor
  · simp only [hentry.streamBytes, total_append, total_cons, total_nil, Nat.add_zero, streamWeight]
    split <;> rfl
  · simp only [hentry.controlWrites, total_append, total_cons, total_nil, Nat.add_zero,
      controlWeight]
    split <;> rfl

theorem enqueue_sized (h : Exact sizes s) (hfits : Fits sizes s write)
    (htask : (enqueue sizes s write reply).pending write.taskId = some task) :
    task.Sized sizes := by
  have hentry := h.sized_getD sizes write.taskId
  simp only [enqueue, Function.update_self, Option.some.injEq] at htask
  subst htask
  constructor
  · show saturatingAdd _ _ = _
    rw [saturatingAdd_eq hfits.1, hentry.queuedBytes, total_append]
    rfl
  · show saturatingAdd _ _ = _
    rw [saturatingAdd_eq hfits.2, hentry.queuedOperations, total_append]
    rfl

theorem enqueue_total (h : Balanced sizes s) (write : TaskWrite) (reply : Nat)
    (weight : QueuedWrite → Nat) :
    (enqueue sizes s write reply).total weight = s.total weight + weight ⟨write, reply⟩ := by
  have hother : ∀ other, other ≠ write.taskId →
      total weight ((enqueue sizes s write reply).queue other) = total weight (s.queue other) := by
    intro other hne
    rw [enqueue_queue, if_neg hne]
  have hself : total weight ((enqueue sizes s write reply).queue write.taskId) =
      total weight (s.queue write.taskId) + weight ⟨write, reply⟩ := by
    rw [enqueue_queue, if_pos rfl, total_append]
    rfl
  have hready : (enqueue sizes s write reply).ready =
      if (s.pending write.taskId).isNone then s.ready ++ [write.taskId] else s.ready := rfl
  unfold SchedulerState.total
  rw [hready]
  by_cases hnew : (s.pending write.taskId).isNone
  · have hid : write.taskId ∉ s.ready := by
      rw [h.ready_iff]
      simpa using hnew
    rw [if_pos hnew, List.map_append, List.sum_append, sum_map_same hid hother, List.map_singleton,
      List.sum_singleton, hself, queue_of_isNone hnew, total_nil, Nat.zero_add]
  · have hid : write.taskId ∈ s.ready := by
      rw [h.ready_iff]
      simpa [Option.isSome_iff_ne_none] using hnew
    have hsum := sum_map_change h.ready_nodup hid hother
    rw [hself] at hsum
    rw [if_neg hnew]
    omega

theorem hasCapacity_iff (h : Balanced sizes s) :
    hasCapacity sizes s write = true ↔
      if write.boundary.isControl then s.globalControlWrites < CONTROL_CAPACITY
      else s.globalStreamBytes + write.estimatedBytes sizes ≤ GLOBAL_STREAM_BYTE_CAPACITY ∧
        ((s.pending write.taskId).getD {}).streamBytes + write.estimatedBytes sizes ≤
          PER_TASK_STREAM_BYTE_CAPACITY := by
  have htask : ((s.pending write.taskId).map PendingTask.streamBytes).getD 0 =
      ((s.pending write.taskId).getD {}).streamBytes := by
    cases s.pending write.taskId <;> rfl
  have hbound := h.taskCapacity_getD sizes write.taskId
  have hglobal := h.streamCapacity
  unfold hasCapacity
  split
  · simp only [decide_eq_true_eq]
  · simp only [htask, Bool.and_eq_true, decide_eq_true_eq]
    omega

/-- **Admission within capacity keeps the balance.** -/
theorem balanced_enqueue (h : Balanced sizes s) (reply : Nat)
    (hcapacity : hasCapacity sizes s write = true) :
    Balanced sizes (enqueue sizes s write reply) := by
  have hcap := (hasCapacity_iff sizes h).mp hcapacity
  have hsome := enqueue_pending_isSome sizes s write reply
  have hother : ∀ id, id ≠ write.taskId →
      (enqueue sizes s write reply).pending id = s.pending id := fun id hne =>
    Function.update_of_ne hne _ _
  have hstream : (enqueue sizes s write reply).globalStreamBytes =
      s.globalStreamBytes + streamWeight sizes ⟨write, reply⟩ := by
    simp only [enqueue, streamWeight]
    split <;> rfl
  have hcontrol : (enqueue sizes s write reply).globalControlWrites =
      s.globalControlWrites + controlWeight ⟨write, reply⟩ := by
    simp only [enqueue, controlWeight]
    split <;> rfl
  have hready : (enqueue sizes s write reply).ready =
      if (s.pending write.taskId).isNone then s.ready ++ [write.taskId] else s.ready := rfl
  constructor
  · rw [hready]
    split_ifs with hnew
    · refine h.ready_nodup.append (List.nodup_singleton _)
        (List.disjoint_singleton.mpr fun hid => ?_)
      rw [h.ready_iff] at hid
      simp [Option.isNone_iff_eq_none.mp hnew] at hid
    · exact h.ready_nodup
  · intro id
    rw [hready, hsome]
    split_ifs with hnew
    · simp [h.ready_iff, or_comm]
    · have hold : (s.pending write.taskId).isSome := by
        simpa [Option.isSome_iff_ne_none] using hnew
      by_cases hid : id = write.taskId
      · simp [h.ready_iff, hid, hold]
      · simp [h.ready_iff, hid]
  · intro id task htask
    by_cases hid : id = write.taskId
    · subst hid
      simp [enqueue_writes sizes htask]
    · exact h.waiting id task (hother id hid ▸ htask)
  · intro id task htask
    by_cases hid : id = write.taskId
    · subst hid
      exact enqueue_weighed sizes h htask
    · exact h.weighed id task (hother id hid ▸ htask)
  · rw [hstream, enqueue_total sizes h, h.globalStreamBytes]
  · rw [hcontrol, enqueue_total sizes h, h.globalControlWrites]
  · intro id task htask
    by_cases hid : id = write.taskId
    · subst hid
      have hentry := (h.weighed_getD sizes write.taskId).streamBytes
      rw [getD_writes] at hentry
      rw [(enqueue_weighed sizes h htask).streamBytes, enqueue_writes sizes htask, total_append,
        ← hentry, total_cons, total_nil]
      unfold streamWeight
      split_ifs at hcap ⊢
      · exact h.taskCapacity_getD sizes write.taskId
      · exact hcap.2
    · exact h.taskCapacity id task (hother id hid ▸ htask)
  · rw [hstream]
    unfold streamWeight
    split_ifs at hcap ⊢
    · exact h.streamCapacity
    · exact hcap.1
  · rw [hcontrol]
    unfold controlWeight
    split_ifs at hcap ⊢
    · exact hcap
    · exact h.controlCapacity

/-- **Admission keeps the counters exact** while they do not saturate. -/
theorem exact_enqueue (h : Exact sizes s) (reply : Nat) (hfits : Fits sizes s write)
    (hcapacity : hasCapacity sizes s write = true) : Exact sizes (enqueue sizes s write reply) := by
  refine ⟨balanced_enqueue sizes h.toBalanced reply hcapacity, fun id task htask => ?_⟩
  by_cases hid : id = write.taskId
  · subst hid
    exact enqueue_sized sizes h hfits htask
  · have hother : (enqueue sizes s write reply).pending id = s.pending id :=
      Function.update_of_ne hid _ _
    exact h.sized id task (hother ▸ htask)

/-! ## Taking a batch -/

theorem discharge_task (task : PendingTask) (w : QueuedWrite) :
    task.discharge sizes w = { task with
      queuedBytes := task.queuedBytes - w.write.estimatedBytes sizes
      queuedOperations := task.queuedOperations - w.write.operationCount
      streamBytes := task.streamBytes - streamWeight sizes w
      controlWrites := task.controlWrites - controlWeight w } := by
  unfold PendingTask.discharge streamWeight controlWeight
  split <;> rfl

theorem discharge_state (s : SchedulerState) (w : QueuedWrite) :
    s.discharge sizes w = { s with
      globalStreamBytes := s.globalStreamBytes - streamWeight sizes w
      globalControlWrites := s.globalControlWrites - controlWeight w } := by
  unfold discharge streamWeight controlWeight
  split <;> rfl

theorem foldl_discharge_task (batch : List QueuedWrite) (task : PendingTask) :
    batch.foldl (PendingTask.discharge sizes) task = { task with
      queuedBytes := task.queuedBytes - total (fun w => w.write.estimatedBytes sizes) batch
      queuedOperations := task.queuedOperations - total (fun w => w.write.operationCount) batch
      streamBytes := task.streamBytes - total (streamWeight sizes) batch
      controlWrites := task.controlWrites - total controlWeight batch } := by
  induction batch generalizing task with
  | nil => rfl
  | cons w batch ih =>
    rw [List.foldl_cons, ih, discharge_task]
    simp only [total_cons, Nat.sub_sub]

theorem foldl_discharge_state (batch : List QueuedWrite) (s : SchedulerState) :
    batch.foldl (discharge sizes) s = { s with
      globalStreamBytes := s.globalStreamBytes - total (streamWeight sizes) batch
      globalControlWrites := s.globalControlWrites - total controlWeight batch } := by
  induction batch generalizing s with
  | nil => rfl
  | cons w batch ih =>
    rw [List.foldl_cons, ih, discharge_state]
    simp only [total_cons, Nat.sub_sub]

theorem total_rest {q : List QueuedWrite} (h : Split q batch rest) (weight : QueuedWrite → Nat) :
    total weight q - total weight batch = total weight rest := by
  rw [← total_split weight h, Nat.add_sub_cancel_left]

/-! The entry of the Task after a batch left, if anything is left of its queue. -/

theorem weighed_rest (h : task.Weighed sizes) (hsplit : Split task.writes batch rest) :
    PendingTask.Weighed sizes
      { batch.foldl (PendingTask.discharge sizes) task with writes := rest } := by
  rw [foldl_discharge_task]
  constructor
  · rw [← total_rest hsplit, ← h.streamBytes]
  · rw [← total_rest hsplit, ← h.controlWrites]

theorem sized_rest (h : task.Sized sizes) (hsplit : Split task.writes batch rest) :
    PendingTask.Sized sizes
      { batch.foldl (PendingTask.discharge sizes) task with writes := rest } := by
  rw [foldl_discharge_task]
  constructor
  · rw [← total_rest hsplit, ← h.queuedBytes]
  · rw [← total_rest hsplit, ← h.queuedOperations]

theorem takeBatch_pending (s : SchedulerState) (htask : s.pending id = some task) (other : String) :
    (takeBatch sizes s id).2.pending other =
      if other = id then
        if (splitQueue sizes task.writes).2.isEmpty then none
        else some { (splitQueue sizes task.writes).1.foldl (PendingTask.discharge sizes) task with
          writes := (splitQueue sizes task.writes).2 }
      else s.pending other := by
  simp only [takeBatch, htask]
  by_cases hempty : (splitQueue sizes task.writes).2.isEmpty
  · by_cases hid : other = id
    · simp [hempty, hid]
    · simp [hempty, hid]
  · by_cases hid : other = id
    · simp [hempty, hid]
    · simp [hempty, hid]

theorem takeBatch_globals (s : SchedulerState) (htask : s.pending id = some task) :
    (takeBatch sizes s id).2.globalStreamBytes =
        s.globalStreamBytes - total (streamWeight sizes) (splitQueue sizes task.writes).1 ∧
      (takeBatch sizes s id).2.globalControlWrites =
        s.globalControlWrites - total controlWeight (splitQueue sizes task.writes).1 := by
  simp only [takeBatch, htask, foldl_discharge_state]
  split <;> exact ⟨rfl, rfl⟩

variable {ready : List String}

theorem takeBatch_total (h : Balanced sizes s) (hready : s.ready = id :: ready)
    (weight : QueuedWrite → Nat) :
    (takeBatch sizes { s with ready := ready } id).2.total weight +
      total weight (splitQueue sizes (s.queue id)).1 = s.total weight := by
  have hsome : (s.pending id).isSome := (h.ready_iff id).mp (by simp [hready])
  obtain ⟨-, hqueue, -, hnext⟩ := takeBatch_spec sizes (s := { s with ready := ready }) hsome
  have hqueue' : ∀ other, (takeBatch sizes { s with ready := ready } id).2.queue other =
      if other = id then (splitQueue sizes (s.queue id)).2 else s.queue other := hqueue
  have hnext' : (takeBatch sizes { s with ready := ready } id).2.ready =
      ready ++ if (splitQueue sizes (s.queue id)).2.isEmpty then [] else [id] := hnext
  have hid : id ∉ ready := (List.nodup_cons.mp (hready ▸ h.ready_nodup)).1
  have hsum : ((ready.map fun other =>
      total weight ((takeBatch sizes { s with ready := ready } id).2.queue other)).sum) =
      (ready.map fun other => total weight (s.queue other)).sum := by
    refine sum_map_same hid fun other hne => ?_
    rw [hqueue', if_neg hne]
  have hsplit := total_split weight (splitQueue_split sizes (s.queue id))
  unfold SchedulerState.total
  rw [hnext', hready, List.map_append, List.sum_append, hsum, List.map_cons, List.sum_cons]
  by_cases hempty : (splitQueue sizes (s.queue id)).2.isEmpty
  · rw [List.isEmpty_iff.mp hempty, total_nil] at hsplit
    simp only [hempty, if_true, List.map_nil, List.sum_nil]
    omega
  · simp only [hempty, Bool.false_eq_true, if_false, List.map_singleton, List.sum_singleton,
      hqueue', if_true]
    omega

/-- **Taking a batch keeps the balance.** -/
theorem balanced_takeBatch (h : Balanced sizes s) (hready : s.ready = id :: ready) :
    Balanced sizes (takeBatch sizes { s with ready := ready } id).2 := by
  have hsome : (s.pending id).isSome := (h.ready_iff id).mp (by simp [hready])
  obtain ⟨task, htask⟩ := Option.isSome_iff_exists.mp hsome
  have hq : s.queue id = task.writes := by simp [queue, htask]
  have hsplit := splitQueue_split sizes task.writes
  obtain ⟨hid, hnodup⟩ := List.nodup_cons.mp (hready ▸ h.ready_nodup)
  have hpending := takeBatch_pending sizes { s with ready := ready } htask
  obtain ⟨hstream, hcontrol⟩ := takeBatch_globals sizes { s with ready := ready } htask
  have hnext := (takeBatch_spec sizes (s := { s with ready := ready }) hsome).2.2.2
  have hqueue : queue { s with ready := ready } id = task.writes := hq
  have htotal := takeBatch_total sizes h hready
  rw [hqueue] at hnext
  rw [hq] at htotal
  generalize (takeBatch sizes { s with ready := ready } id).2 = r at *
  generalize (splitQueue sizes task.writes).1 = batch at *
  generalize (splitQueue sizes task.writes).2 = rest at *
  -- an entry after the batch is an old one or what is left of the Task's own
  have hentry : ∀ {other : String} {after : PendingTask}, r.pending other = some after →
      s.pending other = some after ∨ (after.Weighed sizes ∧ after.writes ≠ [] ∧
        after.streamBytes ≤ task.streamBytes) := by
    intro other after hafter
    rw [hpending] at hafter
    split_ifs at hafter with hother hempty
    · cases hafter
      refine .inr ⟨weighed_rest sizes (h.weighed id task htask) hsplit, by simpa using hempty, ?_⟩
      rw [foldl_discharge_task]
      exact Nat.sub_le _ _
    · exact .inl hafter
  constructor
  · rw [hnext]
    split_ifs
    · simpa using hnodup
    · exact hnodup.append (List.nodup_singleton _) (List.disjoint_singleton.mpr hid)
  · intro other
    have hold : other ∈ ready ↔ other ≠ id ∧ (s.pending other).isSome := by
      rw [← h.ready_iff, hready, List.mem_cons]
      constructor
      · exact fun hmem => ⟨fun heq => hid (heq ▸ hmem), .inr hmem⟩
      · exact fun hmem => hmem.2.resolve_left hmem.1
    rw [hpending, hnext, List.mem_append, hold]
    by_cases hother : other = id <;> by_cases hempty : rest.isEmpty <;> simp [hother, hempty]
  · intro other after hafter
    obtain hafter | ⟨-, hne, -⟩ := hentry hafter
    · exact h.waiting other after hafter
    · exact hne
  · intro other after hafter
    obtain hafter | ⟨hweighed, -⟩ := hentry hafter
    · exact h.weighed other after hafter
    · exact hweighed
  · have hsum := htotal (streamWeight sizes)
    have hold := h.globalStreamBytes
    dsimp only at hstream
    omega
  · have hsum := htotal controlWeight
    have hold := h.globalControlWrites
    dsimp only at hcontrol
    omega
  · intro other after hafter
    obtain hafter | ⟨-, -, hle⟩ := hentry hafter
    · exact h.taskCapacity other after hafter
    · exact hle.trans (h.taskCapacity id task htask)
  · exact hstream ▸ (Nat.sub_le _ _).trans h.streamCapacity
  · exact hcontrol ▸ (Nat.sub_le _ _).trans h.controlCapacity

/-- **Taking a batch keeps the counters exact.** -/
theorem exact_takeBatch (h : Exact sizes s) (hready : s.ready = id :: ready) :
    Exact sizes (takeBatch sizes { s with ready := ready } id).2 := by
  refine ⟨balanced_takeBatch sizes h.toBalanced hready, fun other after hafter => ?_⟩
  obtain ⟨task, htask⟩ := Option.isSome_iff_exists.mp ((h.ready_iff id).mp (by simp [hready]))
  rw [takeBatch_pending sizes { s with ready := ready } htask] at hafter
  split_ifs at hafter
  · cases hafter
    exact sized_rest sizes (h.sized id task htask) (splitQueue_split sizes task.writes)
  · exact h.sized other after hafter

theorem Balanced.total_queue_le (h : Balanced sizes s) (htask : s.pending id = some task)
    (weight : QueuedWrite → Nat) : total weight task.writes ≤ s.total weight := by
  have hq : s.queue id = task.writes := by simp [queue, htask]
  have hid : id ∈ s.ready := (h.ready_iff id).mpr (by simp [htask])
  refine List.le_sum_of_mem (List.mem_map.mpr ⟨id, hid, ?_⟩)
  rw [hq]

/-- **Exact counters do not underflow.** -/
theorem Exact.noUnderflow (h : Exact sizes s) : NoUnderflow sizes s := by
  intro id task htask done w later hbatch
  have hsized := h.sized id task htask
  have hweighed := h.weighed id task htask
  have hle : ∀ weight : QueuedWrite → Nat,
      total weight done + weight w ≤ total weight task.writes := by
    intro weight
    have hsplit := total_split weight (splitQueue_split sizes task.writes)
    rw [hbatch, total_append, total_cons] at hsplit
    omega
  have hglobal : ∀ weight : QueuedWrite → Nat, total weight done + weight w ≤ s.total weight :=
    fun weight => (hle weight).trans (h.total_queue_le sizes htask weight)
  simp only [foldl_discharge_task, foldl_discharge_state, hsized.queuedBytes,
    hsized.queuedOperations, hweighed.streamBytes, hweighed.controlWrites, h.globalStreamBytes,
    h.globalControlWrites]
  exact ⟨Nat.le_sub_of_add_le' (hle _), Nat.le_sub_of_add_le' (hle _),
    Nat.le_sub_of_add_le' (hle _), Nat.le_sub_of_add_le' (hle _),
    Nat.le_sub_of_add_le' (hglobal _), Nat.le_sub_of_add_le' (hglobal _)⟩

/-! ## Every reachable state -/

theorem balanced_init : Balanced sizes {} where
  ready_nodup := List.nodup_nil
  ready_iff := by simp
  waiting := by simp
  weighed := by simp
  globalStreamBytes := rfl
  globalControlWrites := rfl
  taskCapacity := by simp
  streamCapacity := Nat.zero_le _
  controlCapacity := Nat.zero_le _

/-- What the counters are about is the same in both states. -/
structure SameQueues (s s' : SchedulerState) : Prop where
  pending : s'.pending = s.pending
  ready : s'.ready = s.ready
  globalStreamBytes : s'.globalStreamBytes = s.globalStreamBytes
  globalControlWrites : s'.globalControlWrites = s.globalControlWrites

variable {s' : SchedulerState}

theorem Balanced.of_same (h : Balanced sizes s) (hsame : SameQueues s s') : Balanced sizes s' := by
  obtain ⟨hpending, hready, hstream, hcontrol⟩ := hsame
  have htotal : ∀ weight, s'.total weight = s.total weight := by
    intro weight
    simp only [SchedulerState.total, queue, hready, hpending]
  constructor
  · exact hready ▸ h.ready_nodup
  · simpa [hready, hpending] using h.ready_iff
  · simpa [hpending] using h.waiting
  · simpa [hpending] using h.weighed
  · rw [hstream, htotal, h.globalStreamBytes]
  · rw [hcontrol, htotal, h.globalControlWrites]
  · simpa [hpending] using h.taskCapacity
  · exact hstream ▸ h.streamCapacity
  · exact hcontrol ▸ h.controlCapacity

theorem Exact.of_same (h : Exact sizes s) (hsame : SameQueues s s') : Exact sizes s' :=
  ⟨h.toBalanced.of_same sizes hsame, by simpa [hsame.pending] using h.sized⟩

theorem exact_init : Exact sizes {} := ⟨balanced_init sizes, by simp⟩

theorem exact_failAll (s : SchedulerState) : Exact sizes (failAll s) :=
  (exact_init sizes).of_same sizes ⟨rfl, rfl, rfl, rfl⟩

theorem sameQueues_next {work : NextWork} (hready : s.ready = [])
    (h : next sizes s = some (work, s')) : SameQueues s s' := by
  simp only [next, hready] at h
  split at h
  · cases h
    exact ⟨rfl, hready.symm, rfl, rfl⟩
  · cases h
    exact ⟨rfl, hready.symm, rfl, rfl⟩
  · split at h
    · split_ifs at h
      · cases h
        exact ⟨rfl, hready.symm, rfl, rfl⟩
      · cases h
        exact ⟨rfl, rfl, rfl, rfl⟩
    · split_ifs at h
      cases h
      exact ⟨rfl, rfl, rfl, rfl⟩

theorem next_cons (hready : s.ready = id :: ready) :
    next sizes s = some (.batch id (takeBatch sizes { s with ready := ready } id).1,
      (takeBatch sizes { s with ready := ready } id).2) := by
  simp only [next, hready]

/-- **Handing out work keeps the balance.** -/
theorem balanced_next (h : Balanced sizes s) {work : NextWork}
    (hnext : next sizes s = some (work, s')) : Balanced sizes s' := by
  cases hready : s.ready with
  | nil => exact h.of_same sizes (sameQueues_next sizes hready hnext)
  | cons id ready =>
    cases (next_cons sizes hready).symm.trans hnext
    exact balanced_takeBatch sizes h hready

/-- **Handing out work keeps the counters exact.** -/
theorem exact_next (h : Exact sizes s) {work : NextWork} (hnext : next sizes s = some (work, s')) :
    Exact sizes s' := by
  cases hready : s.ready with
  | nil => exact h.of_same sizes (sameQueues_next sizes hready hnext)
  | cons id ready =>
    cases (next_cons sizes hready).symm.trans hnext
    exact exact_takeBatch sizes h hready

/-- The write a call asks to admit fits into the counters. -/
def Call.Fits (s : SchedulerState) : Call → Prop
  | .admitWrite write => Scheduler.Fits sizes s write
  | .tryAdmit write => Scheduler.Fits sizes s write
  | _ => True

/-- **Every call keeps the counters exact.** -/
theorem exact_step {h : History} (hexact : Exact sizes h.state) {call : Call}
    (hfits : call.Fits sizes h.state) : Exact sizes (step sizes h call).state := by
  cases call with
  | admitWrite write =>
    simp only [step]
    split
    · rename_i hanswer
      obtain ⟨hcapacity, rfl⟩ := admitWrite_admitted sizes hanswer
      exact exact_enqueue sizes hexact _ hfits hcapacity
    · exact hexact
  | tryAdmit write =>
    rcases hanswer : tryAdmit sizes h.state write h.admitted.length with ⟨answer, s⟩
    obtain ⟨rfl, hcapacity, rfl⟩ | ⟨hne, rfl⟩ := tryAdmit_cases sizes hanswer
    · simp only [step, hanswer]
      exact exact_enqueue sizes hexact _ hfits hcapacity
    · simp only [step, hanswer]
      exact hexact
  | next =>
    simp only [step]
    split
    · rename_i hnext
      exact exact_next sizes hexact hnext
    · rename_i hnext
      exact exact_next sizes hexact hnext
    · exact hexact
  | requestReset reply =>
    simp only [step, requestReset]
    split_ifs
    · exact hexact
    · exact hexact.of_same sizes ⟨rfl, rfl, rfl, rfl⟩
  | finishReset => exact hexact.of_same sizes ⟨rfl, rfl, rfl, rfl⟩
  | requestPurge id reply =>
    simp only [step, requestPurge]
    split_ifs
    · exact hexact
    · exact hexact.of_same sizes ⟨rfl, rfl, rfl, rfl⟩
  | finishPurge => exact hexact.of_same sizes ⟨rfl, rfl, rfl, rfl⟩
  | requestShutdown reply =>
    simp only [step, requestShutdown]
    split_ifs
    · exact hexact
    · exact hexact.of_same sizes ⟨rfl, rfl, rfl, rfl⟩
  | close => exact hexact.of_same sizes ⟨rfl, rfl, rfl, rfl⟩

/-- What calls lead to whose writes fit, `fail_all` among them. -/
inductive Reachable : History → Prop
  | start : Reachable {}
  | call {h : History} (before : Reachable h) (call : Call) (fits : call.Fits sizes h.state) :
      Reachable (step sizes h call)
  | failAll {h : History} (before : Reachable h) : Reachable { h with state := failAll h.state }

/-- **The scheduler's accounting is exact in every reachable state**, and no subtraction of the
batch it would hand out next goes below zero. -/
theorem counters_exact {h : History} (hreach : Reachable sizes h) :
    Exact sizes h.state ∧ NoUnderflow sizes h.state := by
  have hexact : Exact sizes h.state := by
    induction hreach with
    | start => exact exact_init sizes
    | call _ call fits ih => exact exact_step sizes ih fits
    | failAll _ _ => exact exact_failAll sizes _
  exact ⟨hexact, hexact.noUnderflow⟩

namespace Example

def noSizes : JsonSizes := ⟨fun _ => 0, fun _ => 0, fun _ => 0, fun _ => 0⟩

def text : TaskWrite := .streamAppendTextWithTaskUpdate "t" "m" "hi" "1" "1"

end Example

open Example

/-- A text and the barrier after it: both are queued and counted. -/
theorem counters_exact_text_and_barrier :
    let h := step noSizes (step noSizes {} (.admitWrite text))
      (.tryAdmit (.barrierStreamedText "t"))
    (h.state.globalStreamBytes = 98 ∧ h.state.globalControlWrites = 1) ∧
      Exact noSizes h.state ∧ NoUnderflow noSizes h.state := by
  have hreach : Reachable noSizes (step noSizes
      (step noSizes {} (.admitWrite text)) (.tryAdmit (.barrierStreamedText "t"))) := by
    refine .call (.call .start _ ?_) _ ?_
    · exact ⟨by decide +kernel, by decide +kernel⟩
    · exact ⟨by decide +kernel, by decide +kernel⟩
  exact ⟨⟨by decide +kernel, by decide +kernel⟩, counters_exact noSizes hreach⟩

end OpenAide.Scheduler

import OpenAide.Storage.Scheduler

/-!
# Barrier sealing and order in the write scheduler

What every run of the scheduler keeps.  One batch is described by `Split`: how a Task's queue falls
into the batch and the rest.  `take_batch` cuts a prefix off; `take_text_barrier_batch` pulls text
past retained Tool output.  Both keep the order inside each kind of write, and both take with a
barrier whatever that barrier seals (`splitQueue_split`).

`Ordered` is the invariant of whole runs, kept by every call (`ordered_step`, `ordered_run`).  From
it: every admitted write is handed out exactly once, barriers seal what was admitted before them,
each kind of write keeps its admission order, and no batch is empty or mixed
(`dispatch_seals_and_orders`).
-/

namespace OpenAide.Scheduler

open Library
open SchedulerState (discharge queue)

/-! ## One batch -/

/-- Writes of one boundary. -/
def ofBoundary (b : CommitBoundary) (w : QueuedWrite) : Bool := w.write.boundary = b

/-- A write `x` that must not be handed out before an earlier `y`: a barrier seals everything, a
text barrier the text. -/
def Seals (x y : QueuedWrite) : Prop :=
  x.write.boundary = .barrier ∨
    (x.write.boundary = .textBarrier ∧ y.write.boundary = .textStream)

/-- Only Task writes or only Subagent writes. -/
def Uniform (batch : List QueuedWrite) : Prop :=
  ∀ x ∈ batch, ∀ y ∈ batch, x.write.isSubagent = y.write.isSubagent

/-- How a queue `q` falls into a batch and the rest. -/
structure Split (q batch rest : List QueuedWrite) : Prop where
  /-- Each kind of write keeps its order, nothing is lost and nothing is new. -/
  classes : ∀ b, (batch ++ rest).filter (ofBoundary b) = q.filter (ofBoundary b)
  /-- What stays keeps its order. -/
  rest_sublist : rest.Sublist q
  /-- Nothing that stays behind was ahead of a write in the batch that seals it. -/
  sealed : ∀ x ∈ batch, ∀ y ∈ rest, Seals x y → [x, y].Sublist q
  nonempty : q ≠ [] → batch ≠ []
  uniform : Uniform batch

variable {batch : List QueuedWrite}

theorem Split.perm {q rest : List QueuedWrite} (h : Split q batch rest) :
    (batch ++ rest).Perm q := by
  rw [List.perm_iff_count]
  intro w
  have hw : ∀ l : List QueuedWrite,
      (l.filter (ofBoundary w.write.boundary)).count w = l.count w := fun l =>
    List.count_filter (by simp [ofBoundary])
  rw [← hw (batch ++ rest), h.classes, hw]

variable (sizes : JsonSizes)

theorem uniform_concat {front : QueuedWrite} (h : Uniform batch)
    (hfront : ∀ first, batch.head? = some first →
      first.write.isSubagent = front.write.isSubagent) : Uniform (batch ++ [front]) := by
  have hall : ∀ x ∈ batch ++ [front], x.write.isSubagent = front.write.isSubagent := by
    intro x hx
    rcases List.mem_append.mp hx with hx | hx
    · cases batch with
      | nil => simp at hx
      | cons first tail => rw [h x hx first (by simp), hfront first rfl]
    · rw [List.mem_singleton.mp hx]
  intro x hx y hy
  rw [hall x hx, hall y hy]

theorem takeFront_spec (batch : List QueuedWrite) (bytes operations : Nat) (q : List QueuedWrite)
    (huniform : Uniform batch) : let r := takeFront sizes batch bytes operations q
    r.1 ++ r.2 = batch ++ q ∧ (batch ≠ [] ∨ q ≠ [] → r.1 ≠ []) ∧ Uniform r.1 := by
  induction q generalizing batch bytes operations with
  | nil => simpa [takeFront] using huniform
  | cons front q ih =>
    simp only [takeFront]
    by_cases hkind : batch.head?.any
        fun first => first.write.isSubagent != front.write.isSubagent
    · rw [if_pos hkind]
      refine ⟨rfl, fun _ (hbatch : batch = []) => ?_, huniform⟩
      simp [hbatch] at hkind
    rw [if_neg hkind]
    by_cases hlimit : !batch.isEmpty && exceedsBatch
        (bytes + front.write.estimatedBytes sizes) (operations + front.write.operationCount)
    · rw [if_pos hlimit]
      refine ⟨rfl, fun _ (hbatch : batch = []) => ?_, huniform⟩
      simp [hbatch] at hlimit
    rw [if_neg hlimit]
    have huniform' : Uniform (batch ++ [front]) := by
      refine uniform_concat huniform fun first hfirst => ?_
      simpa [hfirst] using hkind
    split_ifs with hcontrol
    · exact ⟨by simp, by simp, huniform'⟩
    · simpa using ih (batch ++ [front]) (bytes + front.write.estimatedBytes sizes)
        (operations + front.write.operationCount) huniform'

theorem selectText_text (started : Bool) (bytes operations : Nat) (q : List QueuedWrite) :
    ∀ x ∈ (selectText sizes started bytes operations q).1,
      x.write.boundary = .textStream ∨ x.write.boundary = .textBarrier := by
  induction q generalizing started bytes operations with
  | nil => simp [selectText]
  | cons w q ih =>
    intro x hx
    simp only [selectText] at hx
    split at hx
    · rename_i hb
      split_ifs at hx
      · simp at hx
      · rcases List.mem_cons.mp hx with rfl | hx
        · exact .inl hb
        · exact ih _ _ _ x hx
    · rename_i hb
      rw [List.mem_singleton.mp hx]
      exact .inr hb
    · exact ih _ _ _ x hx
    · exact ih _ _ _ x hx

variable {w : QueuedWrite} (b : CommitBoundary)

theorem filter_move {s r : List QueuedWrite} (h : ∀ x ∈ s, x.write.boundary ≠ w.write.boundary) :
    (s ++ w :: r).filter (ofBoundary b) = (w :: (s ++ r)).filter (ofBoundary b) := by
  by_cases hb : w.write.boundary = b
  · have hs : s.filter (ofBoundary b) = [] :=
      List.filter_eq_nil_iff.mpr fun x hx => by simpa [ofBoundary, ← hb] using h x hx
    simp [List.filter_cons, List.filter_append, hs]
  · simp [List.filter_append, ofBoundary, hb]

theorem selectText_split (started : Bool) (bytes operations : Nat) (q : List QueuedWrite) :
    let r := selectText sizes started bytes operations q
    (∀ b, (r.1 ++ r.2).filter (ofBoundary b) = q.filter (ofBoundary b)) ∧ r.2.Sublist q ∧
      ∀ x ∈ r.1, ∀ y ∈ r.2, Seals x y → [x, y].Sublist q := by
  induction q generalizing started bytes operations with
  | nil => simp [selectText]
  | cons w q ih =>
    simp only [selectText]
    split
    · rename_i hb
      split_ifs
      · simp
      · obtain ⟨hclasses, hrest, hsealed⟩ := ih true (bytes + w.write.estimatedBytes sizes)
          (operations + w.write.operationCount)
        refine ⟨fun b => ?_, hrest.cons _, fun x hx y hy hxy => ?_⟩
        · rw [List.cons_append, List.filter_cons, hclasses, List.filter_cons]
        · rcases List.mem_cons.mp hx with rfl | hx
          · rcases hxy with hx | ⟨hx, _⟩ <;> simp [hb] at hx
          · exact (hsealed x hx y hy hxy).cons _
    · refine ⟨fun b => rfl, List.sublist_cons_self _ _, fun x hx y hy _ => ?_⟩
      rw [List.mem_singleton.mp hx]
      exact (List.singleton_sublist.mpr hy).cons_cons _
    all_goals
      rename_i hb
      obtain ⟨hclasses, hrest, hsealed⟩ := ih started bytes operations
      have htext := selectText_text sizes started bytes operations q
      refine ⟨fun b => ?_, hrest.cons_cons _, fun x hx y hy hxy => ?_⟩
      · rw [filter_move b fun x hx => by rcases htext x hx with h | h <;> simp [h, hb],
          List.filter_cons, hclasses, List.filter_cons]
      · rcases List.mem_cons.mp hy with rfl | hy
        · rcases htext x hx with h | h <;> simp [Seals, h, hb] at hxy
        · exact (hsealed x hx y hy hxy).cons _

theorem selectText_ne_nil (started : Bool) (hstarted : started = false) (bytes operations : Nat)
    {q : List QueuedWrite} (h : firstControlBoundary q = some .textBarrier) :
    (selectText sizes started bytes operations q).1 ≠ [] := by
  induction q generalizing bytes operations with
  | nil => simp [firstControlBoundary] at h
  | cons w q ih =>
    simp only [selectText]
    split
    · simp [hstarted]
    · simp
    · rename_i hb
      exact ih _ _ (by simpa [firstControlBoundary, hb, CommitBoundary.isControl] using h)
    · rename_i hb
      simp [firstControlBoundary, hb, CommitBoundary.isControl] at h

/-- **Either way of taking a batch splits the queue properly.** -/
theorem splitQueue_split (q : List QueuedWrite) :
    Split q (splitQueue sizes q).1 (splitQueue sizes q).2 := by
  unfold splitQueue
  split_ifs with htext
  · obtain ⟨hclasses, hrest, hsealed⟩ := selectText_split sizes false 0 0 q
    refine ⟨hclasses, hrest, hsealed, fun _ => selectText_ne_nil sizes false rfl 0 0 htext, ?_⟩
    have hsub := fun x hx =>
      TaskWrite.isSubagent_of_text (selectText_text sizes false 0 0 q x hx)
    intro x hx y hy
    rw [hsub x hx, hsub y hy]
  · obtain ⟨happend, hne, huniform⟩ := takeFront_spec sizes [] 0 0 q (by simp [Uniform])
    rw [List.nil_append] at happend
    refine ⟨fun b => by rw [happend], ?_, fun x hx y hy _ => ?_, fun hq => hne (.inr hq), huniform⟩
    · conv_rhs => rw [← happend]
      exact List.sublist_append_right _ _
    · rw [← happend]
      exact (List.singleton_sublist.mpr hx).append (List.singleton_sublist.mpr hy)

/-! ## What the calls do to the queues -/

theorem enqueue_queue (s : SchedulerState) (write : TaskWrite) (reply : Nat) (id : String) :
    (enqueue sizes s write reply).queue id =
      if id = write.taskId then s.queue id ++ [⟨write, reply⟩] else s.queue id := by
  by_cases hid : id = write.taskId
  · subst hid
    cases hp : s.pending write.taskId <;> simp [queue, enqueue, hp]
  · simp [queue, enqueue, hid]

theorem enqueue_pending_isSome (s : SchedulerState) (write : TaskWrite) (reply : Nat)
    (id : String) : ((enqueue sizes s write reply).pending id).isSome =
      (decide (id = write.taskId) || (s.pending id).isSome) := by
  by_cases hid : id = write.taskId
  · subst hid; simp [enqueue]
  · simp [enqueue, hid]

@[simp] theorem foldl_discharge_pending (batch : List QueuedWrite) (s : SchedulerState) :
    (batch.foldl (discharge sizes) s).pending = s.pending := by
  induction batch generalizing s with
  | nil => rfl
  | cons w batch ih => rw [List.foldl_cons, ih]; rfl

@[simp] theorem foldl_discharge_ready (batch : List QueuedWrite) (s : SchedulerState) :
    (batch.foldl (discharge sizes) s).ready = s.ready := by
  induction batch generalizing s with
  | nil => rfl
  | cons w batch ih => rw [List.foldl_cons, ih]; rfl

variable {id : String} {s : SchedulerState}

theorem takeBatch_spec (h : (s.pending id).isSome) : let r := takeBatch sizes s id
    r.1 = (splitQueue sizes (s.queue id)).1 ∧
      (∀ id', r.2.queue id' =
        if id' = id then (splitQueue sizes (s.queue id)).2 else s.queue id') ∧
      (∀ id', (r.2.pending id').isSome =
        if id' = id then !(splitQueue sizes (s.queue id)).2.isEmpty else (s.pending id').isSome) ∧
      r.2.ready = s.ready ++
        if (splitQueue sizes (s.queue id)).2.isEmpty then [] else [id] := by
  obtain ⟨task, htask⟩ := Option.isSome_iff_exists.mp h
  have hq : s.queue id = task.writes := by simp [queue, htask]
  simp only [takeBatch, htask, hq]
  by_cases hempty : (splitQueue sizes task.writes).2.isEmpty
  · rw [if_pos hempty]
    refine ⟨rfl, fun id' => ?_, fun id' => ?_, by simp [hempty]⟩
    · by_cases hid : id' = id
      · subst hid; simpa [queue] using (List.isEmpty_iff.mp hempty).symm
      · simp [queue, hid]
    · by_cases hid : id' = id
      · subst hid; simp [hempty]
      · simp [hid]
  · rw [if_neg hempty]
    refine ⟨rfl, fun id' => ?_, fun id' => ?_, by simp [hempty]⟩
    · by_cases hid : id' = id
      · subst hid; simp [queue]
      · simp [queue, hid]
    · by_cases hid : id' = id
      · subst hid; simp [hempty]
      · simp [hid]

/-! ## The invariant of whole runs -/

/-- Writes of one boundary and one Task. -/
def ofTask (id : String) (b : CommitBoundary) (w : QueuedWrite) : Bool :=
  w.write.taskId = id ∧ w.write.boundary = b

/-- What holds of every batch handed out: the `i`-th one is not empty, belongs to one Task, is of
one kind, and everything its barriers seal was handed out by then. -/
structure GoodBatch (h : History) (i : Nat) (batch : String × List QueuedWrite) : Prop where
  nonempty : batch.2 ≠ []
  uniform : Uniform batch.2
  own : ∀ w ∈ batch.2, w.write.taskId = batch.1
  sealed : ∀ x ∈ batch.2, ∀ y ∈ h.admitted, y.write.taskId = x.write.taskId →
    y.reply < x.reply → Seals x y → ∃ j ≤ i, ∃ b, h.batches[j]? = some b ∧ y ∈ b.2

/-- The invariant: queues, ready list, admitted writes and batches fit together. -/
structure Ordered (h : History) : Prop where
  ready_nodup : h.state.ready.Nodup
  ready_iff : ∀ id, id ∈ h.state.ready ↔ (h.state.pending id).isSome
  waiting : ∀ id, (h.state.pending id).isSome → h.state.queue id ≠ []
  own : ∀ id, ∀ w ∈ h.state.queue id, w.write.taskId = id
  numbered : h.admitted.map QueuedWrite.reply = List.range h.admitted.length
  inOrder : ∀ id, (h.state.queue id).Pairwise fun x y => x.reply < y.reply
  classes : ∀ id b, (h.dispatched ++ h.state.queue id).filter (ofTask id b) =
    h.admitted.filter (ofTask id b)
  batches : ∀ i batch, h.batches[i]? = some batch → GoodBatch h i batch

theorem ordered_init : Ordered {} where
  ready_nodup := List.nodup_nil
  ready_iff := by simp
  waiting := by simp
  own := by simp [queue]
  numbered := rfl
  inOrder := by simp [queue]
  classes := by simp [queue, History.dispatched]
  batches := by simp

variable {h : History}

theorem Ordered.of_same (ho : Ordered h) (hpending : s.pending = h.state.pending)
    (hready : s.ready = h.state.ready) : Ordered { h with state := s } := by
  have hqueue : ∀ id, s.queue id = h.state.queue id := by
    simp [queue, hpending]
  constructor
  · simpa [hready] using ho.ready_nodup
  · simpa [hready, hpending] using ho.ready_iff
  · simpa [hqueue, hpending] using ho.waiting
  · simpa [hqueue] using ho.own
  · exact ho.numbered
  · simpa [hqueue] using ho.inOrder
  · simpa [hqueue, History.dispatched] using ho.classes
  · exact fun i batch hi => ⟨(ho.batches i batch hi).nonempty, (ho.batches i batch hi).uniform,
      (ho.batches i batch hi).own, (ho.batches i batch hi).sealed⟩

theorem Ordered.count_eq (ho : Ordered h) (w : QueuedWrite) :
    h.dispatched.count w + (h.state.queue w.write.taskId).count w = h.admitted.count w := by
  have hw : ∀ l : List QueuedWrite,
      (l.filter (ofTask w.write.taskId w.write.boundary)).count w = l.count w := fun l =>
    List.count_filter (by simp [ofTask])
  rw [← List.count_append, ← hw, ho.classes, hw]

theorem Ordered.mem_admitted (ho : Ordered h)
    (hw : w ∈ h.dispatched ∨ w ∈ h.state.queue w.write.taskId) : w ∈ h.admitted := by
  rw [← List.count_pos_iff, ← ho.count_eq]
  rcases hw with hw | hw
  · exact Nat.add_pos_left (List.count_pos_iff.mpr hw) _
  · exact Nat.add_pos_right _ (List.count_pos_iff.mpr hw)

theorem Ordered.mem_of_admitted (ho : Ordered h) (hw : w ∈ h.admitted) :
    w ∈ h.dispatched ∨ w ∈ h.state.queue w.write.taskId := by
  rw [← List.count_pos_iff, ← ho.count_eq] at hw
  rw [← List.count_pos_iff, ← List.count_pos_iff]
  omega

theorem Ordered.reply_lt (ho : Ordered h) (hw : w ∈ h.admitted) : w.reply < h.admitted.length := by
  have : w.reply ∈ h.admitted.map QueuedWrite.reply := List.mem_map_of_mem hw
  rwa [ho.numbered, List.mem_range] at this

theorem Ordered.admitted_nodup (ho : Ordered h) : h.admitted.Nodup := by
  refine List.Nodup.of_map QueuedWrite.reply ?_
  rw [ho.numbered]
  exact List.nodup_range

theorem filter_ofTask {l : List QueuedWrite} (h : ∀ w ∈ l, w.write.taskId = id) :
    l.filter (ofTask id b) = l.filter (ofBoundary b) :=
  List.filter_congr fun w hw => by simp [ofTask, ofBoundary, h w hw]

theorem filter_ofTask_of_ne {l : List QueuedWrite} {id' : String} (h : ∀ w ∈ l, w.write.taskId = id)
    (hne : id' ≠ id) : l.filter (ofTask id' b) = [] :=
  List.filter_eq_nil_iff.mpr fun w hw => by simp [ofTask, h w hw, Ne.symm hne]

theorem mem_dispatched {i : Nat} {batch : String × List QueuedWrite}
    (hi : h.batches[i]? = some batch) (hw : w ∈ batch.2) : w ∈ h.dispatched :=
  List.mem_flatMap.mpr ⟨batch, List.mem_of_getElem? hi, hw⟩

variable {s' : SchedulerState}

theorem admitWrite_admitted {s : SchedulerState} {write : TaskWrite} {reply : Nat}
    (h : admitWrite sizes s write reply = .admitted s') :
    hasCapacity sizes s write = true ∧ s' = enqueue sizes s write reply := by
  unfold admitWrite at h
  split at h
  · cases h
  · split_ifs at h with hclosed hfull
    cases h
    exact ⟨by simp_all, rfl⟩

theorem tryAdmit_cases {s : SchedulerState} {write : TaskWrite} {reply : Nat}
    {answer : Except RuntimeError (Option TaskWrite)}
    (h : tryAdmit sizes s write reply = (answer, s')) :
    (answer = .ok none ∧ hasCapacity sizes s write = true ∧ s' = enqueue sizes s write reply) ∨
      (answer ≠ .ok none ∧ s' = s) := by
  unfold tryAdmit at h
  split at h
  · cases h
    exact .inr ⟨nofun, rfl⟩
  · split_ifs at h with hclosed hfull
    · cases h
      exact .inr ⟨nofun, rfl⟩
    · cases h
      exact .inr ⟨by simp, rfl⟩
    · cases h
      exact .inl ⟨rfl, by simp_all, rfl⟩

/-- **Admission keeps the invariant.** -/
theorem ordered_enter (ho : Ordered h) (write : TaskWrite) :
    Ordered (h.enter (enqueue sizes h.state write h.admitted.length) write) := by
  set h' := h.enter (enqueue sizes h.state write h.admitted.length) write with hh'
  have hmem : ∀ id, ∀ w ∈ h.state.queue id, w ∈ h.admitted := fun id w hw =>
    ho.mem_admitted (.inr (by rwa [ho.own id w hw]))
  have hqueue : ∀ id, h'.state.queue id = if id = write.taskId
      then h.state.queue id ++ [⟨write, h.admitted.length⟩] else h.state.queue id :=
    enqueue_queue sizes h.state write _
  have hsome : ∀ id, (h'.state.pending id).isSome =
      (decide (id = write.taskId) || (h.state.pending id).isSome) :=
    enqueue_pending_isSome sizes h.state write _
  have hready : h'.state.ready =
      if (h.state.pending write.taskId).isNone then h.state.ready ++ [write.taskId]
      else h.state.ready := rfl
  constructor
  · rw [hready]
    split_ifs with hnew
    · refine List.nodup_append.mpr ⟨ho.ready_nodup, List.nodup_singleton _, fun a ha b hb => ?_⟩
      rintro rfl
      rw [List.mem_singleton.mp hb, ho.ready_iff] at ha
      simp [Option.isNone_iff_eq_none.mp hnew] at ha
    · exact ho.ready_nodup
  · intro id
    rw [hsome, hready]
    by_cases hnew : (h.state.pending write.taskId).isNone
    · simp only [hnew, if_true, List.mem_append, List.mem_singleton, ho.ready_iff, Bool.or_eq_true,
        decide_eq_true_eq]
      exact or_comm
    · have hold : (h.state.pending write.taskId).isSome :=
        Option.isSome_iff_ne_none.mpr (by simpa using hnew)
      rw [if_neg hnew, ho.ready_iff]
      simp only [Bool.or_eq_true, decide_eq_true_eq]
      constructor
      · exact .inr
      · rintro (rfl | hid)
        · exact hold
        · exact hid
  · intro id hid
    rw [hqueue]
    split_ifs with heq
    · simp
    · rw [hsome] at hid
      exact ho.waiting id (by simpa [heq] using hid)
  · intro id w hw
    rw [hqueue] at hw
    split_ifs at hw with heq
    · rcases List.mem_append.mp hw with hw | hw
      · exact ho.own id w hw
      · rw [List.mem_singleton.mp hw, heq]
    · exact ho.own id w hw
  · simp [hh', History.enter, ho.numbered, List.range_succ]
  · intro id
    rw [hqueue]
    split_ifs
    · refine List.pairwise_append.mpr ⟨ho.inOrder id, List.pairwise_singleton _ _, ?_⟩
      intro w hw w' hw'
      rw [List.mem_singleton.mp hw']
      exact ho.reply_lt (hmem id w hw)
    · exact ho.inOrder id
  · intro id b
    have hadm : h'.admitted = h.admitted ++ [⟨write, h.admitted.length⟩] := rfl
    have hdis : h'.dispatched = h.dispatched := rfl
    rw [hqueue, hadm, hdis, List.filter_append, List.filter_append, ← ho.classes,
      List.filter_append]
    split_ifs with heq
    · rw [List.filter_append, List.append_assoc]
    · have : ofTask id b ⟨write, h.admitted.length⟩ = false := by
        simp [ofTask, Ne.symm heq]
      simp [this]
  · intro i batch hi
    obtain ⟨hne, huniform, hown, hsealed⟩ := ho.batches i batch hi
    refine ⟨hne, huniform, hown, fun x hx y hy htask hlt hseal => ?_⟩
    rcases List.mem_append.mp hy with hy | hy
    · exact hsealed x hx y hy htask hlt hseal
    · -- the write just admitted comes after everything handed out
      have hx' := ho.reply_lt (ho.mem_admitted (.inl (mem_dispatched hi hx)))
      rw [List.mem_singleton.mp hy] at hlt
      exact absurd hlt (not_lt.mpr hx'.le)

/-- The history after the writer took a batch of the first ready Task. -/
def History.take (h : History) (id : String) (ready : List String) : History :=
  let r := takeBatch sizes { h.state with ready := ready } id
  { h with state := r.2, batches := h.batches ++ [(id, r.1)] }

variable {h : History} {ready : List String}

theorem step_next_batch (hready : h.state.ready = id :: ready) :
    step sizes h .next = h.take sizes id ready := by
  simp [step, next, hready, History.take]

theorem take_spec (h : History) (ready : List String) (hsome : (h.state.pending id).isSome) :
    ∃ batch rest, Split (h.state.queue id) batch rest ∧
      (h.take sizes id ready).batches = h.batches ++ [(id, batch)] ∧
      (h.take sizes id ready).admitted = h.admitted ∧
      (∀ id', (h.take sizes id ready).state.queue id' =
        if id' = id then rest else h.state.queue id') ∧
      (∀ id', ((h.take sizes id ready).state.pending id').isSome =
        if id' = id then !rest.isEmpty else (h.state.pending id').isSome) ∧
      (h.take sizes id ready).state.ready = ready ++ if rest.isEmpty then [] else [id] := by
  obtain ⟨hbatch, hqueue, hpending, hready⟩ :=
    takeBatch_spec sizes (s := { h.state with ready := ready }) hsome
  exact ⟨_, _, splitQueue_split sizes (h.state.queue id), by rw [History.take, hbatch]; rfl, rfl,
    hqueue, hpending, hready⟩

theorem sealed_of_split (ho : Ordered h) {rest : List QueuedWrite}
    (hsplit : Split (h.state.queue id) batch rest) {x y : QueuedWrite} (hx : x ∈ batch)
    (hy : y ∈ h.admitted) (htask : y.write.taskId = x.write.taskId) (hlt : y.reply < x.reply)
    (hseal : Seals x y) : y ∈ h.dispatched ∨ y ∈ batch := by
  have hxid : x.write.taskId = id :=
    ho.own id x (hsplit.perm.mem_iff.mp (List.mem_append_left _ hx))
  rcases ho.mem_of_admitted hy with hy | hy
  · exact .inl hy
  · rw [htask, hxid] at hy
    rcases List.mem_append.mp (hsplit.perm.mem_iff.mpr hy) with hy | hy
    · exact .inr hy
    · -- a later receipt would be ahead in the queue
      have hxy := (ho.inOrder id).sublist (hsplit.sealed x hx y hy hseal)
      have : x.reply < y.reply := by simpa using hxy
      omega

/-- **Handing out a batch keeps the invariant.** -/
theorem ordered_take (ho : Ordered h) (hready : h.state.ready = id :: ready) :
    Ordered (h.take sizes id ready) := by
  have hsome : (h.state.pending id).isSome := (ho.ready_iff id).mp (by simp [hready])
  obtain ⟨hnotin, hnodup⟩ := List.nodup_cons.mp (hready ▸ ho.ready_nodup)
  obtain ⟨batch, rest, hsplit, hbatches, hadmitted, hqueue, hpending, hready'⟩ :=
    take_spec sizes h ready hsome
  generalize h.take sizes id ready = h' at *
  have hown : ∀ w ∈ batch ++ rest, w.write.taskId = id := fun w hw =>
    ho.own id w (hsplit.perm.mem_iff.mp hw)
  have hdis : h'.dispatched = h.dispatched ++ batch := by
    simp [History.dispatched, hbatches]
  have hin : ∀ id', id' ∈ ready ↔ id' ≠ id ∧ (h.state.pending id').isSome := by
    intro id'
    rw [← ho.ready_iff, hready, List.mem_cons]
    constructor
    · intro hmem
      exact ⟨fun heq => hnotin (heq ▸ hmem), .inr hmem⟩
    · rintro ⟨hne, rfl | hmem⟩
      · exact absurd rfl hne
      · exact hmem
  constructor
  · rw [hready']
    split_ifs
    · simpa using hnodup
    · refine List.nodup_append.mpr ⟨hnodup, List.nodup_singleton _, fun a ha b hb => ?_⟩
      rintro rfl
      exact hnotin (List.mem_singleton.mp hb ▸ ha)
  · intro id'
    rw [hpending, hready', List.mem_append, hin]
    by_cases hid : id' = id
    · cases rest <;> simp [hid]
    · cases rest <;> simp [hid]
  · intro id' hid'
    rw [hpending] at hid'
    rw [hqueue]
    split_ifs at hid' ⊢ with heq
    · simpa using hid'
    · exact ho.waiting id' hid'
  · intro id' w hw
    rw [hqueue] at hw
    split_ifs at hw with heq
    · rw [heq]
      exact hown w (List.mem_append_right _ hw)
    · exact ho.own id' w hw
  · rw [hadmitted, ho.numbered]
  · intro id'
    rw [hqueue]
    split_ifs
    · exact (ho.inOrder id).sublist hsplit.rest_sublist
    · exact ho.inOrder id'
  · intro id' b
    rw [hdis, hqueue, hadmitted, ← ho.classes, List.append_assoc,
      List.filter_append h.dispatched, List.filter_append h.dispatched (h.state.queue id')]
    refine congrArg _ ?_
    split_ifs with heq
    · rw [heq, filter_ofTask b hown, hsplit.classes, filter_ofTask b (ho.own id)]
    · rw [List.filter_append,
        filter_ofTask_of_ne b (fun w hw => hown w (List.mem_append_left _ hw)) heq, List.nil_append]
  · intro i b hi
    have hold : ∀ {j : Nat} {c}, h.batches[j]? = some c → h'.batches[j]? = some c := by
      intro j c hj
      rw [hbatches, List.getElem?_append_left (List.getElem?_eq_some_iff.mp hj).1, hj]
    rw [hbatches] at hi
    rcases lt_or_ge i h.batches.length with hlt | hge
    · rw [List.getElem?_append_left hlt] at hi
      obtain ⟨hne, huniform, howner, hsealed⟩ := ho.batches i b hi
      refine ⟨hne, huniform, howner, fun x hx y hy htask hless hseal => ?_⟩
      obtain ⟨j, hj, c, hc, hyc⟩ := hsealed x hx y (hadmitted ▸ hy) htask hless hseal
      exact ⟨j, hj, c, hold hc, hyc⟩
    · -- the new batch
      obtain ⟨rfl, rfl⟩ : i = h.batches.length ∧ b = (id, batch) := by
        rw [List.getElem?_append_right hge] at hi
        cases hd : i - h.batches.length with
        | zero => exact ⟨by omega, by simpa [hd] using hi.symm⟩
        | succ m => simp [hd] at hi
      refine ⟨hsplit.nonempty (ho.waiting id hsome), hsplit.uniform,
        fun w hw => hown w (List.mem_append_left _ hw), fun x hx y hy htask hless hseal => ?_⟩
      rcases sealed_of_split ho hsplit hx (hadmitted ▸ hy) htask hless hseal with hy | hy
      · obtain ⟨c, hc, hyc⟩ := List.mem_flatMap.mp hy
        obtain ⟨j, hj, rfl⟩ := List.mem_iff_getElem.mp hc
        exact ⟨j, hj.le, _, hold (List.getElem?_eq_getElem hj), hyc⟩
      · exact ⟨_, le_rfl, (id, batch), by simp [hbatches], hy⟩

theorem next_idle {work : NextWork} (hready : s.ready = []) (h : next sizes s = some (work, s')) :
    (∀ id writes, work ≠ .batch id writes) ∧ s'.pending = s.pending ∧ s'.ready = s.ready := by
  simp only [next, hready] at h
  split at h
  · obtain ⟨rfl, rfl⟩ : _ ∧ _ := by simpa using h
    exact ⟨by simp, rfl, hready.symm⟩
  · obtain ⟨rfl, rfl⟩ : _ ∧ _ := by simpa using h
    exact ⟨by simp, rfl, hready.symm⟩
  · split at h
    · split_ifs at h
      · obtain ⟨rfl, rfl⟩ : _ ∧ _ := by simpa using h
        exact ⟨by simp, rfl, hready.symm⟩
      · obtain ⟨rfl, rfl⟩ : _ ∧ _ := by simpa using h
        exact ⟨by simp, rfl, rfl⟩
    · split_ifs at h
      obtain ⟨rfl, rfl⟩ : _ ∧ _ := by simpa using h
      exact ⟨by simp, rfl, rfl⟩

theorem step_next_idle (hready : h.state.ready = []) :
    ∃ s, step sizes h .next = { h with state := s } ∧ s.pending = h.state.pending ∧
      s.ready = h.state.ready := by
  cases hnext : next sizes h.state with
  | none => exact ⟨h.state, by simp [step, hnext], rfl, rfl⟩
  | some r =>
    obtain ⟨work, s⟩ := r
    obtain ⟨hwork, hpending, hready'⟩ := next_idle sizes hready hnext
    refine ⟨s, ?_, hpending, hready'⟩
    cases work with
    | batch id writes => exact absurd rfl (hwork id writes)
    | reset | purge | shutdown | closed => simp [step, hnext]

/-- **Every call keeps the invariant.** -/
theorem ordered_step (ho : Ordered h) (call : Call) : Ordered (step sizes h call) := by
  cases call with
  | admitWrite write =>
    simp only [step]
    split
    · rename_i hanswer
      rw [(admitWrite_admitted sizes hanswer).2]
      exact ordered_enter sizes ho write
    · exact ho
  | tryAdmit write =>
    rcases hanswer : tryAdmit sizes h.state write h.admitted.length with ⟨answer, s⟩
    obtain ⟨rfl, -, rfl⟩ | ⟨hne, rfl⟩ := tryAdmit_cases sizes hanswer
    · simp only [step, hanswer]
      exact ordered_enter sizes ho write
    · simp only [step, hanswer]
      exact ho
  | next =>
    cases hready : h.state.ready with
    | cons id ready => exact step_next_batch sizes hready ▸ ordered_take sizes ho hready
    | nil =>
      obtain ⟨s, hs, hpending, hready'⟩ := step_next_idle sizes hready
      exact hs ▸ ho.of_same hpending hready'
  | requestReset reply =>
    simp only [step, requestReset]
    split_ifs
    · exact ho
    · exact ho.of_same rfl rfl
  | finishReset => exact ho.of_same rfl rfl
  | requestPurge id reply =>
    simp only [step, requestPurge]
    split_ifs
    · exact ho
    · exact ho.of_same rfl rfl
  | finishPurge => exact ho.of_same rfl rfl
  | requestShutdown reply =>
    simp only [step, requestShutdown]
    split_ifs
    · exact ho
    · exact ho.of_same rfl rfl
  | close => exact ho.of_same rfl rfl

theorem ordered_foldl (ho : Ordered h) (calls : List Call) :
    Ordered (calls.foldl (step sizes) h) := by
  induction calls generalizing h with
  | nil => exact ho
  | cons call calls ih => exact ih (ordered_step sizes ho call)

/-- **The invariant holds after every run.** -/
theorem ordered_run (calls : List Call) : Ordered (run sizes calls) :=
  ordered_foldl sizes ordered_init calls

/-! ## Draining -/

/-- How many writes wait. -/
def History.backlog (h : History) : Nat :=
  (h.state.ready.map fun id => (h.state.queue id).length).sum

theorem backlog_take (ho : Ordered h) (hready : h.state.ready = id :: ready) :
    (h.take sizes id ready).backlog < h.backlog := by
  have hsome : (h.state.pending id).isSome := (ho.ready_iff id).mp (by simp [hready])
  obtain ⟨hnotin, -⟩ := List.nodup_cons.mp (hready ▸ ho.ready_nodup)
  obtain ⟨batch, rest, hsplit, -, -, hqueue, -, hready'⟩ := take_spec sizes h ready hsome
  have hothers : ready.map (fun id' => ((h.take sizes id ready).state.queue id').length) =
      ready.map fun id' => (h.state.queue id').length := by
    refine List.map_congr_left fun id' hid' => ?_
    rw [hqueue, if_neg (ne_of_mem_of_not_mem hid' hnotin)]
  have hlength : batch.length + rest.length = (h.state.queue id).length := by
    rw [← List.length_append, hsplit.perm.length_eq]
  have hbatch := List.length_pos_iff.mpr (hsplit.nonempty (ho.waiting id hsome))
  have hself : ((if rest.isEmpty then [] else [id]).map fun id' =>
      ((h.take sizes id ready).state.queue id').length).sum = rest.length := by
    cases rest <;> simp [hqueue]
  rw [History.backlog, hready', List.map_append, List.sum_append, hothers, hself, History.backlog,
    hready, List.map_cons, List.sum_cons]
  omega

theorem drain (ho : Ordered h) :
    ∃ n, ((List.replicate n Call.next).foldl (step sizes) h).state.ready = [] ∧
      ((List.replicate n Call.next).foldl (step sizes) h).admitted = h.admitted := by
  induction hm : h.backlog using Nat.strong_induction_on generalizing h with
  | _ m ih =>
    cases hready : h.state.ready with
    | nil => exact ⟨0, hready, rfl⟩
    | cons id ready =>
      have hstep := step_next_batch sizes hready
      obtain ⟨n, hn, hadmitted⟩ := ih _ (hm ▸ backlog_take sizes ho hready)
        (ordered_take sizes ho hready) rfl
      refine ⟨n + 1, ?_, ?_⟩
      · rw [List.replicate_succ, List.foldl_cons, hstep, hn]
      · rw [List.replicate_succ, List.foldl_cons, hstep, hadmitted]
        rfl

theorem Ordered.count_dispatched (ho : Ordered h) (hready : h.state.ready = []) (w : QueuedWrite) :
    h.dispatched.count w = h.admitted.count w := by
  have hnone : h.state.pending w.write.taskId = none := by
    have := (ho.ready_iff w.write.taskId).not.mp (by simp [hready])
    simpa using this
  have hqueue : h.state.queue w.write.taskId = [] := by simp [queue, hnone]
  rw [← ho.count_eq, hqueue, List.count_nil, Nat.add_zero]

/-- **Barrier sealing and order.**  In every run of calls: each admitted write is in exactly one
place, handed out or still queued, and calling `next` often enough hands out all of them; every
batch is non-empty, of one Task and of one kind; with a barrier everything of its Task admitted
before it has been handed out in the same or an earlier batch, and with a text barrier all such
text; and the text and the stream writes of a Task are handed out in admission order. -/
theorem dispatch_seals_and_orders (calls : List Call) : let h := run sizes calls
    h.admitted.map QueuedWrite.reply = List.range h.admitted.length ∧
      (∀ w ∈ h.dispatched, w ∈ h.admitted) ∧
      (∀ w ∈ h.admitted,
        h.dispatched.count w + (h.state.queue w.write.taskId).count w = 1) ∧
      (∃ n, (run sizes (calls ++ List.replicate n .next)).dispatched.Perm h.admitted) ∧
      (∀ (i : Nat) id batch, h.batches[i]? = some (id, batch) →
        batch ≠ [] ∧ (∀ w ∈ batch, w.write.taskId = id) ∧
        ((∀ w ∈ batch, w.write.isSubagent = true) ∨ ∀ w ∈ batch, w.write.isSubagent = false) ∧
        ∀ x ∈ batch, ∀ y ∈ h.admitted, y.write.taskId = id → y.reply < x.reply →
          x.write.boundary = .barrier ∨
            (x.write.boundary = .textBarrier ∧ y.write.boundary = .textStream) →
          ∃ j ≤ i, ∃ b, h.batches[j]? = some b ∧ y ∈ b.2) ∧
      ∀ id, ∀ b ∈ [CommitBoundary.textStream, .stream],
        h.dispatched.filter (ofTask id b) <+: h.admitted.filter (ofTask id b) := by
  have ho := ordered_run sizes calls
  refine ⟨ho.numbered, fun w hw => ho.mem_admitted (.inl hw), fun w hw => ?_, ?_,
    fun i id batch hi => ?_, fun id b _ => ?_⟩
  · rw [ho.count_eq, List.count_eq_one_of_mem ho.admitted_nodup hw]
  · obtain ⟨n, hready, hadmitted⟩ := drain sizes ho
    refine ⟨n, List.perm_iff_count.mpr fun w => ?_⟩
    have hn : run sizes (calls ++ List.replicate n .next) =
        (List.replicate n Call.next).foldl (step sizes) (run sizes calls) := by
      simp [run]
    rw [hn, (ordered_foldl sizes ho _).count_dispatched hready, hadmitted]
  · obtain ⟨hne, huniform, hown, hsealed⟩ := ho.batches i (id, batch) hi
    refine ⟨hne, hown, ?_, fun x hx y hy htask hlt hseal => ?_⟩
    · obtain ⟨first, tail, rfl⟩ := List.exists_cons_of_ne_nil hne
      cases hfirst : first.write.isSubagent with
      | true => exact .inl fun w hw => by rw [huniform w hw first (by simp), hfirst]
      | false => exact .inr fun w hw => by rw [huniform w hw first (by simp), hfirst]
    · exact hsealed x hx y hy (by rw [htask, hown x hx]) hlt hseal
  · rw [← ho.classes id b, List.filter_append]
    exact List.prefix_append _ _

end OpenAide.Scheduler

import OpenAide.Library.Maps
import OpenAide.Library.Numbered
import OpenAide.Snapshots.TaskChanges

/-!
# The log of published Task changes

`state_sync/task_change_log.rs`: what the App Server keeps of the published changes of each Task so
that a client that returns to a Task is sent only what it missed.  The log may drop the oldest
changes of a Task at any time, to stay within a number of bytes for each Task and for all of them.

- `Accounted`: the counted bytes are those of the entries, so that no subtraction underflows and
  both eviction loops end (`popToBound_bytes`, `totalBytes_record`);
- `Holds`: **what is kept of a Task is an end of what was published of it**, up to the last change;
- `holds_record`: recording the next change keeps that, whatever is dropped;
- `changesSince_eq`: what a client is sent is what was published after its revision.
-/

namespace OpenAide

open Library TaskSnapshots

/-! ## The log -/

namespace TaskChangeLog

structure Entry where
  revision : Nat
  changes : TaskChanges
  bytes : Nat
  deriving DecidableEq

structure TaskEntries where
  lastPublished : Nat := 0
  /-- Oldest first. -/
  entries : List Entry := []
  bytes : Nat := 0
  lastRecorded : Nat := 0
  deriving DecidableEq

end TaskChangeLog

open TaskChangeLog in
/-- `TaskChangeLog` (`task_change_log.rs:20`). -/
structure TaskChangeLog where
  tasks : Assoc String TaskEntries := []
  totalBytes : Nat := 0
  maxTaskBytes : Nat := 2 * 1024 * 1024
  maxTotalBytes : Nat := 16 * 1024 * 1024
  sequence : Nat := 0
  deriving DecidableEq

/-- `ChangesSince` (`task_change_log.rs:46`). -/
inductive ChangesSince where
  | changes (changes : List (Nat × TaskChanges)) (bytes : Nat)
  | unknown
  | evicted
  deriving DecidableEq

namespace TaskChangeLog

namespace TaskEntries

/-- `clear`, with the bytes it releases. -/
def clear (task : TaskEntries) : Nat × TaskEntries :=
  (task.bytes, { task with entries := [], bytes := 0 })

/-- `pop_oldest`, with the bytes it releases. -/
def popOldest (task : TaskEntries) : Nat × TaskEntries :=
  let released := (task.entries.head?.map (·.bytes)).getD 0
  (released, { task with entries := task.entries.tail, bytes := task.bytes - released })

/-- The loop that pops until the Task is within its bound, over the entries that are left. -/
def popToBound (max : Nat) (task : TaskEntries) : List Entry → Nat × TaskEntries
  | [] => (0, task)
  | _ :: rest =>
    if max < task.bytes then
      let (released, popped) := task.popOldest
      let (more, popped) := popToBound max popped rest
      (released + more, popped)
    else (0, task)

/-- A gap breaks the contiguous run a replay depends on. -/
def closeGap (task : TaskEntries) (revision : Nat) : Nat × TaskEntries :=
  if task.entries ≠ [] ∧ revision ≠ task.lastPublished + 1 then task.clear else (0, task)

/-- Mark a change as the last one. -/
def mark (task : TaskEntries) (revision sequence : Nat) : TaskEntries :=
  { task with lastPublished := Nat.max task.lastPublished revision, lastRecorded := sequence }

def pushBack (task : TaskEntries) (entry : Entry) : TaskEntries :=
  { task with entries := task.entries ++ [entry], bytes := task.bytes + entry.bytes }

/-- What `record` does to the entries of a Task, with the bytes it adds and releases. -/
def push (max : Nat) (task : TaskEntries) (sequence : Nat) (entry : Entry) :
    Nat × Nat × TaskEntries :=
  let (released, task) := task.closeGap entry.revision
  let task := task.mark entry.revision sequence
  if max < entry.bytes then
    let (more, task) := task.clear
    (0, released + more, task)
  else
    let task := task.pushBack entry
    let (more, task) := popToBound max task task.entries
    (entry.bytes, released + more, task)

end TaskEntries

/-- The other Task with entries that was recorded least recently. -/
def oldestOther (log : TaskChangeLog) (keep : String) : Option String :=
  ((log.tasks.filter fun entry => entry.1 ≠ keep ∧ entry.2.entries ≠ []).argmin
    fun entry => entry.2.lastRecorded).map (·.1)

/-- Release entries of a Task. -/
def release (log : TaskChangeLog) (taskId : String) (f : TaskEntries → Nat × TaskEntries) :
    TaskChangeLog :=
  let (released, task) := f ((log.tasks.get? taskId).getD {})
  { log with tasks := log.tasks.insert taskId task, totalBytes := log.totalBytes - released }

/-- One round of `evict_to_total_bound`: the mark of an evicted Task stays. -/
def evictOne (log : TaskChangeLog) (keep : String) : TaskChangeLog :=
  match log.oldestOther keep with
  | some taskId => log.release taskId TaskEntries.clear
  | none => log.release keep TaskEntries.popOldest

/-- The number of entries of all Tasks. -/
def count (log : TaskChangeLog) : Nat := log.tasks.total (·.entries.length)

/-- `evict_to_total_bound` (`task_change_log.rs:149`). -/
def evictToTotalBound (keep : String) : (rounds : Nat) → TaskChangeLog → TaskChangeLog
  | 0, log => log
  | rounds + 1, log =>
    if log.maxTotalBytes < log.totalBytes then evictToTotalBound keep rounds (log.evictOne keep)
    else log

/-- `forget` (`task_change_log.rs:139`). -/
def forget (log : TaskChangeLog) (taskId : String) : TaskChangeLog :=
  match log.tasks.get? taskId with
  | none => log
  | some task =>
    { log with tasks := log.tasks.erase taskId, totalBytes := log.totalBytes - task.bytes }

/-- `usize::MAX`: a change that cannot be encoded is never replayed. -/
def usizeMax : Nat := 2 ^ 64 - 1

/-- The first part of `record`: the change is pushed to its Task. -/
def pushed (log : TaskChangeLog) (taskId : String) (entry : Entry) : TaskChangeLog :=
  let (added, released, task) :=
    ((log.tasks.get? taskId).getD {}).push log.maxTaskBytes (log.sequence + 1) entry
  { log with
    tasks := log.tasks.insert taskId task
    totalBytes := log.totalBytes + added - released
    sequence := log.sequence + 1 }

/-- `record` (`task_change_log.rs:76`); `encodedLength` is the length of a change as JSON.  A round
of the eviction drops an entry, so there are at most as many as entries. -/
def record (encodedLength : TaskChanges → Option Nat) (log : TaskChangeLog) (taskId : String)
    (revision : Nat) (changes : TaskChanges) : TaskChangeLog :=
  if changes.removed then log.forget taskId
  else
    let log := log.pushed taskId ⟨revision, changes, (encodedLength changes).getD usizeMax⟩
    evictToTotalBound taskId log.count log

/-- `changes_since` (`task_change_log.rs:110`). -/
def changesSince (log : TaskChangeLog) (taskId : String) (knownRevision : Nat) : ChangesSince :=
  match log.tasks.get? taskId with
  | none => .unknown
  | some task =>
    if task.lastPublished ≤ knownRevision then .changes [] 0
    else
      match task.entries with
      | first :: _ =>
        if first.revision ≤ knownRevision + 1 then
          let missed := task.entries.filter fun entry => knownRevision < entry.revision
          .changes (missed.map fun entry => (entry.revision, entry.changes))
            (missed.map (·.bytes)).sum
        else .evicted
      | [] => .evicted

/-! ## Bytes -/

/-- The bytes of a Task are those of its entries. -/
def TaskEntries.Accounted (task : TaskEntries) : Prop :=
  task.bytes = (task.entries.map (·.bytes)).sum

/-- `task` has dropped its oldest entries and is `task'`; the bytes they had are released. -/
structure Drops (task : TaskEntries) (released : Nat) (task' : TaskEntries) : Prop where
  entries : ∃ dropped, task.entries = dropped ++ task'.entries
  published : task'.lastPublished = task.lastPublished
  bytes : task.bytes = released + task'.bytes
  accounted : task'.Accounted

namespace Drops

variable {task task' task'' : TaskEntries} {released more : Nat}

theorem refl (h : task.Accounted) : Drops task 0 task :=
  ⟨⟨[], rfl⟩, rfl, (Nat.zero_add _).symm, h⟩

theorem trans (h : Drops task released task') (h' : Drops task' more task'') :
    Drops task (released + more) task'' := by
  obtain ⟨dropped, hdropped⟩ := h.entries
  obtain ⟨dropped', hdropped'⟩ := h'.entries
  refine ⟨⟨dropped ++ dropped', ?_⟩, h'.published.trans h.published, ?_, h'.accounted⟩
  · rw [hdropped, hdropped', List.append_assoc]
  · have := h.bytes
    have := h'.bytes
    omega

theorem clear (task : TaskEntries) : Drops task task.clear.1 task.clear.2 :=
  ⟨⟨task.entries, (List.append_nil _).symm⟩, rfl, rfl, rfl⟩

theorem popOldest (h : task.Accounted) : Drops task task.popOldest.1 task.popOldest.2 := by
  obtain ⟨lastPublished, entries, bytes, lastRecorded⟩ := task
  cases entries with
  | nil => exact ⟨⟨[], rfl⟩, rfl, (Nat.zero_add _).symm, h⟩
  | cons oldest rest =>
    simp only [TaskEntries.Accounted, List.map_cons, List.sum_cons] at h
    refine ⟨⟨[oldest], rfl⟩, rfl, ?_, ?_⟩
    · simp only [TaskEntries.popOldest, List.head?_cons, Option.map_some, Option.getD_some]
      omega
    · simp only [TaskEntries.popOldest, TaskEntries.Accounted, List.head?_cons, Option.map_some,
        Option.getD_some, List.tail_cons]
      omega

theorem closeGap (h : task.Accounted) (revision : Nat) :
    Drops task (task.closeGap revision).1 (task.closeGap revision).2 := by
  unfold TaskEntries.closeGap
  split
  · exact .clear task
  · exact .refl h

theorem popToBound (max : Nat) (entries : List Entry) (h : task.Accounted) :
    Drops task (task.popToBound max entries).1 (task.popToBound max entries).2 := by
  induction entries generalizing task with
  | nil => exact .refl h
  | cons entry rest ih =>
    unfold TaskEntries.popToBound
    split
    · exact (Drops.popOldest h).trans (ih (Drops.popOldest h).accounted)
    · exact .refl h

end Drops

/-- **The loop ends within the bound.** -/
theorem popToBound_bytes (max : Nat) {task : TaskEntries} (h : task.Accounted) :
    (task.popToBound max task.entries).2.bytes ≤ max := by
  generalize hentries : task.entries = entries
  induction entries generalizing task with
  | nil =>
    have hbytes : task.bytes = 0 := by rw [h, hentries]; rfl
    show task.bytes ≤ max
    omega
  | cons entry rest ih =>
    unfold TaskEntries.popToBound
    split
    · refine ih (Drops.popOldest h).accounted ?_
      show task.entries.tail = rest
      rw [hentries, List.tail_cons]
    · rename_i hle
      exact Nat.le_of_not_lt hle

theorem accounted_push (max sequence : Nat) (entry : Entry) {task : TaskEntries}
    (h : task.Accounted) :
    (task.push max sequence entry).2.2.Accounted ∧
      task.bytes + (task.push max sequence entry).1 =
        (task.push max sequence entry).2.1 + (task.push max sequence entry).2.2.bytes := by
  have hgap := Drops.closeGap h entry.revision
  have hmark : ((task.closeGap entry.revision).2.mark entry.revision sequence).Accounted :=
    hgap.accounted
  have hbytes := hgap.bytes
  unfold TaskEntries.push
  simp only
  split
  · refine ⟨rfl, ?_⟩
    show task.bytes + 0 = (task.closeGap entry.revision).1 +
      (task.closeGap entry.revision).2.bytes + 0
    omega
  · have hpush : (((task.closeGap entry.revision).2.mark entry.revision sequence).pushBack
        entry).Accounted := by
      simp only [TaskEntries.Accounted, TaskEntries.pushBack, List.map_append, List.map_singleton,
        List.sum_append, List.sum_singleton] at hmark ⊢
      rw [hmark]
    have hpop := Drops.popToBound max (((task.closeGap entry.revision).2.mark entry.revision
      sequence).pushBack entry).entries hpush
    refine ⟨hpop.accounted, ?_⟩
    have hmore := hpop.bytes
    have hback : (((task.closeGap entry.revision).2.mark entry.revision sequence).pushBack
      entry).bytes = (task.closeGap entry.revision).2.bytes + entry.bytes := rfl
    dsimp only
    omega

/-- The bytes that the log counts are those of its entries. -/
structure Accounted (log : TaskChangeLog) : Prop where
  keyed : log.tasks.Keyed
  tasks : ∀ taskId task, log.tasks.get? taskId = some task → task.Accounted
  total : log.totalBytes = log.tasks.total (·.bytes)

namespace Accounted

variable {log : TaskChangeLog}

theorem task (h : log.Accounted) (taskId : String) :
    ((log.tasks.get? taskId).getD {}).Accounted := by
  cases htask : log.tasks.get? taskId with
  | none => rfl
  | some task => exact h.tasks taskId task htask

theorem map_getD (f : TaskEntries → Nat) (hf : f {} = 0) (task : Option TaskEntries) :
    (task.map f).getD 0 = f (task.getD {}) := by
  cases task with
  | none => exact hf.symm
  | some task => rfl

theorem insert (h : log.Accounted) (taskId : String) {task : TaskEntries} (htask : task.Accounted)
    {log' : TaskChangeLog} (htasks : log'.tasks = log.tasks.insert taskId task)
    (hbytes : log'.totalBytes + ((log.tasks.get? taskId).getD {}).bytes =
      log.totalBytes + task.bytes) : log'.Accounted := by
  have hinsert := log.tasks.total_insert (·.bytes) taskId task
  rw [map_getD _ rfl, ← h.total, ← htasks] at hinsert
  refine ⟨htasks ▸ Assoc.keyed_insert h.keyed taskId task, fun id entry hentry => ?_, by omega⟩
  rw [htasks, Assoc.get?_insert] at hentry
  split at hentry
  · cases hentry
    exact htask
  · exact h.tasks id entry hentry

theorem bytes_le (h : log.Accounted) (taskId : String) :
    ((log.tasks.get? taskId).getD {}).bytes ≤ log.totalBytes := by
  rw [h.total]
  cases htask : log.tasks.get? taskId with
  | none => exact Nat.zero_le _
  | some task => exact Assoc.le_total (Assoc.mem_of_get?_eq_some htask)

theorem release (h : log.Accounted) (taskId : String) {f : TaskEntries → Nat × TaskEntries}
    (hf : Drops ((log.tasks.get? taskId).getD {}) (f ((log.tasks.get? taskId).getD {})).1
      (f ((log.tasks.get? taskId).getD {})).2) : (log.release taskId f).Accounted := by
  have hle := h.bytes_le taskId
  have hbytes := hf.bytes
  refine h.insert taskId hf.accounted rfl ?_
  simp only [TaskChangeLog.release]
  omega

theorem evictOne (h : log.Accounted) (keep : String) : (log.evictOne keep).Accounted := by
  unfold TaskChangeLog.evictOne
  split
  · exact h.release _ (.clear _)
  · exact h.release _ (.popOldest (h.task keep))

theorem evictToTotalBound (keep : String) (rounds : Nat) (h : log.Accounted) :
    (log.evictToTotalBound keep rounds).Accounted := by
  induction rounds generalizing log with
  | zero => exact h
  | succ rounds ih =>
    unfold TaskChangeLog.evictToTotalBound
    split
    · exact ih (h.evictOne keep)
    · exact h

theorem pushed (h : log.Accounted) (taskId : String) (entry : Entry) :
    (log.pushed taskId entry).Accounted := by
  obtain ⟨htask, hbytes⟩ := accounted_push log.maxTaskBytes (log.sequence + 1) entry (h.task taskId)
  have hle := h.bytes_le taskId
  unfold TaskChangeLog.pushed
  generalize ((log.tasks.get? taskId).getD {}).push log.maxTaskBytes (log.sequence + 1) entry =
    result at htask hbytes
  obtain ⟨added, released, task⟩ := result
  refine h.insert taskId htask rfl ?_
  dsimp only at hbytes ⊢
  omega

theorem forget (h : log.Accounted) (taskId : String) : (log.forget taskId).Accounted := by
  unfold TaskChangeLog.forget
  split
  · exact h
  · rename_i task htask
    have herase := h.keyed.total_erase (·.bytes) taskId
    rw [htask, Option.map_some, Option.getD_some, ← h.total] at herase
    refine ⟨h.keyed.filter _, fun id entry hentry => ?_, ?_⟩
    · exact h.tasks id entry (Assoc.get?_of_get?_erase hentry)
    · show log.totalBytes - task.bytes = (log.tasks.erase taskId).total (·.bytes)
      omega

theorem record (h : log.Accounted) (encodedLength : TaskChanges → Option Nat) (taskId : String)
    (revision : Nat) (changes : TaskChanges) :
    (log.record encodedLength taskId revision changes).Accounted := by
  unfold TaskChangeLog.record
  split
  · exact h.forget taskId
  · exact (h.pushed taskId _).evictToTotalBound taskId _

end Accounted

/-! ### The total bound -/

theorem count_release (log : TaskChangeLog) (taskId : String)
    (f : TaskEntries → Nat × TaskEntries) :
    (log.release taskId f).count + ((log.tasks.get? taskId).getD {}).entries.length =
      log.count + (f ((log.tasks.get? taskId).getD {})).2.entries.length := by
  have hinsert := log.tasks.total_insert (·.entries.length) taskId
    (f ((log.tasks.get? taskId).getD {})).2
  rwa [Accounted.map_getD _ rfl] at hinsert

theorem evictOne_count {log : TaskChangeLog} (h : log.Accounted) (keep : String)
    (hover : log.maxTotalBytes < log.totalBytes) : (log.evictOne keep).count < log.count := by
  unfold evictOne
  split
  · rename_i taskId holdest
    obtain ⟨⟨id, task⟩, hmin, rfl⟩ := Option.map_eq_some_iff.mp holdest
    obtain ⟨hmem, hothers⟩ := List.mem_filter.mp (List.argmin_mem hmin)
    have htask := h.keyed.get?_eq_some_iff.mpr hmem
    have hentries : task.entries ≠ [] := (of_decide_eq_true hothers).2
    have hlength : 0 < task.entries.length := List.length_pos_iff.mpr hentries
    have hcount := count_release log id TaskEntries.clear
    simp only [htask, Option.getD_some] at hcount
    have hclear : task.clear.2.entries.length = 0 := rfl
    dsimp only
    omega
  · rename_i holdest
    have hcount := count_release log keep TaskEntries.popOldest
    have hpop : (((log.tasks.get? keep).getD {}).popOldest).2.entries.length =
        ((log.tasks.get? keep).getD {}).entries.length - 1 := List.length_tail
    by_cases hempty : ((log.tasks.get? keep).getD {}).entries = []
    · -- then no Task has entries, and there are no bytes
      have hfilter := List.argmin_eq_none.mp (Option.map_eq_none_iff.mp holdest)
      have hzero : ∀ entry ∈ log.tasks, entry.2.bytes = 0 := by
        rintro ⟨id, task⟩ hentry
        have htask := h.keyed.get?_eq_some_iff.mpr hentry
        have hentries : task.entries = [] := by
          by_cases hid : id = keep
          · subst hid
            rwa [htask] at hempty
          · by_contra hne
            exact List.filter_eq_nil_iff.mp hfilter _ hentry (decide_eq_true ⟨hid, hne⟩)
        show task.bytes = 0
        rw [h.tasks id task htask, hentries]
        rfl
      have htotal : log.tasks.total (·.bytes) = 0 := by
        refine List.sum_eq_zero fun bytes hbytes => ?_
        obtain ⟨entry, hentry, rfl⟩ := List.mem_map.mp hbytes
        exact hzero entry hentry
      have := h.total
      omega
    · have hlength : 0 < ((log.tasks.get? keep).getD {}).entries.length :=
        List.length_pos_iff.mpr hempty
      omega

@[simp] theorem maxTotalBytes_evictOne (log : TaskChangeLog) (keep : String) :
    (log.evictOne keep).maxTotalBytes = log.maxTotalBytes := by
  unfold evictOne
  split <;> rfl

/-- **The loop ends within the bound**, if there may be as many rounds as entries. -/
theorem totalBytes_evictToTotalBound {log : TaskChangeLog} (h : log.Accounted) (keep : String)
    {rounds : Nat} (hrounds : log.count ≤ rounds) :
    (log.evictToTotalBound keep rounds).totalBytes ≤ log.maxTotalBytes := by
  induction rounds generalizing log with
  | zero =>
    show log.totalBytes ≤ log.maxTotalBytes
    by_contra hover
    have := evictOne_count h keep (by omega)
    omega
  | succ rounds ih =>
    unfold evictToTotalBound
    split
    · rename_i hover
      have hless := evictOne_count h keep hover
      rw [← maxTotalBytes_evictOne log keep]
      exact ih (h.evictOne keep) (by omega)
    · rename_i hle
      exact Nat.le_of_not_lt hle

/-! ## What is kept -/

/-- A property of what the log has of each Task. -/
def Each (q : String → Option TaskEntries → Prop) (log : TaskChangeLog) : Prop :=
  ∀ taskId, q taskId (log.tasks.get? taskId)

section Each

variable {q : String → Option TaskEntries → Prop} {log : TaskChangeLog}

theorem Each.insert (h : log.Each q) {taskId : String} (task : TaskEntries)
    (htask : q taskId (some task)) {log' : TaskChangeLog}
    (htasks : log'.tasks = log.tasks.insert taskId task) : log'.Each q := by
  intro id
  rw [htasks, Assoc.get?_insert]
  split
  · rename_i hid
    exact hid ▸ htask
  · exact h id

theorem evictOne_cases (h : log.Accounted) (keep : String) (hkeep : (log.tasks.get? keep).isSome) :
    ∃ taskId task f, log.tasks.get? taskId = some task ∧ Drops task (f task).1 (f task).2 ∧
      log.evictOne keep = log.release taskId f := by
  unfold evictOne
  split
  · rename_i taskId holdest
    obtain ⟨⟨id, task⟩, hmin, rfl⟩ := Option.map_eq_some_iff.mp holdest
    obtain ⟨hmem, -⟩ := List.mem_filter.mp (List.argmin_mem hmin)
    exact ⟨id, task, _, h.keyed.get?_eq_some_iff.mpr hmem, .clear task, rfl⟩
  · obtain ⟨task, htask⟩ := Option.isSome_iff_exists.mp hkeep
    exact ⟨keep, task, _, htask, .popOldest (h.tasks keep task htask), rfl⟩

theorem isSome_get?_release {id : String} (h : (log.tasks.get? id).isSome) (taskId : String)
    (f : TaskEntries → Nat × TaskEntries) : ((log.release taskId f).tasks.get? id).isSome := by
  simp only [release, Assoc.get?_insert]
  split
  · rfl
  · exact h

/-- **What drops keep, eviction keeps**, for the sake of a Task that is there. -/
theorem Each.evictToTotalBound
    (hdrops : ∀ {taskId task released task'}, q taskId (some task) → Drops task released task' →
      q taskId (some task'))
    (h : log.Each q) (haccounted : log.Accounted) {keep : String} (rounds : Nat)
    (hkeep : (log.tasks.get? keep).isSome) : (log.evictToTotalBound keep rounds).Each q := by
  induction rounds generalizing log with
  | zero => exact h
  | succ rounds ih =>
    unfold TaskChangeLog.evictToTotalBound
    split
    · obtain ⟨taskId, task, f, htask, hdropped, hround⟩ := evictOne_cases haccounted keep hkeep
      have haccounted' := haccounted.evictOne keep
      rw [hround] at haccounted' ⊢
      refine ih (h.insert (f task).2 (hdrops (htask ▸ h taskId) hdropped) ?_) haccounted'
        (isSome_get?_release hkeep taskId f)
      simp only [release, htask, Option.getD_some]
    · exact h

end Each

/-- The changes of the entries. -/
def TaskEntries.published (task : TaskEntries) : List (Nat × TaskChanges) :=
  task.entries.map fun entry => (entry.revision, entry.changes)

/-- What is kept of a Task is an end of the changes that were published of it since `base`. -/
structure TaskHolds (base : Nat) (history : List (Nat × TaskChanges)) (task : TaskEntries) :
    Prop where
  last : task.lastPublished = base + history.length
  kept : ∃ older, history = older ++ task.published

/-- **What is kept of every Task** is an end of what was published of it. -/
def Holds (base : String → Nat) (history : String → List (Nat × TaskChanges))
    (log : TaskChangeLog) : Prop :=
  ∀ taskId task, log.tasks.get? taskId = some task → TaskHolds (base taskId) (history taskId) task

section Holds

variable {base : String → Nat} {history : String → List (Nat × TaskChanges)} {log : TaskChangeLog}

theorem TaskHolds.drops {n : Nat} {changes : List (Nat × TaskChanges)} {task task' : TaskEntries}
    {released : Nat} (h : TaskHolds n changes task) (hdrops : Drops task released task') :
    TaskHolds n changes task' := by
  obtain ⟨older, holder⟩ := h.kept
  obtain ⟨dropped, hdropped⟩ := hdrops.entries
  refine ⟨hdrops.published.trans h.last, older ++ dropped.map fun entry =>
    (entry.revision, entry.changes), ?_⟩
  rw [holder, TaskEntries.published, hdropped, List.map_append, List.append_assoc]
  rfl

theorem Holds.evictToTotalBound (h : Holds base history log) (haccounted : log.Accounted)
    (keep : String) (rounds : Nat) (hkeep : (log.tasks.get? keep).isSome) :
    Holds base history (log.evictToTotalBound keep rounds) := by
  have hdrops : ∀ {taskId task released task'},
      (∀ entry, some task = some entry → TaskHolds (base taskId) (history taskId) entry) →
        Drops task released task' →
          ∀ entry, some task' = some entry → TaskHolds (base taskId) (history taskId) entry := by
    intro taskId task released task' hholds hdrops entry hentry
    cases hentry
    exact (hholds task rfl).drops hdrops
  exact Each.evictToTotalBound (q := fun taskId entry => ∀ task, entry = some task →
    TaskHolds (base taskId) (history taskId) task) hdrops h haccounted rounds hkeep

theorem TaskHolds.push {n : Nat} {changes : List (Nat × TaskChanges)} {task : TaskEntries}
    (haccounted : task.Accounted) (h : task = {} ∨ TaskHolds n changes task) (max sequence : Nat)
    (entry : Entry) (hnext : entry.revision = n + changes.length + 1) :
    TaskHolds n (changes ++ [(entry.revision, entry.changes)])
      (task.push max sequence entry).2.2 := by
  -- there is no gap: a Task that is not there has no entries
  have hgap : task.closeGap entry.revision = (0, task) := by
    refine if_neg fun hgap => ?_
    rcases h with rfl | h
    · exact hgap.1 rfl
    · exact hgap.2 (h.last ▸ hnext)
  have hlast : Nat.max task.lastPublished entry.revision =
      n + (changes ++ [(entry.revision, entry.changes)]).length := by
    rw [List.length_append, List.length_singleton, ← Nat.add_assoc, ← hnext]
    refine Nat.max_eq_right ?_
    rcases h with rfl | h
    · exact Nat.zero_le _
    · rw [h.last]
      omega
  have hkept : ∃ older, changes = older ++ task.published := by
    rcases h with rfl | h
    · exact ⟨changes, (List.append_nil _).symm⟩
    · exact h.kept
  obtain ⟨older, holder⟩ := hkept
  unfold TaskEntries.push
  simp only [hgap]
  split
  · exact ⟨hlast, _, (List.append_nil _).symm⟩
  · have hpush : TaskHolds n (changes ++ [(entry.revision, entry.changes)])
        ((task.mark entry.revision sequence).pushBack entry) := by
      refine ⟨hlast, older, ?_⟩
      rw [holder, List.append_assoc]
      simp only [TaskEntries.published, TaskEntries.pushBack, TaskEntries.mark, List.map_append,
        List.map_singleton]
    have hback : ((task.mark entry.revision sequence).pushBack entry).Accounted := by
      simp only [TaskEntries.Accounted, TaskEntries.pushBack, TaskEntries.mark, List.map_append,
        List.map_singleton, List.sum_append, List.sum_singleton] at haccounted ⊢
      rw [haccounted]
    exact hpush.drops (Drops.popToBound max _ hback)

/-- **Recording the next change of a Task.** -/
theorem holds_record (h : Holds base history log) (haccounted : log.Accounted)
    (encodedLength : TaskChanges → Option Nat) {taskId : String} {revision : Nat}
    {changes : TaskChanges} (hnext : revision = base taskId + (history taskId).length + 1)
    {history' : String → List (Nat × TaskChanges)}
    (hself : history' taskId = history taskId ++ [(revision, changes)])
    (hothers : ∀ id ≠ taskId, history' id = history id) :
    Holds base history' (log.record encodedLength taskId revision changes) := by
  unfold record
  split
  · -- the Task is forgotten
    intro id entry hentry
    unfold forget at hentry
    split at hentry
    · rename_i hnone
      have hid : id ≠ taskId := by
        rintro rfl
        rw [hnone] at hentry
        cases hentry
      rw [hothers id hid]
      exact h id entry hentry
    · simp only [Assoc.get?_erase] at hentry
      split at hentry
      · cases hentry
      · rename_i hid
        rw [hothers id hid]
        exact h id entry hentry
  · refine Holds.evictToTotalBound ?_ (haccounted.pushed taskId _) taskId _ ?_
    · intro id entry hentry
      simp only [pushed, Assoc.get?_insert] at hentry
      split at hentry
      · rename_i hid
        subst hid
        cases hentry
        rw [hself]
        refine TaskHolds.push (haccounted.task taskId) ?_ _ _ ⟨revision, changes, _⟩ hnext
        cases htask : log.tasks.get? taskId with
        | none => exact .inl rfl
        | some task => exact .inr (h taskId task htask)
      · rename_i hid
        rw [hothers id (Ne.symm hid)]
        exact h id entry hentry
    · simp only [pushed, Assoc.get?_insert_self, Option.isSome_some]

/-- **What a client is sent**: everything that was published after its revision, which is not before
what was published here. -/
theorem changesSince_eq (h : Holds base history log) {taskId : String}
    (hnumbered : Numbered (base taskId) (history taskId)) {knownRevision bytes : Nat}
    {changes : List (Nat × TaskChanges)}
    (hsince : log.changesSince taskId knownRevision = .changes changes bytes) :
    base taskId ≤ knownRevision ∧ changes = after knownRevision (history taskId) := by
  unfold changesSince at hsince
  split at hsince
  · cases hsince
  · rename_i task htask
    obtain ⟨hlast, older, holder⟩ := h taskId task htask
    split at hsince
    · rename_i hcurrent
      cases hsince
      rw [hlast] at hcurrent
      exact ⟨by omega, (hnumbered.after_eq_nil hcurrent).symm⟩
    · split at hsince
      · rename_i first rest hentries
        split at hsince
        · rename_i hfirst
          cases hsince
          rw [holder] at hnumbered ⊢
          -- the entries begin right after what is no longer kept
          have hnumber := hnumbered.split.2
          simp only [Numbered, TaskEntries.published, hentries, List.map_cons, List.length_cons,
            List.range'_succ, List.cons.injEq] at hnumber
          have hle : base taskId + older.length ≤ knownRevision := by omega
          refine ⟨by omega, ?_⟩
          rw [← hnumbered.filter_end hle, after, TaskEntries.published, List.filter_map]
          rfl
        · cases hsince
      · cases hsince

end Holds

end TaskChangeLog

end OpenAide

import OpenAide.StateSync.ChangeLog

/-!
# Runs of the change log

Any changes may be recorded of any Tasks, in the order of each Task's revisions but with gaps
between them (`task_change_log.rs:76-193`).  A gap, a change that is too large, the bound of a Task
and the bound of the log each drop entries, and each adjusts the counted bytes on its own.

Here the subtractions of the source are checked and its loops may run out of rounds, so that a call
returns only if nothing underflows and both loops end:

- `record?_eq`: with accounted bytes a checked call returns, and returns what `record` does;
- `TaskKept`: **what is kept of a Task is an end of what was recorded of it, without gaps**;
- `invariant_perform`, `invariant_run`: one call keeps the invariant, and so does every run;
- `TaskKept.changesSince_eq`: what a client is sent is what was recorded after its revision.
-/

namespace OpenAide

open Library TaskSnapshots

namespace TaskChangeLog

/-! ## Checked calls -/

/-- Subtraction of `usize`; `none` where it underflows. -/
def checkedSub (a b : Nat) : Option Nat := if b ≤ a then some (a - b) else none

theorem checkedSub_of_le {a b : Nat} (h : b ≤ a) : checkedSub a b = some (a - b) := if_pos h

namespace TaskEntries

/-- `pop_oldest` (`task_change_log.rs:188`). -/
def popOldest? (task : TaskEntries) : Option (Nat × TaskEntries) := do
  let released := (task.entries.head?.map (·.bytes)).getD 0
  let bytes ← checkedSub task.bytes released
  return (released, { task with entries := task.entries.tail, bytes })

/-- The loop of `record`; `none` if it has not ended after `rounds`. -/
def popToBound? (max : Nat) : (rounds : Nat) → TaskEntries → Option (Nat × TaskEntries)
  | 0, task => if max < task.bytes then none else some (0, task)
  | rounds + 1, task =>
    if max < task.bytes then do
      let popped ← task.popOldest?
      let more ← popToBound? max rounds popped.2
      return (popped.1 + more.1, more.2)
    else some (0, task)

/-- What `record` does to the entries of a Task, with the bytes it adds and releases. -/
def push? (max : Nat) (task : TaskEntries) (sequence : Nat) (entry : Entry) :
    Option (Nat × Nat × TaskEntries) :=
  let closed := task.closeGap entry.revision
  let task := closed.2.mark entry.revision sequence
  if max < entry.bytes then some (0, closed.1 + task.clear.1, task.clear.2)
  else do
    let task := task.pushBack entry
    let more ← popToBound? max task.entries.length task
    return (entry.bytes, closed.1 + more.1, more.2)

variable {task : TaskEntries}

theorem popOldest?_eq (h : task.Accounted) : task.popOldest? = some task.popOldest := by
  have hbytes : task.bytes = task.popOldest.1 + task.popOldest.2.bytes := (Drops.popOldest h).bytes
  have hchecked : checkedSub task.bytes task.popOldest.1 =
      some (task.bytes - task.popOldest.1) := checkedSub_of_le (Nat.le.intro hbytes.symm)
  show (checkedSub task.bytes task.popOldest.1).bind _ = _
  rw [hchecked]
  rfl

/-- **The loop ends**: each round drops an entry, and without entries there are no bytes. -/
theorem popToBound?_eq (max : Nat) (h : task.Accounted) :
    popToBound? max task.entries.length task = some (task.popToBound max task.entries) := by
  generalize hentries : task.entries = entries
  induction entries generalizing task with
  | nil =>
    have hbytes : task.bytes = 0 := by
      rw [h, hentries]
      rfl
    exact if_neg (by omega)
  | cons entry rest ih =>
    have htail : task.popOldest.2.entries = rest := by
      show task.entries.tail = rest
      rw [hentries, List.tail_cons]
    rw [List.length_cons, popToBound?, popToBound]
    split
    · rw [popOldest?_eq h, Option.bind_eq_bind, Option.bind_some, ih (Drops.popOldest h).accounted
        htail]
      rfl
    · rfl

theorem accounted_pushBack (h : task.Accounted) (revision sequence : Nat)
    (entry : Entry) : ((task.mark revision sequence).pushBack entry).Accounted := by
  simp only [Accounted, pushBack, mark, List.map_append, List.map_singleton, List.sum_append,
    List.sum_singleton] at h ⊢
  rw [h]

theorem push?_eq (max : Nat) (h : task.Accounted) (sequence : Nat)
    (entry : Entry) : task.push? max sequence entry = some (task.push max sequence entry) := by
  have hback := accounted_pushBack (Drops.closeGap h entry.revision).accounted entry.revision
    sequence entry
  unfold push? push
  dsimp only
  split
  · rfl
  · rw [popToBound?_eq max hback]
    rfl

end TaskEntries

/-- Release entries of a Task that is expected to be there. -/
def release? (log : TaskChangeLog) (taskId : String)
    (f : TaskEntries → Option (Nat × TaskEntries)) : Option TaskChangeLog := do
  let task ← log.tasks.get? taskId
  let dropped ← f task
  let totalBytes ← checkedSub log.totalBytes dropped.1
  return { log with tasks := log.tasks.insert taskId dropped.2, totalBytes }

/-- One round of `evict_to_total_bound`. -/
def evictOne? (log : TaskChangeLog) (keep : String) : Option TaskChangeLog :=
  match log.oldestOther keep with
  | some taskId => log.release? taskId fun task => some task.clear
  | none => log.release? keep TaskEntries.popOldest?

/-- `evict_to_total_bound` (`task_change_log.rs:149`); `none` if it has not ended after `rounds`. -/
def evictToTotalBound? (keep : String) : (rounds : Nat) → TaskChangeLog → Option TaskChangeLog
  | 0, log => if log.maxTotalBytes < log.totalBytes then none else some log
  | rounds + 1, log =>
    if log.maxTotalBytes < log.totalBytes then do
      let evicted ← log.evictOne? keep
      evictToTotalBound? keep rounds evicted
    else some log

/-- `forget` (`task_change_log.rs:139`). -/
def forget? (log : TaskChangeLog) (taskId : String) : Option TaskChangeLog :=
  match log.tasks.get? taskId with
  | none => some log
  | some task => do
    let totalBytes ← checkedSub log.totalBytes task.bytes
    return { log with tasks := log.tasks.erase taskId, totalBytes }

/-- `record` (`task_change_log.rs:76`), with as many rounds of eviction as there are entries. -/
def record? (encodedLength : TaskChanges → Option Nat) (log : TaskChangeLog) (taskId : String)
    (revision : Nat) (changes : TaskChanges) : Option TaskChangeLog :=
  if changes.removed then log.forget? taskId
  else do
    let entry := ⟨revision, changes, (encodedLength changes).getD usizeMax⟩
    let pushed ← ((log.tasks.get? taskId).getD {}).push? log.maxTaskBytes (log.sequence + 1) entry
    let totalBytes ← checkedSub (log.totalBytes + pushed.1) pushed.2.1
    let log := { log with
      tasks := log.tasks.insert taskId pushed.2.2
      totalBytes
      sequence := log.sequence + 1 }
    evictToTotalBound? taskId log.count log

section Checked

variable {log : TaskChangeLog}

theorem release?_eq (h : log.Accounted) {taskId : String} {task : TaskEntries}
    {f : TaskEntries → Nat × TaskEntries} (f? : TaskEntries → Option (Nat × TaskEntries))
    (htask : log.tasks.get? taskId = some task) (hf : f? task = some (f task))
    (hdrops : Drops task (f task).1 (f task).2) :
    log.release? taskId f? = some (log.release taskId f) := by
  have hle := h.bytes_le taskId
  rw [htask, Option.getD_some] at hle
  have hreleased : (f task).1 ≤ log.totalBytes := (Nat.le.intro hdrops.bytes.symm).trans hle
  unfold release? release
  rw [htask, Option.bind_eq_bind, Option.bind_some, hf, Option.bind_eq_bind, Option.bind_some,
    checkedSub_of_le hreleased]
  rfl

theorem evictOne?_eq (h : log.Accounted) {keep : String} (hkeep : (log.tasks.get? keep).isSome) :
    log.evictOne? keep = some (log.evictOne keep) := by
  unfold evictOne? evictOne
  cases holdest : log.oldestOther keep with
  | some taskId =>
    obtain ⟨⟨id, task⟩, hmin, rfl⟩ := Option.map_eq_some_iff.mp holdest
    obtain ⟨hmem, -⟩ := List.mem_filter.mp (List.argmin_mem hmin)
    have htask := h.keyed.get?_eq_some_iff.mpr hmem
    exact release?_eq h (fun task => some task.clear) htask rfl (.clear task)
  | none =>
    obtain ⟨task, htask⟩ := Option.isSome_iff_exists.mp hkeep
    have haccounted := h.tasks keep task htask
    exact release?_eq h _ htask (TaskEntries.popOldest?_eq haccounted) (.popOldest haccounted)

theorem isSome_get?_evictOne {keep id : String} (h : (log.tasks.get? id).isSome) :
    ((log.evictOne keep).tasks.get? id).isSome := by
  unfold evictOne
  split
  · exact isSome_get?_release h _ _
  · exact isSome_get?_release h _ _

/-- **The eviction ends**: each round over the bound drops an entry. -/
theorem evictToTotalBound?_eq (h : log.Accounted) {keep : String}
    (hkeep : (log.tasks.get? keep).isSome) {rounds : Nat} (hrounds : log.count ≤ rounds) :
    evictToTotalBound? keep rounds log = some (log.evictToTotalBound keep rounds) := by
  induction rounds generalizing log with
  | zero =>
    have hle := totalBytes_evictToTotalBound h keep hrounds
    exact if_neg (Nat.not_lt.mpr hle)
  | succ rounds ih =>
    unfold evictToTotalBound? evictToTotalBound
    split
    · rename_i hover
      have hless := evictOne_count h keep hover
      rw [evictOne?_eq h hkeep, Option.bind_eq_bind, Option.bind_some]
      exact ih (h.evictOne keep) (isSome_get?_evictOne hkeep) (by omega)
    · rfl

theorem forget?_eq (h : log.Accounted) (taskId : String) :
    log.forget? taskId = some (log.forget taskId) := by
  have hle := h.bytes_le taskId
  unfold forget? forget
  cases htask : log.tasks.get? taskId with
  | none => rfl
  | some task =>
    rw [htask, Option.getD_some] at hle
    dsimp only
    rw [checkedSub_of_le hle]
    rfl

/-- **A call returns**, and its subtractions do not underflow. -/
theorem record?_eq (h : log.Accounted) (encodedLength : TaskChanges → Option Nat) (taskId : String)
    (revision : Nat) (changes : TaskChanges) :
    log.record? encodedLength taskId revision changes =
      some (log.record encodedLength taskId revision changes) := by
  unfold record? record
  split
  · exact forget?_eq h taskId
  · generalize hentry : (⟨revision, changes, (encodedLength changes).getD usizeMax⟩ : Entry) = entry
    have hbytes := (accounted_push log.maxTaskBytes (log.sequence + 1) entry (h.task taskId)).2
    have hle := h.bytes_le taskId
    dsimp only
    rw [TaskEntries.push?_eq log.maxTaskBytes (h.task taskId), Option.bind_eq_bind,
      Option.bind_some, checkedSub_of_le (by omega)]
    exact evictToTotalBound?_eq (h.pushed taskId entry)
      (by simp only [pushed, Assoc.get?_insert_self, Option.isSome_some]) (Nat.le_refl _)

end Checked

/-! ## What is kept of a Task -/

/-- Revisions without a gap. -/
def Contiguous (revisions : List Nat) : Prop := revisions.IsChain fun a b => b = a + 1

/-- **What is kept of a Task is an end of what was recorded of it**, without gaps and up to the last
change. -/
structure TaskKept (history : List (Nat × TaskChanges)) (task : TaskEntries) : Prop where
  suffix : task.published <:+ history
  last : history.getLast?.map (·.1) = some task.lastPublished
  contiguous : Contiguous (task.entries.map (·.revision))

namespace TaskKept

variable {history : List (Nat × TaskChanges)} {task task' : TaskEntries} {released : Nat}

theorem drops (h : TaskKept history task) (hdrops : Drops task released task') :
    TaskKept history task' := by
  obtain ⟨dropped, hdropped⟩ := hdrops.entries
  have hentries : task'.entries <:+ task.entries := ⟨dropped, hdropped.symm⟩
  refine ⟨(hentries.map _).trans h.suffix, hdrops.published ▸ h.last, ?_⟩
  exact h.contiguous.suffix (hentries.map _)

theorem getLast?_entries (h : TaskKept history task) {revision : Nat}
    (hlast : revision ∈ (task.entries.map (·.revision)).getLast?) :
    revision = task.lastPublished := by
  obtain ⟨entry, hentry, rfl⟩ := Option.map_eq_some_iff.mp (List.getLast?_map ▸ hlast)
  obtain ⟨older, holder⟩ := h.suffix
  have hpublished : task.published.getLast? = some (entry.revision, entry.changes) := by
    rw [TaskEntries.published, List.getLast?_map, hentry, Option.map_some]
  have hhistory := h.last
  rw [← holder, List.getLast?_append, hpublished, Option.some_or] at hhistory
  exact Option.some.inj hhistory

theorem closeGap (h : TaskKept history task) (revision : Nat) :
    Contiguous ((task.closeGap revision).2.entries.map (·.revision) ++ [revision]) := by
  unfold TaskEntries.closeGap
  split
  · exact List.isChain_singleton _
  · rename_i hnone
    refine List.isChain_append.mpr ⟨h.contiguous, List.isChain_singleton _, ?_⟩
    intro last hlast next hnext
    cases hnext
    have hentries : task.entries ≠ [] := by
      intro hempty
      rw [hempty] at hlast
      cases hlast
    have hnext : revision = task.lastPublished + 1 := by
      by_contra hne
      exact hnone ⟨hentries, hne⟩
    rw [hnext, h.getLast?_entries hlast]

theorem push (haccounted : task.Accounted) (h : task = {} ∧ history = [] ∨ TaskKept history task)
    (max sequence : Nat) (entry : Entry) (hnext : ∀ earlier ∈ history, earlier.1 < entry.revision) :
    TaskKept (history ++ [(entry.revision, entry.changes)])
        (task.push max sequence entry).2.2 ∧ (task.push max sequence entry).2.2.bytes ≤ max := by
  have hgap := Drops.closeGap haccounted entry.revision
  have hlast : Nat.max (task.closeGap entry.revision).2.lastPublished entry.revision =
      entry.revision := by
    refine Nat.max_eq_right ?_
    rw [hgap.published]
    rcases h with ⟨rfl, -⟩ | h
    · exact Nat.zero_le _
    · obtain ⟨newest, hnewest, heq⟩ := Option.map_eq_some_iff.mp h.last
      rw [← heq]
      exact (hnext newest (List.mem_of_getLast? hnewest)).le
  have hmarked : ((history ++ [(entry.revision, entry.changes)]).getLast?).map (·.1) =
      some (Nat.max (task.closeGap entry.revision).2.lastPublished entry.revision) := by
    rw [List.getLast?_concat, hlast]
    rfl
  have hsuffix : (task.closeGap entry.revision).2.published <:+ history := by
    rcases h with ⟨rfl, rfl⟩ | h
    · exact List.suffix_refl []
    · exact (h.drops hgap).suffix
  have hcontiguous : Contiguous ((task.closeGap entry.revision).2.entries.map (·.revision) ++
      [entry.revision]) := by
    rcases h with ⟨rfl, -⟩ | h
    · exact List.isChain_singleton _
    · exact h.closeGap entry.revision
  unfold TaskEntries.push
  dsimp only
  split
  · exact ⟨⟨List.nil_suffix, hmarked, List.isChain_nil⟩, Nat.zero_le _⟩
  · have hback := TaskEntries.accounted_pushBack hgap.accounted entry.revision sequence entry
    have hpushed : TaskKept (history ++ [(entry.revision, entry.changes)])
        (((task.closeGap entry.revision).2.mark entry.revision sequence).pushBack entry) := by
      refine ⟨?_, hmarked, ?_⟩
      · obtain ⟨older, holder⟩ := hsuffix
        refine ⟨older, ?_⟩
        rw [← holder, List.append_assoc]
        simp only [TaskEntries.published, TaskEntries.pushBack, TaskEntries.mark, List.map_append,
          List.map_singleton]
      · simpa [TaskEntries.pushBack, TaskEntries.mark] using hcontiguous
    exact ⟨hpushed.drops (Drops.popToBound max _ hback), popToBound_bytes max hback⟩

theorem le_lastPublished (h : TaskKept history task)
    (hordered : (history.map (·.1)).Pairwise (· < ·)) {change : Nat × TaskChanges}
    (hchange : change ∈ history) : change.1 ≤ task.lastPublished := by
  obtain ⟨newest, hnewest, heq⟩ := Option.map_eq_some_iff.mp h.last
  obtain ⟨earlier, rfl⟩ := List.getLast?_eq_some_iff.mp hnewest
  rw [← heq]
  rw [List.map_append, List.pairwise_append] at hordered
  rcases List.mem_append.mp hchange with hearlier | hself
  · exact (hordered.2.2 _ (List.mem_map_of_mem hearlier) _ (List.mem_singleton_self _)).le
  · rw [List.mem_singleton.mp hself]

/-- **What a client is sent** is what was recorded after its revision. -/
theorem changesSince_eq {log : TaskChangeLog} {taskId : String} {knownRevision bytes : Nat}
    {changes : List (Nat × TaskChanges)} (hordered : (history.map (·.1)).Pairwise (· < ·))
    (h : ∀ task, log.tasks.get? taskId = some task → TaskKept history task)
    (hsince : log.changesSince taskId knownRevision = .changes changes bytes) :
    changes = after knownRevision history := by
  unfold changesSince at hsince
  split at hsince
  · cases hsince
  · rename_i task htask
    obtain ⟨older, holder⟩ := (h task htask).suffix
    split at hsince
    · -- nothing was recorded after the last change
      rename_i hcurrent
      cases hsince
      refine (List.filter_eq_nil_iff.mpr fun change hchange => ?_).symm
      have hle := (h task htask).le_lastPublished hordered hchange
      rw [decide_eq_true_eq]
      omega
    · split at hsince
      · rename_i first rest hentries
        split at hsince
        · -- what is no longer kept is not after the first entry
          rename_i hfirst
          cases hsince
          have hnone : after knownRevision older = [] := by
            refine List.filter_eq_nil_iff.mpr fun change hchange => ?_
            rw [← holder, List.map_append, List.pairwise_append] at hordered
            have hfront : first.revision ∈ task.published.map (·.1) := by
              rw [TaskEntries.published, hentries]
              exact List.mem_cons_self
            have hlt := hordered.2.2 _ (List.mem_map_of_mem hchange) _ hfront
            rw [decide_eq_true_eq]
            omega
          rw [← holder, after_append, hnone, List.nil_append, after, TaskEntries.published,
            List.filter_map]
          rfl
        · cases hsince
      · cases hsince

end TaskKept

/-- What the log has of a Task of which `history` was recorded. -/
def Kept (max : Nat) (history : List (Nat × TaskChanges)) : Option TaskEntries → Prop
  | none => history = []
  | some task => TaskKept history task ∧ task.bytes ≤ max

/-! ## Runs -/

/-- A call of the log. -/
inductive Call where
  | record (taskId : String) (revision : Nat) (changes : TaskChanges)
  | forget (taskId : String)

def Call.perform (encodedLength : TaskChanges → Option Nat) (log : TaskChangeLog) :
    Call → Option TaskChangeLog
  | .record taskId revision changes => log.record? encodedLength taskId revision changes
  | .forget taskId => log.forget? taskId

/-- `with_bounds` (`task_change_log.rs:66`). -/
def withBounds (maxTaskBytes maxTotalBytes : Nat) : TaskChangeLog := { maxTaskBytes, maxTotalBytes }

/-- The log after calls; `none` if one of them underflows or does not end. -/
def run (encodedLength : TaskChanges → Option Nat) (log : TaskChangeLog) (calls : List Call) :
    Option TaskChangeLog :=
  calls.foldlM (Call.perform encodedLength) log

/-- What is recorded of a Task since it was last removed, after one more call. -/
def recordedAfter (taskId : String) (history : List (Nat × TaskChanges)) :
    Call → List (Nat × TaskChanges)
  | .record id revision changes =>
    if id ≠ taskId then history
    else if changes.removed then []
    else history ++ [(revision, changes)]
  | .forget id => if id ≠ taskId then history else []

/-- **What was recorded of a Task since it was last removed.** -/
def recorded (calls : List Call) (taskId : String) : List (Nat × TaskChanges) :=
  calls.foldl (recordedAfter taskId) []

/-- The revisions that are recorded of a Task between its removals increase. -/
def Ordered (calls : List Call) : Prop :=
  ∀ seen, seen <+: calls → ∀ taskId, ((recorded seen taskId).map (·.1)).Pairwise (· < ·)

/-- **The invariant of the log.** -/
structure Invariant (maxTaskBytes maxTotalBytes : Nat)
    (history : String → List (Nat × TaskChanges)) (log : TaskChangeLog) : Prop where
  taskBound : log.maxTaskBytes = maxTaskBytes
  totalBound : log.maxTotalBytes = maxTotalBytes
  accounted : log.Accounted
  kept : log.Each fun taskId => Kept maxTaskBytes (history taskId)
  bounded : log.totalBytes ≤ maxTotalBytes

section Runs

variable {maxTaskBytes maxTotalBytes : Nat} {history : String → List (Nat × TaskChanges)}
  {log : TaskChangeLog}

theorem invariant_withBounds (maxTaskBytes maxTotalBytes : Nat) :
    Invariant maxTaskBytes maxTotalBytes (fun _ => []) (withBounds maxTaskBytes maxTotalBytes) where
  taskBound := rfl
  totalBound := rfl
  accounted := ⟨List.nodup_nil, nofun, rfl⟩
  kept := fun _ => rfl
  bounded := Nat.zero_le _

theorem bounds_evictToTotalBound (log : TaskChangeLog) (keep : String) (rounds : Nat) :
    (log.evictToTotalBound keep rounds).maxTaskBytes = log.maxTaskBytes ∧
      (log.evictToTotalBound keep rounds).maxTotalBytes = log.maxTotalBytes := by
  induction rounds generalizing log with
  | zero => exact ⟨rfl, rfl⟩
  | succ rounds ih =>
    unfold evictToTotalBound
    split
    · obtain ⟨htask, htotal⟩ := ih (log.evictOne keep)
      have hround : (log.evictOne keep).maxTaskBytes = log.maxTaskBytes := by
        unfold evictOne
        split <;> rfl
      exact ⟨htask.trans hround, htotal.trans (maxTotalBytes_evictOne log keep)⟩
    · exact ⟨rfl, rfl⟩

theorem get?_forget (log : TaskChangeLog) (taskId id : String) :
    (log.forget taskId).tasks.get? id = if id = taskId then none else log.tasks.get? id := by
  unfold TaskChangeLog.forget
  split
  · rename_i hnone
    split
    · rename_i hid
      rw [hid, hnone]
    · rfl
  · exact Assoc.get?_erase log.tasks taskId id

/-- A Task is forgotten. -/
theorem Invariant.forget (h : Invariant maxTaskBytes maxTotalBytes history log) (taskId : String)
    {history' : String → List (Nat × TaskChanges)} (hself : history' taskId = [])
    (hothers : ∀ id ≠ taskId, history' id = history id) :
    Invariant maxTaskBytes maxTotalBytes history' (log.forget taskId) := by
  have hfields : (log.forget taskId).maxTaskBytes = log.maxTaskBytes ∧
      (log.forget taskId).maxTotalBytes = log.maxTotalBytes ∧
      (log.forget taskId).totalBytes ≤ log.totalBytes := by
    unfold TaskChangeLog.forget
    split
    · exact ⟨rfl, rfl, Nat.le_refl _⟩
    · exact ⟨rfl, rfl, Nat.sub_le _ _⟩
  refine ⟨hfields.1.trans h.taskBound, hfields.2.1.trans h.totalBound, h.accounted.forget taskId,
    ?_, hfields.2.2.trans h.bounded⟩
  intro id
  rw [get?_forget]
  split
  · rename_i hid
    rw [hid]
    exact hself
  · rename_i hid
    rw [hothers id hid]
    exact h.kept id

theorem Invariant.record (h : Invariant maxTaskBytes maxTotalBytes history log)
    (encodedLength : TaskChanges → Option Nat) {taskId : String} {revision : Nat}
    {changes : TaskChanges} (hremoved : changes.removed = false)
    (hnext : ∀ earlier ∈ history taskId, earlier.1 < revision)
    {history' : String → List (Nat × TaskChanges)}
    (hself : history' taskId = history taskId ++ [(revision, changes)])
    (hothers : ∀ id ≠ taskId, history' id = history id) :
    Invariant maxTaskBytes maxTotalBytes history'
      (log.record encodedLength taskId revision changes) := by
  obtain ⟨rfl, rfl, haccounted, hkept, hbounded⟩ := h
  generalize hentry : (⟨revision, changes, (encodedLength changes).getD usizeMax⟩ : Entry) = entry
  have hrecord : log.record encodedLength taskId revision changes =
      (log.pushed taskId entry).evictToTotalBound taskId (log.pushed taskId entry).count := by
    unfold TaskChangeLog.record
    rw [hremoved, if_neg Bool.false_ne_true, hentry]
  have hpushed : (log.pushed taskId entry).Each fun id => Kept log.maxTaskBytes (history' id) := by
    intro id
    show Kept log.maxTaskBytes (history' id) ((log.tasks.insert taskId _).get? id)
    rw [Assoc.get?_insert]
    split
    · rename_i hid
      subst hid
      rw [hself]
      have hpush : (log.tasks.get? taskId).getD {} = {} ∧ history taskId = [] ∨
          TaskKept (history taskId) ((log.tasks.get? taskId).getD {}) := by
        have htask := hkept taskId
        cases hget : log.tasks.get? taskId with
        | none =>
          rw [hget] at htask
          exact .inl ⟨rfl, htask⟩
        | some task =>
          rw [hget] at htask
          exact .inr htask.1
      subst hentry
      exact TaskKept.push (haccounted.task taskId) hpush log.maxTaskBytes (log.sequence + 1)
        ⟨revision, changes, _⟩ hnext
    · rename_i hid
      rw [hothers id (Ne.symm hid)]
      exact hkept id
  have hbounds := bounds_evictToTotalBound (log.pushed taskId entry) taskId
    (log.pushed taskId entry).count
  rw [hrecord]
  refine ⟨hbounds.1, hbounds.2, (haccounted.pushed taskId entry).evictToTotalBound taskId _, ?_,
    totalBytes_evictToTotalBound (haccounted.pushed taskId entry) taskId (Nat.le_refl _)⟩
  refine Each.evictToTotalBound ?_ hpushed (haccounted.pushed taskId entry) _ ?_
  · intro id task released task' hold hdrops
    have hbytes := hdrops.bytes
    exact ⟨hold.1.drops hdrops, by have := hold.2; omega⟩
  · simp only [pushed, Assoc.get?_insert_self, Option.isSome_some]

/-- **One call** returns and keeps the invariant, if what it records is after what was recorded. -/
theorem invariant_perform (h : Invariant maxTaskBytes maxTotalBytes history log)
    (encodedLength : TaskChanges → Option Nat) (call : Call)
    (hordered : ∀ taskId, ((recordedAfter taskId (history taskId) call).map (·.1)).Pairwise
      (· < ·)) :
    ∃ log', call.perform encodedLength log = some log' ∧
      Invariant maxTaskBytes maxTotalBytes (fun taskId =>
        recordedAfter taskId (history taskId) call) log' := by
  cases call with
  | forget taskId =>
    refine ⟨_, forget?_eq h.accounted taskId, h.forget taskId ?_ fun id hid => ?_⟩
    · exact if_neg (not_not.mpr rfl)
    · exact if_pos (Ne.symm hid)
  | record taskId revision changes =>
    refine ⟨_, record?_eq h.accounted encodedLength taskId revision changes, ?_⟩
    have hothers : ∀ id ≠ taskId,
        recordedAfter id (history id) (.record taskId revision changes) = history id :=
      fun id hid => if_pos (Ne.symm hid)
    cases hremoved : changes.removed with
    | true =>
      have hself : recordedAfter taskId (history taskId) (.record taskId revision changes) =
          [] := by
        simp [recordedAfter, hremoved]
      have hforget : log.record encodedLength taskId revision changes = log.forget taskId := by
        simp [TaskChangeLog.record, hremoved]
      rw [hforget]
      exact h.forget taskId hself hothers
    | false =>
      have hself : recordedAfter taskId (history taskId) (.record taskId revision changes) =
          history taskId ++ [(revision, changes)] := by
        simp [recordedAfter, hremoved]
      refine h.record encodedLength hremoved (fun earlier hearlier => ?_) hself hothers
      have hpairwise := hordered taskId
      rw [hself, List.map_append, List.pairwise_append] at hpairwise
      exact hpairwise.2.2 _ (List.mem_map_of_mem hearlier) _ (List.mem_singleton_self _)

theorem recorded_concat (calls : List Call) (call : Call) (taskId : String) :
    recorded (calls ++ [call]) taskId = recordedAfter taskId (recorded calls taskId) call := by
  rw [recorded, List.foldl_append]
  rfl

/-- **Every run** returns and keeps the invariant. -/
theorem invariant_run (encodedLength : TaskChanges → Option Nat) (maxTaskBytes maxTotalBytes : Nat)
    (calls : List Call) (hordered : Ordered calls) :
    ∃ log, run encodedLength (withBounds maxTaskBytes maxTotalBytes) calls = some log ∧
      Invariant maxTaskBytes maxTotalBytes (recorded calls) log := by
  induction calls using List.reverseRecOn with
  | nil => exact ⟨_, rfl, invariant_withBounds maxTaskBytes maxTotalBytes⟩
  | append_singleton calls call ih =>
    obtain ⟨log, hrun, hinvariant⟩ := ih fun seen hseen =>
      hordered seen (hseen.trans (List.prefix_append _ _))
    have hnext := hordered (calls ++ [call]) (List.prefix_refl _)
    simp only [recorded_concat] at hnext
    obtain ⟨log', hperform, hinvariant'⟩ := invariant_perform hinvariant encodedLength call hnext
    refine ⟨log', ?_, ?_⟩
    · rw [run, List.foldlM_append]
      show (run encodedLength _ calls).bind _ = _
      rw [hrun, Option.bind_some, List.foldlM_cons, hperform]
      rfl
    · have hrecorded : recorded (calls ++ [call]) = fun taskId =>
          recordedAfter taskId (recorded calls taskId) call :=
        funext (recorded_concat calls call)
      rw [hrecorded]
      exact hinvariant'

end Runs

/-- **The change log in every run.**  With any bounds and sizes, and revisions that increase between
the removals of a Task, every call returns: no subtraction underflows and the loops end.  Then the
entries of a Task are without gaps and end at its last change, the counted bytes are those of the
entries and within the bounds, and a client that is answered with changes is sent exactly those that
were recorded after its revision since the Task was last removed. -/
theorem change_log_exact (encodedLength : TaskChanges → Option Nat)
    (maxTaskBytes maxTotalBytes : Nat) (calls : List Call) (hordered : Ordered calls) :
    ∃ log, run encodedLength (withBounds maxTaskBytes maxTotalBytes) calls = some log ∧
      (∀ taskId task, log.tasks.get? taskId = some task →
        Contiguous (task.entries.map (·.revision)) ∧
          (∀ entry ∈ task.entries.getLast?, entry.revision = task.lastPublished) ∧
          task.bytes = (task.entries.map (·.bytes)).sum ∧ task.bytes ≤ maxTaskBytes) ∧
      log.totalBytes = log.tasks.total (fun task => (task.entries.map (·.bytes)).sum) ∧
      log.totalBytes ≤ maxTotalBytes ∧
      ∀ taskId knownRevision changes bytes,
        log.changesSince taskId knownRevision = .changes changes bytes →
          changes = after knownRevision (recorded calls taskId) := by
  obtain ⟨log, hrun, hinvariant⟩ := invariant_run encodedLength maxTaskBytes maxTotalBytes calls
    hordered
  have hkept : ∀ taskId task, log.tasks.get? taskId = some task →
      TaskKept (recorded calls taskId) task ∧ task.bytes ≤ maxTaskBytes := by
    intro taskId task htask
    have hkept := hinvariant.kept taskId
    rwa [htask] at hkept
  refine ⟨log, hrun, fun taskId task htask => ?_, ?_, hinvariant.bounded, ?_⟩
  · obtain ⟨htaskKept, hbytes⟩ := hkept taskId task htask
    refine ⟨htaskKept.contiguous, fun entry hentry => ?_,
      hinvariant.accounted.tasks taskId task htask, hbytes⟩
    refine htaskKept.getLast?_entries ?_
    rw [List.getLast?_map]
    exact Option.mem_map_of_mem (·.revision) hentry
  · rw [hinvariant.accounted.total]
    refine congrArg List.sum (List.map_congr_left fun entry hentry => ?_)
    exact hinvariant.accounted.tasks entry.1 entry.2
      (hinvariant.accounted.keyed.get?_eq_some_iff.mpr hentry)
  · intro taskId knownRevision changes bytes hsince
    exact TaskKept.changesSince_eq (hordered calls (List.prefix_refl _) taskId)
      (fun task htask => (hkept taskId task htask).1) hsince

namespace Example

/-- Two changes of a Task with a gap between them. -/
def calls : List Call := [.record "t" 1 {}, .record "t" 3 {}]

theorem ordered_calls : Ordered calls := by
  intro seen hseen taskId
  have hmem : seen ∈ calls.inits := (List.mem_inits _ _).mpr hseen
  simp only [calls, List.inits, List.map_cons, List.map_nil, List.mem_cons, List.not_mem_nil,
    or_false] at hmem
  rcases hmem with rfl | rfl | rfl <;> by_cases htask : "t" = taskId <;>
    simp [recorded, recordedAfter, htask]

/-- There is room for the last change alone. -/
theorem change_log_exact_with_gap :
    ∃ log, run (fun _ => some 2) (withBounds 3 3) calls = some log ∧
      (∀ taskId task, log.tasks.get? taskId = some task →
        Contiguous (task.entries.map (·.revision)) ∧
          (∀ entry ∈ task.entries.getLast?, entry.revision = task.lastPublished) ∧
          task.bytes = (task.entries.map (·.bytes)).sum ∧ task.bytes ≤ 3) ∧
      log.totalBytes = log.tasks.total (fun task => (task.entries.map (·.bytes)).sum) ∧
      log.totalBytes ≤ 3 ∧
      ∀ taskId knownRevision changes bytes,
        log.changesSince taskId knownRevision = .changes changes bytes →
          changes = after knownRevision (recorded calls taskId) :=
  change_log_exact (fun _ => some 2) 3 3 calls ordered_calls

end Example

end TaskChangeLog

end OpenAide

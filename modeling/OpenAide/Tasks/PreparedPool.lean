import OpenAide.Tasks.PreparedTasks

/-!
# Leases on Prepared Tasks

In every run, whatever fails on the way, a Task has one record and a client holds at most one lease
(`exclusive_run`).  Only `acquire_prepared_task` grants a lease, and it looks for one of the
client's first; every other write leaves leases alone or drops them.

* `Narrows P`: no entry with `P` appears or changes.  A program whose writes avoid `P` stays in this
  relation at every point it may stop at (`respects_…`), by `Library.Prog.Respects`.
* `exclusive_acquire`: the one operation that grants, write by write.
* `exclusive_program`: every operation.
-/

namespace OpenAide

open Library
open ShownTask
open Prog.Ensures (bind_post of_read)
open TaskCatalog

/-! ## Entries that only go -/

/-- From `s` to `s'` no entry with `P` appears or changes. -/
structure TaskCatalog.Narrows (P : ShownTask → Prop) (s s' : TaskCatalog) : Prop where
  keyed : s.Keyed → s'.Keyed
  frozen : s'.frozen = s.frozen
  entries : ∀ entry ∈ s'.tasks, P entry.task → entry ∈ s.tasks

namespace TaskCatalog.Narrows

variable {P : ShownTask → Prop}

theorem refl (s : TaskCatalog) : Narrows P s s := ⟨id, rfl, fun _ h _ => h⟩

theorem trans {a b c : TaskCatalog} (h : Narrows P a b) (h' : Narrows P b c) : Narrows P a c where
  keyed hkeyed := h'.keyed (h.keyed hkeyed)
  frozen := h'.frozen.trans h.frozen
  entries entry hentry hP := h.entries entry (h'.entries entry hentry hP) hP

end TaskCatalog.Narrows

/-- The write puts no entry with `P` into the catalog. -/
def CatalogWrite.Avoids (P : ShownTask → Prop) : CatalogWrite → Prop
  | create entry => ¬P entry.task
  | replace entry => ¬P entry.task
  | purge _ => True

namespace TaskCatalog

theorem keyed_set {s : TaskCatalog} (h : s.Keyed) (entry : CatalogTask) : (s.set entry).Keyed := by
  unfold Keyed
  rw [taskIds_set]
  exact h

theorem keyed_concat {s : TaskCatalog} (h : s.Keyed) (entry : CatalogTask)
    (hnew : entry.task.taskId ∉ s.taskIds) : ({ s with tasks := s.tasks ++ [entry] }).Keyed := by
  have hids : ({ s with tasks := s.tasks ++ [entry] } : TaskCatalog).taskIds =
      s.taskIds ++ [entry.task.taskId] := by simp [taskIds]
  unfold Keyed
  rw [hids]
  exact List.nodup_append.mpr ⟨h, List.nodup_singleton _, fun a ha b hb =>
    (List.mem_singleton.mp hb) ▸ fun heq => hnew (heq ▸ ha)⟩

/-- One write. -/
theorem narrows_write {P : ShownTask → Prop} {s s' : TaskCatalog} {a : CatalogWrite}
    (ha : a.Avoids P) (h : s.write a = .ok s') : Narrows P s s' := by
  obtain ⟨entry, rfl, hnew, rfl⟩ | ⟨entry, rfl, rfl⟩ | ⟨taskId, rfl, rfl⟩ := write_eq_ok h
  · refine ⟨fun hkeyed => keyed_concat hkeyed entry hnew, rfl, fun e he hP => ?_⟩
    rcases List.mem_append.mp he with he | he
    · exact he
    · rw [List.mem_singleton.mp he] at hP
      exact absurd hP ha
  · refine ⟨fun hkeyed => keyed_set hkeyed entry, rfl, fun e he hP => ?_⟩
    rcases mem_set he with rfl | ⟨he, -⟩
    · exact absurd hP ha
    · exact he
  · refine ⟨fun hkeyed => ?_, rfl, fun e he _ => List.mem_of_mem_filter he⟩
    exact hkeyed.sublist (List.filter_sublist.map _)

end TaskCatalog

section Programs

open TaskCatalog (Narrows)

variable {P : ShownTask → Prop}

theorem respects_perform {a : CatalogWrite} (ha : a.Avoids P) :
    Prog.Respects (Narrows P) (Prog.perform a id : PoolProg Unit) := by
  refine ⟨fun s s' h => ?_, trivial, fun _ => trivial⟩
  rcases h with rfl | h
  · exact .refl _
  · exact narrows_write ha h

variable {task : ShownTask}

theorem respects_persistChangedTask {original : ShownTask} (h : ¬P (committed original task)) :
    Prog.Respects (Narrows P) (persistChangedTask original task) := by
  refine .get_bind fun s => .bind (.ofExcept _) fun projection => ?_
  exact .bind (respects_perform h) fun _ => trivial

theorem respects_persistNewTask {messages : List StoredMessage}
    (h : ¬P (newRecord task messages)) : Prog.Respects (Narrows P) (persistNewTask task messages) :=
  .bind (respects_perform h) fun _ => trivial

theorem respects_collectDisposed {body : ShownTask → PoolProg (Option ShownTask)}
    (hbody : ∀ task, Prog.Respects (Narrows P) (body task)) (tasks : List ShownTask) :
    Prog.Respects (Narrows P) (collectDisposed body tasks) := by
  induction tasks with
  | nil => trivial
  | cons task rest ih => exact .bind (hbody task) fun _ => .bind ih fun _ => trivial

/-- `P` speaks of Prepared Tasks that are not tombstoned. -/
def Pooling (P : ShownTask → Prop) : Prop :=
  ∀ task, P task → task.tombstoned = false ∧ ∃ lease, task.lifecycle = .prepared lease

variable (hP : Pooling P)
include hP

theorem Pooling.not_tombstoned (h : task.tombstoned = true) : ¬P task :=
  fun hp => by simp [(hP task hp).1] at h

theorem Pooling.not_open (h : task.lifecycle = .open) : ¬P task := by
  intro hp
  obtain ⟨-, lease, hlease⟩ := hP task hp
  rw [h] at hlease
  cases hlease

theorem Pooling.not_archived (h : task.lifecycle = .archived) : ¬P task := by
  intro hp
  obtain ⟨-, lease, hlease⟩ := hP task hp
  rw [h] at hlease
  cases hlease

theorem respects_evictEach (tasks : List ShownTask) :
    Prog.Respects (Narrows P) (evictEach tasks) := by
  induction tasks with
  | nil => trivial
  | cons task rest ih =>
    exact .bind (respects_persistChangedTask (hP.not_tombstoned rfl)) fun _ =>
      .bind ih fun _ => trivial

theorem respects_keepFree (keys : List (String × String)) (count : Nat) (tasks : List ShownTask) :
    Prog.Respects (Narrows P) (keepFree keys count tasks) := by
  induction tasks generalizing keys count with
  | nil => trivial
  | cons task rest ih =>
    unfold keepFree
    dsimp only
    split
    · exact ih _ _
    · exact .bind (respects_persistChangedTask (hP.not_tombstoned rfl)) fun _ =>
        .bind (ih _ _) fun _ => trivial

theorem respects_disposePreparedTasksMatching (matching : ShownTask → Bool) :
    Prog.Respects (Narrows P) (disposePreparedTasksMatching matching) := by
  refine .get_bind fun s => respects_collectDisposed (fun task => ?_) _
  unfold disposeTask
  split
  · split
    · trivial
    · exact .bind (respects_persistChangedTask (hP.not_tombstoned rfl)) fun _ => trivial
  · trivial

theorem respects_sendMessage (values : StoredValues) (client taskId turnId now : String)
    (rows : List StoredMessage) :
    Prog.Respects (Narrows P) (sendMessage values client taskId turnId now rows) := by
  refine .get_bind fun s => .bind (.ofExcept _) fun entry => ?_
  dsimp only
  split
  · trivial
  · exact .bind (respects_perform (hP.not_open rfl)) fun _ => trivial

theorem respects_hideTask (mode : DeleteMode) (taskId : String) :
    Prog.Respects (Narrows P) (hideTask mode taskId) := by
  refine .get_bind fun s => .bind (.ofExcept _) fun task => ?_
  cases mode with
  | archive =>
    dsimp only
    split
    · trivial
    · exact .bind (respects_persistChangedTask (hP.not_archived rfl)) fun _ => trivial
  | restore =>
    dsimp only
    split
    · trivial
    · exact .bind (respects_persistChangedTask (hP.not_open rfl)) fun _ => trivial
  | delete =>
    dsimp only
    split
    · trivial
    · exact .bind (respects_persistChangedTask (hP.not_tombstoned rfl)) fun _ => trivial

end Programs

/-! ## Leases -/

/-- `client` holds a lease on the Task. -/
def ShownTask.HeldBy (client : String) (task : ShownTask) : Prop :=
  task.tombstoned = false ∧ task.lifecycle = .prepared (some client)

/-- Someone holds a lease on the Task. -/
def ShownTask.Held (task : ShownTask) : Prop := ∃ client, task.HeldBy client

theorem ShownTask.pooling_held : Pooling ShownTask.Held :=
  fun _ ⟨client, h⟩ => ⟨h.1, some client, h.2⟩

theorem ShownTask.not_held_of_unleased {task : ShownTask} (h : task.lifecycle = .prepared none) :
    ¬task.Held := by
  rintro ⟨client, -, hlease⟩
  rw [h] at hlease
  cases hlease

open TaskCatalog (Narrows)

variable (values : StoredValues)

theorem respects_releasePreparedTask (client taskId now : String) :
    Prog.Respects (Narrows ShownTask.Held) (releasePreparedTask values client taskId now) := by
  refine .get_bind fun s => ?_
  split
  · trivial
  · trivial
  · split
    · trivial
    · refine .bind (.ofExcept _) fun used => ?_
      split
      · trivial
      · refine .bind (respects_persistChangedTask (not_held_of_unleased rfl)) fun _ => ?_
        exact .bind (.get_bind fun s => respects_evictEach pooling_held _) fun _ =>
          trivial

theorem not_held_reconciled {clearLeases invalid : Bool} {lease : Option String} {task : ShownTask}
    (h : ¬((reconciled clearLeases invalid lease task).lifecycle = task.lifecycle ∧
      (reconciled clearLeases invalid lease task).tombstoned = task.tombstoned))
    (hlive : task.tombstoned = false) :
    ¬(committed task (reconciled clearLeases invalid lease task)).Held := by
  cases clearLeases with
  | true => exact not_held_of_unleased rfl
  | false =>
    have htombstoned : (reconciled false invalid lease task).tombstoned = true := by
      rw [← Bool.not_eq_false]
      intro hfalse
      exact h ⟨rfl, hfalse.trans hlive.symm⟩
    exact pooling_held.not_tombstoned htombstoned

theorem respects_reconcileTask (clearLeases : Bool) (task : ShownTask) :
    Prog.Respects (Narrows ShownTask.Held) (reconcileTask clearLeases task) := by
  unfold reconcileTask
  split
  · split
    · trivial
    · next lease hlease hlive =>
      refine .get_bind fun s => .bind (.ofExcept _) fun invalid => ?_
      dsimp only
      split
      · trivial
      · next hchanged =>
        have hheld := not_held_reconciled hchanged (Bool.not_eq_true _ ▸ hlive)
        exact .bind (respects_persistChangedTask hheld) fun _ => trivial
  · trivial

theorem respects_reconcilePreparedTaskPool (clearLeases : Bool) :
    Prog.Respects (Narrows ShownTask.Held) (reconcilePreparedTaskPool values clearLeases) := by
  refine .get_bind fun s =>
    .bind (respects_collectDisposed (respects_reconcileTask clearLeases) _) fun _ =>
      .get_bind fun s => ?_
  exact .bind (respects_keepFree pooling_held _ _ _) fun _ => trivial

/-! ## Exclusive leases -/

/-- A Task has one record, and a client holds at most one lease. -/
structure TaskCatalog.Exclusive (s : TaskCatalog) : Prop where
  keyed : s.Keyed
  oneLease : ∀ client, ∀ a ∈ s.tasks, ∀ b ∈ s.tasks,
    a.task.HeldBy client → b.task.HeldBy client → a = b

namespace TaskCatalog.Exclusive

variable {s s' : TaskCatalog}

theorem narrows (h : s.Exclusive) (hn : Narrows ShownTask.Held s s') : s'.Exclusive where
  keyed := hn.keyed h.keyed
  oneLease client a ha b hb hheld hheld' :=
    h.oneLease client a (hn.entries a ha ⟨client, hheld⟩) b (hn.entries b hb ⟨client, hheld'⟩)
      hheld hheld'

theorem ensures {α : Type} (h : s.Exclusive) {p : PoolProg α}
    (hp : Prog.Respects (Narrows ShownTask.Held) p) : Prog.Ensures p s fun _ s' => s'.Exclusive :=
  (hp.ensures .refl .trans s).mono fun _ _ hn => h.narrows hn

theorem update (h : s.Exclusive) (entry : CatalogTask) (hkeyed : s'.Keyed)
    (hs' : ∀ e ∈ s'.tasks, e = entry ∨
      e ∈ s.tasks ∧ ∀ client, entry.task.HeldBy client → ¬e.task.HeldBy client) : s'.Exclusive where
  keyed := hkeyed
  oneLease client a ha b hb hheld hheld' := by
    rcases hs' a ha with rfl | ⟨ha, hnota⟩
    · rcases hs' b hb with rfl | ⟨-, hnotb⟩
      · rfl
      · exact absurd hheld' (hnotb client hheld)
    · rcases hs' b hb with rfl | ⟨hb, -⟩
      · exact absurd hheld (hnota client hheld')
      · exact h.oneLease client a ha b hb hheld hheld'

theorem set (h : s.Exclusive) (entry : CatalogTask)
    (hentry : ∀ client, entry.task.HeldBy client → ∀ e ∈ s.tasks, e.task.HeldBy client →
      e.task.taskId = entry.task.taskId) : (s.set entry).Exclusive := by
  refine h.update entry (keyed_set h.keyed entry) fun e he => ?_
  refine (mem_set he).imp_right fun ⟨he, hother⟩ => ⟨he, fun client hheld hheld' => ?_⟩
  exact hother (hentry client hheld e he hheld')

theorem perm (h : s.Exclusive) {tasks : List CatalogTask} (hperm : tasks.Perm s.tasks) :
    ({ s with tasks := tasks } : TaskCatalog).Exclusive where
  keyed := (hperm.map _).nodup_iff.mpr h.keyed
  oneLease client a ha b hb :=
    h.oneLease client a (hperm.subset ha) b (hperm.subset hb)

end TaskCatalog.Exclusive

section Writes

variable {s : TaskCatalog} {S : TaskCatalog → Prop} {T : ShownTask → TaskCatalog → Prop}

theorem ensures_persistChangedTask {original task : ShownTask} (hs : S s)
    (hset : ∀ entry ∈ s.tasks, entry.task.taskId = task.taskId →
      S (s.set { entry with task := committed original task }) ∧
        T (committed original task) (s.set { entry with task := committed original task })) :
    Prog.Ensures (persistChangedTask original task) s (Prog.Post S T) := by
  refine .of_read (bind_post
    (T := fun entry s' => s' = s ∧ s.load task.taskId = .ok entry) ?_ ?_)
  · exact .of_ofExcept (fun entry hload => ⟨rfl, hload⟩) (fun _ _ => hs) hs
  rintro entry s' ⟨heq, hload⟩
  rw [heq]
  obtain ⟨-, hmem, hid⟩ := load_eq_ok hload
  obtain ⟨hS, hT⟩ := hset entry hmem hid
  refine .of_act (fun s' ht => ?_) (fun s₁ hp => ?_) fun e _ => .of_throw hs hs
  · cases (show s' = s from ht)
    exact ⟨hs, fun e _ => .of_throw hs hs⟩
  · obtain ⟨_, heq, -⟩ | ⟨_, heq, rfl⟩ | ⟨_, heq, -⟩ := write_eq_ok hp
    · cases heq
    · cases heq
      exact .of_pure hT hS
    · cases heq

theorem ensures_persistNewTask {task : ShownTask} {messages : List StoredMessage} (hs : S s)
    (hnew : task.taskId ∉ s.taskIds →
      let s' := { s with tasks := s.tasks ++ [{ task := newRecord task messages, messages }] }
      S s' ∧ T (newRecord task messages) s') :
    Prog.Ensures (persistNewTask task messages) s (Prog.Post S T) := by
  refine .of_act (fun s' ht => ?_) (fun s₁ hp => ?_) fun e _ => .of_throw hs hs
  · cases (show s' = s from ht)
    exact ⟨hs, fun e _ => .of_throw hs hs⟩
  · obtain ⟨_, heq, hid, rfl⟩ | ⟨_, heq, -⟩ | ⟨_, heq, -⟩ := write_eq_ok hp
    · cases heq
      obtain ⟨hS, hT⟩ := hnew hid
      exact .of_pure hT hS
    · cases heq
    · cases heq

end Writes

section Acquire

variable {s : TaskCatalog} {client : String} {task : ShownTask}

theorem exclusive_persistNewTask (h : s.Exclusive) (hfree : ∀ e ∈ s.tasks, ¬e.task.HeldBy client)
    (htask : task.lifecycle = .prepared (some client)) (messages : List StoredMessage) :
    Prog.Ensures (persistNewTask task messages) s
      (Prog.Post TaskCatalog.Exclusive fun _ => TaskCatalog.Exclusive) := by
  refine ensures_persistNewTask h fun hnew => ?_
  have hs' := h.update { task := newRecord task messages, messages }
    (keyed_concat h.keyed _ hnew) fun e he => by
      rcases List.mem_append.mp he with he | he
      · refine .inr ⟨he, fun lessee hheld => ?_⟩
        have hlessee : lessee = client := by
          have heq := hheld.2.symm.trans htask
          simpa using heq
        exact hlessee ▸ hfree e he
      · exact .inl (List.mem_singleton.mp he)
  exact ⟨hs', hs'⟩

theorem exclusive_lease (h : s.Exclusive) (hfree : ∀ e ∈ s.tasks, ¬e.task.HeldBy client) :
    Prog.Ensures (persistChangedTask task { task with lifecycle := .prepared (some client) }) s
      (Prog.Post TaskCatalog.Exclusive fun _ => TaskCatalog.Exclusive) := by
  refine ensures_persistChangedTask h fun entry hentry hid => ?_
  have hs' := h.set
    { entry with task := committed task { task with lifecycle := .prepared (some client) } }
    fun lessee hheld e he hheld' => by
      have hlessee : lessee = client := by simpa [committed] using hheld.2.symm
      exact absurd (hlessee ▸ hheld') (hfree e he)
  exact ⟨hs', hs'⟩

theorem exclusive_replaceStale (h : s.Exclusive) {existing stale : ShownTask}
    (hexisting : ∃ e ∈ s.tasks, e.task = existing) (hheld : existing.HeldBy client)
    (hid : stale.taskId = existing.taskId) (hstale : stale.lifecycle = .prepared none)
    (htask : task.lifecycle = .prepared (some client)) (messages : List StoredMessage) :
    Prog.Ensures (do
        let _ ← persistChangedTask existing stale
        return Acquired.committed (← persistNewTask task messages) : PoolProg Acquired) s
      (Prog.Post TaskCatalog.Exclusive fun _ => TaskCatalog.Exclusive) := by
  obtain ⟨held, hmem, rfl⟩ := hexisting
  have hnot : ∀ lessee, ¬(committed held.task stale).HeldBy lessee :=
    fun lessee hlessee => not_held_of_unleased hstale ⟨lessee, hlessee⟩
  refine bind_post (T := fun _ s₁ => s₁.Exclusive ∧
    ∀ e ∈ s₁.tasks, ¬e.task.HeldBy client) (ensures_persistChangedTask h fun entry hentry _ => ?_)
    fun _ s₁ h₁ => bind_post (exclusive_persistNewTask h₁.1 h₁.2 htask messages)
      fun _ s₂ h₂ => .of_pure h₂ h₂
  have hs₁ := h.set { entry with task := committed held.task stale }
    fun lessee hlessee => absurd hlessee (hnot lessee)
  refine ⟨hs₁, hs₁, fun e he hclient => ?_⟩
  rcases mem_set he with rfl | ⟨he, hother⟩
  · exact hnot client hclient
  · have hsame := h.oneLease client e he held hmem hclient hheld
    exact hother (by rw [hsame]; exact hid.symm)

theorem exclusive_acquire (values : StoredValues) (h : s.Exclusive) (task : ShownTask)
    (messages : List StoredMessage) :
    Prog.Ensures (acquirePreparedTask values task messages) s
      (Prog.Post TaskCatalog.Exclusive fun _ => TaskCatalog.Exclusive) := by
  unfold acquirePreparedTask
  split
  · next client htask =>
    refine of_read ?_
    dsimp only [Prog.bind]
    split
    · next existing hfind =>
      obtain ⟨hlive, hlease⟩ : existing.tombstoned = false ∧ existing.leasedBy client = true := by
        simpa using List.find?_some hfind
      have hmem := List.mem_map.mp (List.mem_of_find?_eq_some hfind)
      split
      · exact .of_throw h h
      · split
        · have hheld : existing.HeldBy client := ⟨hlive, by simpa [leasedBy] using hlease⟩
          refine exclusive_replaceStale h hmem hheld ?_ ?_ htask messages
          · rfl
          · rfl
        · exact .of_pure h h
    · next hfind =>
      have hfree : ∀ e ∈ s.tasks, ¬e.task.HeldBy client := by
        intro e he hheld
        have hnone := List.find?_eq_none.mp hfind e.task (List.mem_map_of_mem he)
        simp [leasedBy, hheld.1, hheld.2] at hnone
      split
      · exact bind_post (exclusive_lease h hfree) fun _ s₁ h₁ => .of_pure h₁ h₁
      · split
        · exact .of_throw h h
        · exact bind_post (exclusive_persistNewTask h hfree htask messages)
            fun _ s₁ h₁ => .of_pure h₁ h₁
        · exact .of_throw h h
  · exact .of_throw h h

end Acquire

theorem exclusive_commitExistingTask {s : TaskCatalog} (h : s.Exclusive) (taskId : String)
    (edit : TaskEdit) :
    Prog.Ensures (commitExistingTask taskId edit) s
      (Prog.Post TaskCatalog.Exclusive fun _ => TaskCatalog.Exclusive) := by
  refine .of_read (bind_post
    (T := fun entry s' => s' = s ∧ s.load taskId = .ok entry) ?_ ?_)
  · exact .of_ofExcept (fun entry hload => ⟨rfl, hload⟩) (fun _ _ => h) h
  rintro entry s' ⟨heq, hload⟩
  rw [heq]
  obtain ⟨-, hmem, -⟩ := load_eq_ok hload
  split
  · exact .of_pure h h
  · refine .of_act (fun s' ht => ?_) (fun s₁ hp => ?_) fun e _ => .of_throw h h
    · cases (show s' = s from ht)
      exact ⟨h, fun e _ => .of_throw h h⟩
    · obtain ⟨_, heq, -⟩ | ⟨_, heq, rfl⟩ | ⟨_, heq, -⟩ := write_eq_ok hp
      · cases heq
      · cases heq
        have hs' := h.set { task := committed entry.task (edit.apply entry.task)
                            messages := edit.messages } fun client hheld e he hheld' => by
          rw [h.oneLease client e he entry hmem hheld' hheld]
          rfl
        exact .of_pure hs' hs'
      · cases heq

/-- **Every operation keeps leases exclusive**, at each of its writes and wherever it stops. -/
theorem exclusive_program {s : TaskCatalog} (h : s.Exclusive)
    (event : PoolEvent) : Prog.Ensures (event.program values) s fun _ s' => s'.Exclusive := by
  have hpost : ∀ {α : Type} {p : PoolProg α},
      Prog.Ensures p s (Prog.Post TaskCatalog.Exclusive fun _ => TaskCatalog.Exclusive) →
      Prog.Ensures p s fun _ s' => s'.Exclusive := fun hp =>
    hp.mono fun o s' ho => by cases o <;> exact ho
  cases event with
  | acquire task messages =>
    exact hpost (bind_post (exclusive_acquire values h task messages)
      fun _ s₁ h₁ => .of_pure h₁ h₁)
  | release client taskId now =>
    exact h.ensures (.bind (respects_releasePreparedTask values client taskId now) fun _ => trivial)
  | reconcile clearLeases =>
    exact h.ensures (.bind (respects_reconcilePreparedTaskPool values clearLeases) fun _ => trivial)
  | dispose matching =>
    exact h.ensures (.bind (respects_disposePreparedTasksMatching pooling_held matching)
      fun _ => trivial)
  | send client taskId turnId now rows =>
    exact h.ensures (.bind (respects_sendMessage pooling_held values client taskId turnId
      now rows) fun _ => trivial)
  | hide mode taskId => exact h.ensures (respects_hideTask pooling_held mode taskId)
  | purge taskId => exact h.ensures (respects_perform trivial)
  | create task messages =>
    exact h.ensures (.bind (respects_persistNewTask (pooling_held.not_open rfl))
      fun _ => trivial)
  | commit taskId edit => exact hpost (exclusive_commitExistingTask h taskId edit)
  | freeze taskId =>
    have hfrozen : TaskCatalog.Exclusive { s with frozen := taskId :: s.frozen } :=
      ⟨h.keyed, h.oneLease⟩
    exact .of_modify h (.of_pure hfrozen hfrozen)

/-- **Leases are exclusive in every run.** -/
theorem exclusive_run {values : StoredValues} {trace : List PoolStep} {s : TaskCatalog}
    (h : PoolRun values trace s) : s.Exclusive := by
  induction h with
  | start => exact ⟨List.nodup_nil, fun _ _ ha => nomatch ha⟩
  | step _ hrun ih => exact exclusive_program values ih _ _ _ hrun
  | reorder _ hperm ih => exact ih.perm hperm

end OpenAide

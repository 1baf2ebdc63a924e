import OpenAide.Tasks.PreparedPool

/-!
# The bound of the free pool

`release_prepared_task` and `reconcile_prepared_task_pool` both end with a sweep that keeps at most
`FREE_PREPARED_TASK_CAP` Tasks.  The sweep lists the Tasks that are reusable.  A Task that is free
without being reusable is therefore kept whatever the pool holds: one whose preferences did not
settle, and after a restart one whose Agent wants authentication.

* `Settled`: every free Task is reusable, and no two are for one Agent and workspace.
* `pooled_release`, `pooled_reconcile`: from a settled pool both operations end within the cap.
* `prepared_pool_exclusivity`: leases are exclusive in every run, and the pool is within its bound
  after every release and reconcile of a run whose steps are all orderly.
* `released_tasks_pile_up`: a run whose releases are not, with nine free Tasks at its end.
-/

namespace OpenAide

open Library
open TaskCatalog (Narrows keyed_set mem_set)
open ShownTask
open Prog (bind_eq exec exec_bind)

/-! ## Free and reusable Tasks -/

/-- A free Task with this entry can be reused. -/
structure CatalogTask.Fit (values : StoredValues) (entry : CatalogTask) : Prop where
  ready : entry.task.preparation = .ready
  preferences : entry.task.preferencesSettled values = true
  status : entry.task.status = .inactive
  turn : entry.task.activeTurnId = none
  messages : entry.messages = []

variable {entry : CatalogTask}

namespace TaskCatalog

/-- The free Tasks. -/
def free (s : TaskCatalog) : List CatalogTask := s.tasks.filter (·.task.isFree)

variable {values : StoredValues} {s s' : TaskCatalog}

theorem mem_free :
    entry ∈ s.free ↔ entry ∈ s.tasks ∧ entry.task.isFree = true := List.mem_filter

/-- At most `FREE_PREPARED_TASK_CAP` Tasks are free, and no two free ones can be reused for the
same Agent and workspace. -/
structure Pooled (values : StoredValues) (s : TaskCatalog) : Prop where
  bounded : s.free.length ≤ freePreparedTaskCap
  distinct : ∀ a ∈ s.free, ∀ b ∈ s.free, isReusablePreparedTask values s a.task →
    isReusablePreparedTask values s b.task → a.task.sameKey b.task → a = b

/-- Every free Task can be loaded and reused. -/
structure Fitting (values : StoredValues) (s : TaskCatalog) : Prop where
  keyed : s.Keyed
  available : ∀ entry ∈ s.tasks, entry.task.isFree → entry.task.taskId ∉ s.frozen
  fit : ∀ entry ∈ s.tasks, entry.task.isFree → entry.Fit values

/-- Every free Task is reusable, no two for the same Agent and workspace. -/
structure Settled (values : StoredValues) (s : TaskCatalog) : Prop extends Fitting values s where
  distinct : ∀ a ∈ s.tasks, ∀ b ∈ s.tasks, a.task.isFree → b.task.isFree →
    a.task.sameKey b.task → a = b

theorem readMessages_of_mem (hkeyed : s.Keyed) (hmem : entry ∈ s.tasks)
    (havailable : entry.task.taskId ∉ s.frozen) :
    s.readMessages entry.task.taskId = .ok entry.messages := by
  unfold readMessages
  rw [load_of_mem hkeyed hmem havailable]
  rfl

theorem isFree_of_isReusable {task : ShownTask} (h : isReusablePreparedTask values s task = true) :
    task.isFree = true := by
  simp only [isReusablePreparedTask, Bool.and_eq_true] at h
  simp only [isFree, Bool.and_eq_true]
  exact h.1.1.1.1.1

theorem isReusable_iff (hkeyed : s.Keyed) (hmem : entry ∈ s.tasks)
    (havailable : entry.task.taskId ∉ s.frozen) :
    isReusablePreparedTask values s entry.task = true ↔
      entry.task.isFree = true ∧ entry.Fit values := by
  unfold isReusablePreparedTask isFree
  rw [readMessages_of_mem hkeyed hmem havailable]
  simp only [Bool.and_eq_true, Bool.not_eq_true', decide_eq_true_eq, Option.isNone_iff_eq_none,
    List.isEmpty_iff]
  constructor
  · rintro ⟨⟨⟨⟨⟨⟨hlive, hfree⟩, hready⟩, hsettled⟩, hstatus⟩, hturn⟩, hmessages⟩
    exact ⟨⟨hlive, hfree⟩, hready, hsettled, hstatus, hturn, hmessages⟩
  · rintro ⟨⟨hlive, hfree⟩, hready, hsettled, hstatus, hturn, hmessages⟩
    exact ⟨⟨⟨⟨⟨⟨hlive, hfree⟩, hready⟩, hsettled⟩, hstatus⟩, hturn⟩, hmessages⟩

theorem Settled.pooled (h : s.Settled values) (hbounded : s.free.length ≤ freePreparedTaskCap) :
    s.Pooled values where
  bounded := hbounded
  distinct a ha b hb _ _ hkey :=
    h.distinct a (mem_free.mp ha).1 b (mem_free.mp hb).1 (mem_free.mp ha).2 (mem_free.mp hb).2 hkey

theorem Fitting.mem_reusableTasks (h : s.Fitting values) (hmem : entry ∈ s.tasks)
    (hfree : entry.task.isFree) : entry.task ∈ reusableTasks values s :=
  List.mem_filter.mpr ⟨List.mem_map_of_mem hmem,
    (isReusable_iff h.keyed hmem (h.available entry hmem hfree)).mpr
      ⟨hfree, h.fit entry hmem hfree⟩⟩

theorem Fitting.narrows (h : s.Fitting values) (hn : Narrows (·.isFree = true) s s') :
    s'.Fitting values where
  keyed := hn.keyed h.keyed
  available entry hmem hfree := hn.frozen ▸ h.available entry (hn.entries entry hmem hfree) hfree
  fit entry hmem hfree := h.fit entry (hn.entries entry hmem hfree) hfree

theorem Settled.narrows (h : s.Settled values) (hn : Narrows (·.isFree = true) s s') :
    s'.Settled values where
  toFitting := h.toFitting.narrows hn
  distinct a ha b hb hfree hfree' :=
    h.distinct a (hn.entries a ha hfree) b (hn.entries b hb hfree') hfree hfree'

theorem nodup_free (hkeyed : s.Keyed) : (s.free.map (·.task)).Nodup := by
  refine List.Nodup.of_map (·.taskId) ?_
  rw [List.map_map]
  exact hkeyed.sublist (List.filter_sublist.map _)

theorem length_free_le (hkeyed : s.Keyed) (kept : List ShownTask)
    (h : ∀ entry ∈ s.tasks, entry.task.isFree → entry.task ∈ kept) :
    s.free.length ≤ kept.length := by
  have hsubset : s.free.map (·.task) ⊆ kept := by
    intro task htask
    obtain ⟨entry, hentry, rfl⟩ := List.mem_map.mp htask
    exact h entry (mem_free.mp hentry).1 (mem_free.mp hentry).2
  simpa using (List.subperm_of_subset (nodup_free hkeyed) hsubset).length_le

theorem length_free_narrows (hkeyed : s.Keyed) (hn : Narrows (·.isFree = true) s s') :
    s'.free.length ≤ s.free.length := by
  have h := length_free_le (hn.keyed hkeyed) (s.free.map (·.task)) fun entry hmem hfree =>
    List.mem_map_of_mem (mem_free.mpr ⟨hn.entries entry hmem hfree, hfree⟩)
  simpa using h

end TaskCatalog

theorem ShownTask.isFree_iff {task : ShownTask} :
    task.isFree = true ↔ task.tombstoned = false ∧ task.lifecycle = .prepared none := by
  simp only [isFree, Bool.and_eq_true, Bool.not_eq_true', decide_eq_true_eq]

theorem ShownTask.pooling_free : Pooling (·.isFree = true) := by
  intro task h
  obtain ⟨hlive, hfree⟩ := isFree_iff.mp h
  exact ⟨hlive, none, hfree⟩

/-! ## Writes without faults -/

section Exec

variable {values : StoredValues} {s : TaskCatalog}

theorem exec_persistChangedTask (hkeyed : s.Keyed) (original task : ShownTask)
    (hmem : entry ∈ s.tasks) (hid : entry.task.taskId = task.taskId)
    (havailable : task.taskId ∉ s.frozen) :
    exec (persistChangedTask original task) s =
      (.ok (committed original task), s.set { entry with task := committed original task }) := by
  have hload : s.load task.taskId = .ok entry :=
    hid ▸ TaskCatalog.load_of_mem hkeyed hmem (hid ▸ havailable)
  have hwrite : s.write (.replace { entry with task := committed original task }) =
      .ok (s.set { entry with task := committed original task }) := by
    have hload' : s.load (committed original task).taskId = .ok entry := hload
    simp only [TaskCatalog.write, hload', bind, Except.bind]
  unfold persistChangedTask
  simp only [bind_eq, exec_bind, Prog.exec_get, hload, Prog.ofExcept, Prog.perform,
    exec, Device.perform, hwrite, Prog.pure_eq]

theorem exec_evictEach (tasks : List ShownTask) (hkeyed : s.Keyed)
    (htasks : ∀ task ∈ tasks, task.taskId ∈ s.taskIds ∧ task.taskId ∉ s.frozen) :
    ∃ evicted s', exec (evictEach tasks) s = (.ok evicted, s') ∧
      Narrows (·.isFree = true) s s' ∧
      ∀ entry ∈ s'.tasks, entry.task.isFree → entry.task.taskId ∉ tasks.map (·.taskId) := by
  induction tasks generalizing s with
  | nil => exact ⟨[], s, rfl, .refl s, by simp⟩
  | cons task rest ih =>
    obtain ⟨hlisted, havailable⟩ := htasks task List.mem_cons_self
    obtain ⟨entry, hmem, hid⟩ := List.mem_map.mp hlisted
    have hexec := exec_persistChangedTask hkeyed task task.tombstone hmem hid havailable
    generalize hset : s.set { entry with task := committed task task.tombstone } = s₁ at hexec
    have hn : Narrows (·.isFree = true) s s₁ := by
      refine hset ▸ ⟨fun h => keyed_set h _, rfl, fun e he hfree => ?_⟩
      rcases mem_set he with rfl | ⟨he, -⟩
      · exact absurd hfree (pooling_free.not_tombstoned rfl)
      · exact he
    have hids : s₁.taskIds = s.taskIds := hset ▸ TaskCatalog.taskIds_set s _
    obtain ⟨evicted, s₂, hrest, hn', hgone⟩ := ih (hn.keyed hkeyed)
      fun t ht => hids ▸ hn.frozen ▸ htasks t (List.mem_cons_of_mem _ ht)
    refine ⟨committed task task.tombstone :: evicted, s₂, ?_, hn.trans hn', fun e he hfree => ?_⟩
    · simp only [evictEach, bind_eq, exec_bind, hexec, hrest, Prog.pure_eq,
        Prog.exec_pure]
    · rw [List.map_cons, List.mem_cons, not_or]
      refine ⟨fun hsame => ?_, hgone e he hfree⟩
      -- a free entry under the evicted id would be the tombstoned one
      have he₁ := hn'.entries e he hfree
      rw [← hset] at he₁
      rcases mem_set he₁ with rfl | ⟨-, hother⟩
      · exact pooling_free.not_tombstoned rfl hfree
      · exact hother hsame

end Exec

/-! ## The second loop of a reconcile -/

local instance lawfulBEqKey : LawfulBEq (String × String) := inferInstance

/-- The Tasks `keepFree` keeps. -/
def keptFree (keptKeys : List (String × String)) (keptCount : Nat) : List ShownTask → List ShownTask
  | [] => []
  | candidate :: rest =>
    if keptCount < freePreparedTaskCap ∧
      (candidate.agentId, candidate.workspaceRoot) ∉ keptKeys then
      candidate :: keptFree ((candidate.agentId, candidate.workspaceRoot) :: keptKeys)
        (keptCount + 1) rest
    else keptFree keptKeys keptCount rest

/-- The Tasks it evicts. -/
def surplusFree (keptKeys : List (String × String)) (keptCount : Nat) :
    List ShownTask → List ShownTask
  | [] => []
  | candidate :: rest =>
    if keptCount < freePreparedTaskCap ∧
      (candidate.agentId, candidate.workspaceRoot) ∉ keptKeys then
      surplusFree ((candidate.agentId, candidate.workspaceRoot) :: keptKeys) (keptCount + 1) rest
    else candidate :: surplusFree keptKeys keptCount rest

section Kept

variable (keys : List (String × String)) (count : Nat) (tasks : List ShownTask)

theorem keepFree_eq : keepFree keys count tasks = evictEach (surplusFree keys count tasks) := by
  induction tasks generalizing keys count with
  | nil => rfl
  | cons task rest ih =>
    unfold keepFree surplusFree
    dsimp only
    split
    · exact ih _ _
    · simp only [ih, evictEach]

theorem surplusFree_subset : surplusFree keys count tasks ⊆ tasks := by
  induction tasks generalizing keys count with
  | nil => exact List.Subset.refl _
  | cons task rest ih =>
    unfold surplusFree
    split
    · exact List.subset_cons_of_subset _ (ih _ _)
    · exact List.cons_subset_cons _ (ih _ _)

theorem mem_keptFree_or_surplusFree {task : ShownTask} (h : task ∈ tasks) :
    task ∈ keptFree keys count tasks ∨ task ∈ surplusFree keys count tasks := by
  induction tasks generalizing keys count with
  | nil => cases h
  | cons candidate rest ih =>
    unfold keptFree surplusFree
    rcases List.mem_cons.mp h with rfl | h
    · split
      · exact .inl List.mem_cons_self
      · exact .inr List.mem_cons_self
    · split
      · exact (ih _ _ h).imp_left (List.mem_cons_of_mem _)
      · exact (ih _ _ h).imp_right (List.mem_cons_of_mem _)

theorem length_keptFree (hcount : count ≤ freePreparedTaskCap) :
    (keptFree keys count tasks).length + count ≤ freePreparedTaskCap := by
  induction tasks generalizing keys count with
  | nil => simpa [keptFree] using hcount
  | cons task rest ih =>
    unfold keptFree
    split
    · next hkeep =>
      have h := ih ((task.agentId, task.workspaceRoot) :: keys) (count + 1) hkeep.1
      simp only [List.length_cons]
      omega
    · exact ih _ _ hcount

theorem nodup_keptFree :
    ((keptFree keys count tasks).map fun task => (task.agentId, task.workspaceRoot)).Nodup ∧
      ∀ task ∈ keptFree keys count tasks, (task.agentId, task.workspaceRoot) ∉ keys := by
  induction tasks generalizing keys count with
  | nil => simp [keptFree]
  | cons candidate rest ih =>
    unfold keptFree
    split
    · next hkeep =>
      obtain ⟨hnodup, hfresh⟩ :=
        ih ((candidate.agentId, candidate.workspaceRoot) :: keys) (count + 1)
      refine ⟨?_, fun task htask => ?_⟩
      · rw [List.map_cons, List.nodup_cons]
        refine ⟨fun hmem => ?_, hnodup⟩
        obtain ⟨task, htask, hkey⟩ := List.mem_map.mp hmem
        exact hfresh task htask (hkey ▸ List.mem_cons_self)
      · rcases List.mem_cons.mp htask with rfl | htask
        · exact hkeep.2
        · exact fun hmem => hfresh task htask (List.mem_cons_of_mem _ hmem)
    · exact ih _ _

end Kept

/-! ## The sweeps -/

section Sweeps

variable {values : StoredValues} {s : TaskCatalog}

theorem exec_sweep (h : s.Fitting values) (kept surplus : List ShownTask)
    (hsurplus : surplus ⊆ reusableTasks values s)
    (hsplit : ∀ task ∈ reusableTasks values s, task ∈ kept ∨ task ∈ surplus) :
    ∃ evicted s', exec (evictEach surplus) s = (.ok evicted, s') ∧
      Narrows (·.isFree = true) s s' ∧ ∀ entry ∈ s'.tasks, entry.task.isFree →
      entry.task ∈ kept := by
  have hids : ∀ task ∈ surplus, task.taskId ∈ s.taskIds ∧ task.taskId ∉ s.frozen := by
    intro task htask
    obtain ⟨hlisted, hreusable⟩ := List.mem_filter.mp (hsurplus htask)
    obtain ⟨entry, hentry, rfl⟩ := List.mem_map.mp hlisted
    exact ⟨List.mem_map_of_mem hentry,
      h.available entry hentry (TaskCatalog.isFree_of_isReusable hreusable)⟩
  obtain ⟨evicted, s', hexec, hn, hgone⟩ := exec_evictEach surplus h.keyed hids
  refine ⟨evicted, s', hexec, hn, fun entry hentry hfree => ?_⟩
  have hlisted := h.mem_reusableTasks (hn.entries entry hentry hfree) hfree
  rcases hsplit entry.task hlisted with hkept | hgo
  · exact hkept
  · exact absurd (List.mem_map_of_mem hgo) (hgone entry hentry hfree)

/-- The sweep of a release. -/
theorem exec_evictOverflow (h : s.Fitting values) :
    ∃ evicted s', exec (evictOverflow values) s = (.ok evicted, s') ∧
      Narrows (·.isFree = true) s s' ∧ s'.free.length ≤ freePreparedTaskCap := by
  generalize hfree : (reusableTasks values s).insertionSort olderFirst = sorted
  have hperm : sorted.Perm (reusableTasks values s) := hfree ▸ List.perm_insertionSort _ _
  obtain ⟨evicted, s', hexec, hn, hkept⟩ := exec_sweep h
    (sorted.drop (sorted.length - freePreparedTaskCap))
    (sorted.take (sorted.length - freePreparedTaskCap))
    (fun task htask => hperm.subset (List.mem_of_mem_take htask)) fun task htask => by
      have hmem := hperm.symm.subset htask
      rw [← List.take_append_drop (sorted.length - freePreparedTaskCap) sorted] at hmem
      exact (List.mem_append.mp hmem).symm
  refine ⟨evicted, s', ?_, hn, ?_⟩
  · simp only [evictOverflow, bind_eq, exec_bind, Prog.exec_get, hfree, hexec]
  · have hlength := TaskCatalog.length_free_le (hn.keyed h.keyed) _ hkept
    rw [List.length_drop] at hlength
    omega

theorem exec_keepFree (h : s.Fitting values) :
    ∃ evicted s', exec (keepFree [] 0 ((reusableTasks values s).insertionSort newerFirst)) s =
        (.ok evicted, s') ∧ s'.Settled values ∧ s'.free.length ≤ freePreparedTaskCap := by
  generalize hfree : (reusableTasks values s).insertionSort newerFirst = sorted
  have hperm : sorted.Perm (reusableTasks values s) := hfree ▸ List.perm_insertionSort _ _
  obtain ⟨evicted, s', hexec, hn, hkept⟩ := exec_sweep h
    (keptFree [] 0 sorted) (surplusFree [] 0 sorted)
    (fun task htask => hperm.subset (surplusFree_subset [] 0 sorted htask)) fun task htask =>
      mem_keptFree_or_surplusFree [] 0 sorted (hperm.symm.subset htask)
  have hkeyed := hn.keyed h.keyed
  refine ⟨evicted, s', keepFree_eq [] 0 sorted ▸ hexec, ⟨h.narrows hn, ?_⟩, ?_⟩
  · intro a ha b hb hfreea hfreeb hkey
    simp only [sameKey, Bool.and_eq_true, decide_eq_true_eq] at hkey
    have hsame : a.task = b.task := List.inj_on_of_nodup_map (nodup_keptFree [] 0 sorted).1
      (hkept a ha hfreea) (hkept b hb hfreeb) (Prod.ext hkey.1 hkey.2)
    exact List.inj_on_of_nodup_map hkeyed ha hb (congrArg (·.taskId) hsame)
  · have hlength := TaskCatalog.length_free_le hkeyed _ hkept
    have hcap := length_keptFree [] 0 sorted (Nat.zero_le _)
    omega

end Sweeps

/-! ## Releases -/

section Release

variable {values : StoredValues} {s : TaskCatalog}

/-- Nothing was done with the Task yet. -/
def CatalogTask.idle (entry : CatalogTask) : Bool :=
  entry.task.status = .inactive && entry.task.activeTurnId.isNone && entry.messages.isEmpty

theorem notEmptyOrIdle_of_mem (hkeyed : s.Keyed) (hmem : entry ∈ s.tasks)
    (havailable : entry.task.taskId ∉ s.frozen) :
    notEmptyOrIdle s entry.task = .ok (!entry.idle) := by
  unfold notEmptyOrIdle CatalogTask.idle
  rw [TaskCatalog.readMessages_of_mem hkeyed hmem havailable]
  split
  · next h =>
    rcases h with h | h
    · simp [h]
    · cases hturn : entry.task.activeTurnId with
      | none => simp [hturn] at h
      | some turn => simp
  · next h =>
    rw [not_or, not_not, Bool.not_eq_true, Option.isSome_eq_false_iff] at h
    simp [h.1, h.2]

theorem fit_released (h : s.Settled values) (hidle : entry.idle = true) (now : String)
    (hpreferences : entry.task.tombstoned = false → entry.task.preparation = .ready →
      entry.task.preferencesSettled values = true)
    (hfree : (releasedRecord values s now entry.task).isFree = true) :
    CatalogTask.Fit values
        { entry with task := committed entry.task (releasedRecord values s now entry.task) } ∧
      ∀ other ∈ s.tasks, other.task.taskId ≠ entry.task.taskId → other.task.isFree = true →
        other.task.sameKey entry.task = false := by
  have hlive := (isFree_iff.mp hfree).1
  simp only [releasedRecord, Bool.or_eq_false_iff, decide_eq_false_iff_not, not_not,
    List.any_eq_false] at hlive
  obtain ⟨⟨hkept, hready⟩, hnone⟩ := hlive
  simp only [CatalogTask.idle, Bool.and_eq_true, decide_eq_true_eq, Option.isNone_iff_eq_none,
    List.isEmpty_iff] at hidle
  refine ⟨⟨hready, hpreferences hkept hready, hidle.1.1, hidle.1.2, hidle.2⟩, ?_⟩
  intro other hother hid hotherFree
  have hreusable := (TaskCatalog.isReusable_iff h.keyed hother
    (h.available other hother hotherFree)).mpr ⟨hotherFree, h.fit other hother hotherFree⟩
  have hcandidate := hnone other.task (List.mem_map_of_mem hother)
  simpa [hid, hreusable, sameKey] using hcandidate

theorem settled_released (h : s.Settled values) (havailable : entry.task.taskId ∉ s.frozen)
    (hidle : entry.idle = true) (now : String)
    (hpreferences : entry.task.tombstoned = false → entry.task.preparation = .ready →
      entry.task.preferencesSettled values = true) :
    (s.set { entry with
      task := committed entry.task (releasedRecord values s now entry.task) }).Settled values := by
  generalize hreleased : ({ entry with
    task := committed entry.task (releasedRecord values s now entry.task) } : CatalogTask) =
      released
  have hid : released.task.taskId = entry.task.taskId := hreleased ▸ rfl
  have hkey : ∀ other : ShownTask, other.sameKey released.task = other.sameKey entry.task :=
    fun other => hreleased ▸ rfl
  have hfit : released.task.isFree = true → released.Fit values ∧
      ∀ other ∈ s.tasks, other.task.taskId ≠ released.task.taskId → other.task.isFree = true →
        other.task.sameKey released.task = false := by
    intro hfree
    rw [hid]
    simp only [hkey]
    subst hreleased
    exact fit_released h hidle now hpreferences hfree
  refine ⟨⟨keyed_set h.keyed released, fun e he hfree => ?_, fun e he hfree => ?_⟩, ?_⟩
  · rcases mem_set he with rfl | ⟨he, -⟩
    · exact hid ▸ havailable
    · exact h.available e he hfree
  · rcases mem_set he with rfl | ⟨he, -⟩
    · exact (hfit hfree).1
    · exact h.fit e he hfree
  · intro a ha b hb hfreea hfreeb hsame
    rcases mem_set ha with rfl | ⟨ha, hida⟩
    · rcases mem_set hb with rfl | ⟨hb, hidb⟩
      · rfl
      · have hother := (hfit hfreea).2 b hb hidb hfreeb
        simp only [sameKey, Bool.and_eq_true, decide_eq_true_eq] at hsame
        simp [sameKey, hsame.1, hsame.2] at hother
    · rcases mem_set hb with rfl | ⟨hb, -⟩
      · have hother := (hfit hfreeb).2 a ‹a ∈ s.tasks› hida hfreea
        exact absurd hsame (by simp [hother])
      · exact h.distinct a ha b hb hfreea hfreeb hsame

/-- **A release from a settled pool ends in a settled pool within the cap**, if the released Task's
preferences settled when its preparation did. -/
theorem pooled_release (h : s.Settled values) (hbounded : s.free.length ≤ freePreparedTaskCap)
    (client taskId now : String)
    (hfits : ∀ entry ∈ s.tasks, entry.task.taskId = taskId → entry.task.leasedBy client = true →
      entry.task.tombstoned = false → entry.task.preparation = .ready →
      entry.task.preferencesSettled values = true) :
    (exec (releasePreparedTask values client taskId now) s).2.Settled values ∧
      (exec (releasePreparedTask values client taskId now) s).2.free.length ≤
        freePreparedTaskCap := by
  unfold releasePreparedTask
  simp only [bind_eq, exec_bind, Prog.exec_get]
  split
  · exact ⟨h, hbounded⟩
  · exact ⟨h, hbounded⟩
  · next task hread =>
    obtain ⟨entry, hload, rfl⟩ : ∃ entry, s.load taskId = .ok entry ∧ entry.task = task := by
      unfold TaskCatalog.readTask at hread
      cases hload : s.load taskId with
      | error e => simp [hload] at hread
      | ok entry => exact ⟨entry, rfl, by simpa [hload] using hread⟩
    obtain ⟨hloaded, hmem, hid⟩ := TaskCatalog.load_eq_ok hload
    rw [← hid] at hloaded
    split
    · exact ⟨h, hbounded⟩
    · next hleased =>
      rw [notEmptyOrIdle_of_mem h.keyed hmem hloaded]
      cases hidle : entry.idle with
      | false => exact ⟨h, hbounded⟩
      | true =>
        have hsettled := settled_released h hloaded hidle now
          (hfits entry hmem hid (by simpa using hleased))
        have hwrite := exec_persistChangedTask h.keyed entry.task
          (releasedRecord values s now entry.task) hmem rfl hloaded
        obtain ⟨evicted, s', hexec, hn, hcap⟩ := exec_evictOverflow hsettled.toFitting
        simp only [Prog.ofExcept, Prog.exec_pure, Bool.not_true, Bool.false_eq_true, if_false,
          exec_bind, hwrite, hexec, Prog.pure_eq]
        exact ⟨hsettled.narrows hn, hcap⟩

end Release

/-! ## Reconciling -/

/-- A reconcile frees the Task or leaves it free. -/
def ShownTask.freedBy (clearLeases : Bool) (task : ShownTask) : Bool :=
  !task.tombstoned && match task.lifecycle with
    | .prepared lease => lease.isNone || clearLeases
    | _ => false

/-- A Task that a reconcile frees, or leaves free, can be reused: it is not still being prepared,
its Agent does not wait for authentication or setup, and its preferences settled. -/
def CatalogTask.FreesFit (values : StoredValues) (clearLeases : Bool) (entry : CatalogTask) :
    Prop :=
  entry.task.freedBy clearLeases = true → entry.idle = true →
    entry.task.preparation.isFailed = false →
    entry.task.preparation = .ready ∧ entry.task.preferencesSettled values = true

/-- What keeps a pool settled: a Task that is released or freed can be reused, prepared Tasks load,
no other commit makes a free Task unfit, and no free Task is frozen. -/
def PoolEvent.Fits (values : StoredValues) (s : TaskCatalog) : PoolEvent → Prop
  | release client taskId _ => ∀ entry ∈ s.tasks, entry.task.taskId = taskId →
      entry.task.leasedBy client = true → entry.task.tombstoned = false →
      entry.task.preparation = .ready → entry.task.preferencesSettled values = true
  | reconcile clearLeases => ∀ entry ∈ s.tasks, entry.FreesFit values clearLeases ∧
      (entry.task.freedBy true = true → entry.task.taskId ∉ s.frozen)
  | commit taskId edit => ∀ entry ∈ s.tasks, entry.task.taskId = taskId →
      entry.task.isFree = true →
      CatalogTask.Fit values { task := edit.apply entry.task, messages := edit.messages }
  | freeze taskId => ∀ entry ∈ s.tasks, entry.task.taskId = taskId → ¬entry.task.isFree = true
  | _ => True

section Reconcile

variable {values : StoredValues} {s : TaskCatalog}

theorem TaskCatalog.set_self (hkeyed : s.Keyed) (hmem : entry ∈ s.tasks) : s.set entry = s := by
  have htasks : s.tasks.map (fun e => if e.task.taskId = entry.task.taskId then entry else e) =
      s.tasks := by
    refine (List.map_congr_left fun e he => ?_).trans (List.map_id' _)
    split
    · next hid => exact (List.inj_on_of_nodup_map hkeyed he hmem hid).symm
    · rfl
  unfold TaskCatalog.set
  rw [htasks]

theorem TaskCatalog.mem_set_of_ne {e : CatalogTask} (he : e ∈ s.tasks)
    (hid : e.task.taskId ≠ entry.task.taskId) : e ∈ (s.set entry).tasks :=
  List.mem_map.mpr ⟨e, he, if_neg hid⟩

theorem fit_reconciled {clearLeases : Bool} {lease : Option String}
    (hlease : entry.task.lifecycle = .prepared lease) (hfits : entry.FreesFit values clearLeases)
    (hfree : (reconciled clearLeases (!entry.idle) lease entry.task).isFree = true) :
    entry.Fit values := by
  obtain ⟨hlive, hlifecycle⟩ := isFree_iff.mp hfree
  simp only [reconciled, Bool.or_eq_false_iff, Bool.not_eq_false'] at hlive hlifecycle
  obtain ⟨⟨hlive, hidle⟩, hfailed⟩ := hlive
  have hreleased : (lease.isNone || clearLeases) = true := by
    cases clearLeases with
    | true => simp
    | false =>
      rw [if_neg (by simp), hlease] at hlifecycle
      cases hlifecycle
      rfl
  have hfreed : entry.task.freedBy clearLeases = true := by
    simp only [freedBy, hlive, hlease, Bool.not_false, Bool.true_and]
    exact hreleased
  obtain ⟨hready, hsettled⟩ := hfits hfreed hidle (by simpa [hreleased] using hfailed)
  simp only [CatalogTask.idle, Bool.and_eq_true, decide_eq_true_eq, Option.isNone_iff_eq_none,
    List.isEmpty_iff] at hidle
  exact ⟨hready, hsettled, hidle.1.1, hidle.1.2, hidle.2⟩

theorem exec_reconcileTask (hkeyed : s.Keyed) (hmem : entry ∈ s.tasks)
    (havailable : entry.task.freedBy true = true → entry.task.taskId ∉ s.frozen)
    (clearLeases : Bool) (hfits : entry.FreesFit values clearLeases) :
    ∃ disposed next, exec (reconcileTask clearLeases entry.task) s =
        (.ok disposed, s.set next) ∧
      next.task.taskId = entry.task.taskId ∧
      (next.task.isFree = true → next.Fit values ∧ next.task.taskId ∉ s.frozen) := by
  have hself := TaskCatalog.set_self hkeyed hmem
  unfold reconcileTask
  split
  · next lease hlease =>
    split
    · next htombstoned =>
      refine ⟨none, entry, by rw [hself]; rfl, rfl, fun hfree => ?_⟩
      exact absurd hfree (pooling_free.not_tombstoned htombstoned)
    · next hlive =>
      have hloads := havailable (by simp [freedBy, hlive, hlease])
      simp only [bind_eq, exec_bind, Prog.exec_get,
        notEmptyOrIdle_of_mem hkeyed hmem hloads, Prog.ofExcept, Prog.exec_pure]
      split
      · next hsame =>
        refine ⟨none, entry, by rw [hself]; rfl, rfl, fun hfree => ?_⟩
        refine ⟨fit_reconciled hlease hfits ?_, hloads⟩
        rw [isFree_iff, hsame.1, hsame.2]
        exact isFree_iff.mp hfree
      · rw [exec_bind, exec_persistChangedTask hkeyed entry.task
          (reconciled clearLeases (!entry.idle) lease entry.task) hmem rfl hloads]
        refine ⟨_, _, rfl, rfl, fun hfree => ?_⟩
        obtain ⟨hready, hsettled, hstatus, hturn, hmessages⟩ := fit_reconciled hlease hfits hfree
        exact ⟨⟨hready, hsettled, hstatus, hturn, hmessages⟩, hloads⟩
  · next hother =>
    refine ⟨none, entry, by rw [hself]; rfl, rfl, fun hfree => ?_⟩
    obtain ⟨-, lease, hlease⟩ := pooling_free _ hfree
    exact absurd hlease (hother lease)

theorem exec_reconcileEach (clearLeases : Bool) (entries : List CatalogTask) (hkeyed : s.Keyed)
    (hsub : entries ⊆ s.tasks) (hnodup : (entries.map (·.task.taskId)).Nodup)
    (havailable : ∀ entry ∈ entries, entry.task.freedBy true = true → entry.task.taskId ∉ s.frozen)
    (hfits : ∀ entry ∈ entries, entry.FreesFit values clearLeases) :
    ∃ disposed s', exec (collectDisposed (reconcileTask clearLeases) (entries.map (·.task)))
    s = (.ok disposed, s') ∧ s'.taskIds = s.taskIds ∧ s'.frozen = s.frozen ∧
      ∀ e ∈ s'.tasks, (e.task.taskId ∈ entries.map (·.task.taskId) → e.task.isFree = true →
          e.Fit values ∧ e.task.taskId ∉ s.frozen) ∧
        (e.task.taskId ∉ entries.map (·.task.taskId) → e ∈ s.tasks) := by
  induction entries generalizing s with
  | nil => exact ⟨[], s, rfl, rfl, rfl, fun e he => ⟨nofun, fun _ => he⟩⟩
  | cons entry rest ih =>
    rw [List.map_cons, List.nodup_cons] at hnodup
    obtain ⟨disposed, next, hexec, hid, hfit⟩ := exec_reconcileTask hkeyed
      (hsub List.mem_cons_self) (havailable entry List.mem_cons_self) clearLeases
      (hfits entry List.mem_cons_self)
    have hrest : rest ⊆ (s.set next).tasks := fun e he =>
      TaskCatalog.mem_set_of_ne (hsub (List.mem_cons_of_mem _ he)) fun hsame =>
        hnodup.1 (hid ▸ hsame ▸ List.mem_map_of_mem he)
    obtain ⟨disposed', s', hexec', hids, hfrozen, hs'⟩ := ih (keyed_set hkeyed next)
      hrest hnodup.2 (fun e he => havailable e (List.mem_cons_of_mem _ he))
      fun e he => hfits e (List.mem_cons_of_mem _ he)
    refine ⟨disposed.toList ++ disposed', s', ?_, hids.trans (TaskCatalog.taskIds_set s next),
      hfrozen, fun e he => ?_⟩
    · simp only [List.map_cons, collectDisposed, bind_eq, exec_bind, hexec, hexec',
        Prog.pure_eq, Prog.exec_pure]
    · obtain ⟨hdone, hkept⟩ := hs' e he
      by_cases hmem : e.task.taskId ∈ rest.map (·.task.taskId)
      · exact ⟨fun _ => hdone hmem, fun hnot => absurd (List.mem_cons_of_mem _ hmem) hnot⟩
      · rcases mem_set (hkept hmem) with rfl | ⟨he, hne⟩
        · exact ⟨fun _ => hfit, fun hnot => absurd (hid ▸ List.mem_cons_self) hnot⟩
        · refine ⟨fun hin => ?_, fun _ => he⟩
          rcases List.mem_cons.mp hin with hsame | hin
          · exact absurd (hsame.trans hid.symm) hne
          · exact absurd hin hmem

/-- **A reconcile ends in a settled pool within the cap**, if what it frees can be reused. -/
theorem pooled_reconcile (hkeyed : s.Keyed) (clearLeases : Bool)
    (hfits : (PoolEvent.reconcile clearLeases).Fits values s) :
    (exec (reconcilePreparedTaskPool values clearLeases) s).2.Settled values ∧
      (exec (reconcilePreparedTaskPool values clearLeases) s).2.free.length ≤
        freePreparedTaskCap := by
  obtain ⟨disposed, s₁, hexec, hids, hfrozen, hs₁⟩ := exec_reconcileEach clearLeases s.tasks hkeyed
    (List.Subset.refl _) hkeyed (fun e he => (hfits e he).2) fun e he => (hfits e he).1
  have hfree : ∀ e ∈ s₁.tasks, e.task.isFree → e.Fit values ∧ e.task.taskId ∉ s.frozen := by
    intro e he
    have hid : e.task.taskId ∈ s.taskIds := hids ▸ List.mem_map_of_mem he
    exact (hs₁ e he).1 hid
  have hfitting : s₁.Fitting values :=
    ⟨show s₁.taskIds.Nodup from hids ▸ hkeyed, fun e he h => hfrozen ▸ (hfree e he h).2,
      fun e he h => (hfree e he h).1⟩
  obtain ⟨evicted, s₂, hexec', hsettled, hcap⟩ := exec_keepFree hfitting
  have hlist : s.listAllTaskRecords = s.tasks.map (·.task) := rfl
  simp only [reconcilePreparedTaskPool, bind_eq, exec_bind, Prog.exec_get, hlist, hexec,
    hexec', Prog.pure_eq, Prog.exec_pure]
  exact ⟨hsettled, hcap⟩

end Reconcile

/-! ## Acquiring -/

theorem respects_acquirePreparedTask (values : StoredValues) (task : ShownTask)
    (messages : List StoredMessage) :
    Prog.Respects (Narrows (·.isFree = true)) (acquirePreparedTask values task messages) := by
  have hleased : ∀ {record : ShownTask} {client : String},
      record.lifecycle = .prepared (some client) → ¬record.isFree = true := by
    intro record client hlease hfree
    rw [isFree_iff, hlease] at hfree
    cases hfree.2
  unfold acquirePreparedTask
  split
  · next client htask =>
    refine .get_bind fun s => ?_
    have hnew : Prog.Respects (Narrows (·.isFree = true)) (persistNewTask task messages) :=
      respects_persistNewTask (hleased htask)
    split
    · split
      · trivial
      · split
        · refine .bind (respects_persistChangedTask (pooling_free.not_tombstoned rfl))
            fun _ => .bind hnew fun _ => trivial
        · trivial
    · split
      · exact .bind (respects_persistChangedTask (hleased rfl)) fun _ => trivial
      · split
        · trivial
        · exact .bind hnew fun _ => trivial
        · trivial
  · trivial

/-! ## Orderly runs -/

/-- The operation fits, and no write of it fails. -/
structure PoolStep.Orderly (values : StoredValues) (step : PoolStep) : Prop where
  fits : step.event.Fits values step.before
  completes : step.after = (exec (step.event.program values) step.before).2

/-- The operations that sweep the pool. -/
def PoolEvent.sweeps : PoolEvent → Bool
  | release _ _ _ | reconcile _ => true
  | _ => false

section Orderly

variable {values : StoredValues} {s : TaskCatalog}

theorem exec_narrows {α : Type} {p : PoolProg α}
    (hp : Prog.Respects (Narrows (·.isFree = true)) p) :
    Narrows (·.isFree = true) s (exec p s).2 :=
  hp.ensures .refl .trans s _ _ (Prog.exec_run p s)

theorem exec_discard {α : Type} (p : PoolProg α) :
    (exec (do let _ ← p : PoolProg Unit) s).2 = (exec p s).2 := by
  simp only [bind_eq, exec_bind]
  split
  · next h => rw [h]; rfl
  · next h => rw [h]
  · next h => rw [h]

theorem settled_set (h : s.Settled values) {next : CatalogTask} (hmem : entry ∈ s.tasks)
    (hid : next.task.taskId = entry.task.taskId) (hsame : next.task.isFree = entry.task.isFree)
    (hagent : next.task.agentId = entry.task.agentId)
    (hworkspace : next.task.workspaceRoot = entry.task.workspaceRoot)
    (hfit : next.task.isFree = true → next.Fit values) :
    (s.set next).Settled values ∧ (s.set next).free.length = s.free.length := by
  -- every entry keeps what the pool looks at
  have hkept : ∀ e ∈ s.tasks,
      let e' := if e.task.taskId = next.task.taskId then next else e
      e'.task.isFree = e.task.isFree ∧ e'.task.agentId = e.task.agentId ∧
        e'.task.workspaceRoot = e.task.workspaceRoot := by
    intro e he
    dsimp only
    split
    · next heq =>
      cases List.inj_on_of_nodup_map h.keyed he hmem (heq.trans hid)
      exact ⟨hsame, hagent, hworkspace⟩
    · exact ⟨rfl, rfl, rfl⟩
  refine ⟨⟨⟨keyed_set h.keyed next, fun e he hfree => ?_, fun e he hfree => ?_⟩, ?_⟩,
    ?_⟩
  · rcases mem_set he with rfl | ⟨he, -⟩
    · exact hid ▸ h.available entry hmem (hsame ▸ hfree)
    · exact h.available e he hfree
  · rcases mem_set he with rfl | ⟨he, -⟩
    · exact hfit hfree
    · exact h.fit e he hfree
  · intro a ha b hb hfreea hfreeb hkey
    obtain ⟨a₀, ha₀, rfl⟩ := List.mem_map.mp ha
    obtain ⟨b₀, hb₀, rfl⟩ := List.mem_map.mp hb
    obtain ⟨hfa, haa, hwa⟩ := hkept a₀ ha₀
    obtain ⟨hfb, hab, hwb⟩ := hkept b₀ hb₀
    unfold sameKey at hkey
    rw [haa, hwa, hab, hwb] at hkey
    rw [h.distinct a₀ ha₀ b₀ hb₀ (hfa ▸ hfreea) (hfb ▸ hfreeb) hkey]
  · unfold TaskCatalog.free TaskCatalog.set
    rw [List.filter_map, List.length_map]
    exact congrArg _ (List.filter_congr fun e he => (hkept e he).1)

theorem settled_commit (h : s.Settled values) (taskId : String) (edit : TaskEdit)
    (hfits : (PoolEvent.commit taskId edit).Fits values s) :
    (exec (commitExistingTask taskId edit) s).2.Settled values ∧
      (exec (commitExistingTask taskId edit) s).2.free.length = s.free.length := by
  simp only [commitExistingTask, bind_eq, exec_bind, Prog.exec_get]
  cases hload : s.load taskId with
  | error e => exact ⟨h, rfl⟩
  | ok entry =>
    obtain ⟨-, hmem, hid⟩ := TaskCatalog.load_eq_ok hload
    simp only [Prog.ofExcept, Prog.exec_pure]
    split
    · exact ⟨h, rfl⟩
    simp only [Prog.perform, exec, Device.perform]
    generalize hnext : ({ task := committed entry.task (edit.apply entry.task)
                          messages := edit.messages } : CatalogTask) = next
    have hwrite : s.write (.replace next) = .ok (s.set next) := by
      have hload' : s.load next.task.taskId = .ok entry := by
        rw [← hnext]
        exact hid ▸ hload
      simp only [TaskCatalog.write, hload', bind, Except.bind]
    rw [hwrite]
    subst hnext
    refine settled_set h hmem rfl rfl rfl rfl fun hfree => ?_
    obtain ⟨hready, hsettled, hstatus, hturn, hmessages⟩ := hfits entry hmem hid hfree
    exact ⟨hready, hsettled, hstatus, hturn, hmessages⟩

theorem settled_step (h : s.Settled values) (hbounded : s.free.length ≤ freePreparedTaskCap)
    (event : PoolEvent) (hfits : event.Fits values s) :
    (exec (event.program values) s).2.Settled values ∧
      (exec (event.program values) s).2.free.length ≤ freePreparedTaskCap := by
  have hnarrows : ∀ {p : PoolProg Unit}, Prog.Respects (Narrows (·.isFree = true)) p →
      (exec p s).2.Settled values ∧ (exec p s).2.free.length ≤ freePreparedTaskCap :=
    fun hp => ⟨h.narrows (exec_narrows hp),
      (TaskCatalog.length_free_narrows h.keyed (exec_narrows hp)).trans hbounded⟩
  cases event with
  | acquire task messages =>
    exact hnarrows (.bind (respects_acquirePreparedTask values task messages) fun _ => trivial)
  | release client taskId now =>
    rw [PoolEvent.program, exec_discard]
    exact pooled_release h hbounded client taskId now hfits
  | reconcile clearLeases =>
    rw [PoolEvent.program, exec_discard]
    exact pooled_reconcile h.keyed clearLeases hfits
  | dispose matching =>
    exact hnarrows (.bind (respects_disposePreparedTasksMatching pooling_free matching)
      fun _ => trivial)
  | send client taskId turnId now rows =>
    exact hnarrows (.bind (respects_sendMessage pooling_free values client taskId turnId
      now rows) fun _ => trivial)
  | hide mode taskId => exact hnarrows (respects_hideTask pooling_free mode taskId)
  | purge taskId => exact hnarrows (respects_perform trivial)
  | create task messages =>
    exact hnarrows (.bind (respects_persistNewTask (pooling_free.not_open rfl))
      fun _ => trivial)
  | commit taskId edit =>
    obtain ⟨hsettled, hlength⟩ := settled_commit h taskId edit hfits
    exact ⟨hsettled, hlength.trans_le hbounded⟩
  | freeze taskId =>
    refine ⟨⟨⟨h.keyed, fun e he hfree => ?_, h.fit⟩, h.distinct⟩, hbounded⟩
    exact List.not_mem_cons_of_ne_of_not_mem (fun hid => hfits e he hid hfree)
      (h.available e he hfree)

end Orderly

/-- **In an orderly run the pool stays settled and within its bound.** -/
theorem settled_run {values : StoredValues} {trace : List PoolStep} {s : TaskCatalog}
    (h : PoolRun values trace s) (horderly : ∀ step ∈ trace, step.Orderly values) :
    (s.Settled values ∧ s.free.length ≤ freePreparedTaskCap) ∧
      ∀ step ∈ trace, step.after.Pooled values := by
  induction h with
  | start =>
    refine ⟨⟨⟨⟨List.nodup_nil, ?_, ?_⟩, fun _ ha => nomatch ha⟩, Nat.zero_le _⟩,
      fun _ hstep => nomatch hstep⟩
    · exact fun _ he => nomatch he
    · exact fun _ he => nomatch he
  | step hrun _ ih =>
    obtain ⟨⟨hsettled, hbounded⟩, hsteps⟩ :=
      ih fun step hstep => horderly step (List.mem_append_left _ hstep)
    obtain ⟨hfits, hcompletes⟩ := horderly _ (List.mem_append_right _ (List.mem_singleton.mpr rfl))
    have hnext := settled_step hsettled hbounded _ hfits
    dsimp only at hcompletes hnext
    rw [← hcompletes] at hnext
    refine ⟨hnext, fun step hstep => ?_⟩
    rcases List.mem_append.mp hstep with hstep | hstep
    · exact hsteps step hstep
    · rw [List.mem_singleton.mp hstep]
      exact hnext.1.pooled hnext.2
  | reorder _ hperm ih =>
    obtain ⟨⟨hsettled, hbounded⟩, hsteps⟩ := ih horderly
    refine ⟨⟨⟨⟨?_, ?_, ?_⟩, ?_⟩, ?_⟩, hsteps⟩
    · exact (hperm.map _).nodup_iff.mpr hsettled.keyed
    · exact fun entry hentry => hsettled.available entry (hperm.subset hentry)
    · exact fun entry hentry => hsettled.fit entry (hperm.subset hentry)
    · exact fun a ha b hb => hsettled.distinct a (hperm.subset ha) b (hperm.subset hb)
    · exact (hperm.filter _).length_eq.trans_le hbounded

/-- In every run a Task is leased to one client at most and a client holds one lease at most.  In a
run whose steps are all orderly, the pool is within its bound after every release and reconcile. -/
theorem prepared_pool_exclusivity {values : StoredValues} {trace : List PoolStep} {s : TaskCatalog}
    (h : PoolRun values trace s) :
    (∀ a ∈ s.tasks, ∀ b ∈ s.tasks, a.task.taskId = b.task.taskId →
        ∀ client client', a.task.HeldBy client → b.task.HeldBy client' → client = client') ∧
      (∀ client, ∀ a ∈ s.tasks, ∀ b ∈ s.tasks, a.task.HeldBy client → b.task.HeldBy client →
        a.task.taskId = b.task.taskId) ∧
      ((∀ step ∈ trace, step.Orderly values) →
        ∀ step ∈ trace, step.event.sweeps → step.after.Pooled values) := by
  have hexclusive := exclusive_run h
  refine ⟨fun a ha b hb hid client client' hheld hheld' => ?_, fun client a ha b hb hheld hheld' =>
    ?_, fun horderly step hstep _ => (settled_run h horderly).2 step hstep⟩
  · cases List.inj_on_of_nodup_map hexclusive.keyed ha hb hid
    have heq := hheld.2.symm.trans hheld'.2
    simpa using heq
  · rw [hexclusive.oneLease client a ha b hb hheld hheld']

/-! ## Runs of one client -/

section OneClient

variable (values : StoredValues)

/-- The steps of a list of operations, none of which meets a fault. -/
def poolTrace : TaskCatalog → List PoolEvent → List PoolStep
  | _, [] => []
  | s, event :: rest =>
    ⟨s, event, (exec (event.program values) s).2⟩ ::
      poolTrace (exec (event.program values) s).2 rest

def poolAfter (s : TaskCatalog) (events : List PoolEvent) : TaskCatalog :=
  events.foldl (fun s event => (exec (event.program values) s).2) s

theorem poolRun_trace {trace : List PoolStep} {s : TaskCatalog} (h : PoolRun values trace s)
    (events : List PoolEvent) :
    PoolRun values (trace ++ poolTrace values s events) (poolAfter values s events) := by
  induction events generalizing trace s with
  | nil => simpa [poolTrace, poolAfter] using h
  | cons event rest ih =>
    have hstep := PoolRun.step h (Prog.exec_run (event.program values) s)
    simpa [poolTrace, poolAfter] using ih hstep

instance (entry : CatalogTask) : Decidable (entry.Fit values) :=
  decidable_of_iff (entry.task.preparation = .ready ∧ entry.task.preferencesSettled values = true ∧
      entry.task.status = .inactive ∧ entry.task.activeTurnId = none ∧ entry.messages = [])
    ⟨fun ⟨a, b, c, d, e⟩ => ⟨a, b, c, d, e⟩, fun ⟨a, b, c, d, e⟩ => ⟨a, b, c, d, e⟩⟩

instance (clearLeases : Bool) (entry : CatalogTask) :
    Decidable (entry.FreesFit values clearLeases) := by
  unfold CatalogTask.FreesFit
  infer_instance

instance (s : TaskCatalog) : (event : PoolEvent) → Decidable (event.Fits values s)
  | .release .. | .reconcile .. | .commit .. | .freeze _ => by
    unfold PoolEvent.Fits; infer_instance
  | .acquire .. | .dispose .. | .send .. | .hide .. | .purge .. | .create .. =>
    inferInstanceAs (Decidable True)

theorem orderly_poolTrace {s : TaskCatalog} {events : List PoolEvent}
    (h : ∀ step ∈ poolTrace values s events, step.event.Fits values step.before) :
    ∀ step ∈ poolTrace values s events, step.Orderly values := by
  induction events generalizing s with
  | nil => exact fun _ hstep => nomatch hstep
  | cons event rest ih =>
    intro step hstep
    rcases List.mem_cons.mp hstep with rfl | hrest
    · exact ⟨h _ List.mem_cons_self, rfl⟩
    · exact ih (fun step hstep => h step (List.mem_cons_of_mem _ hstep)) step hrest

end OneClient

/-- Preferences whose text says how they ended. -/
def namedPreferences : StoredValues where
  configOptions _ := []
  agentCommands _ := []
  pendingChange _ := ⟨0, "", "", .boolean false⟩
  preferences text := ⟨if text.text = "settled" then .settled else .failed, 0⟩
  usage _ := ⟨0, 0, none⟩
  projectId root := root

/-- `task/acquire` asks for a Task with a new id (`create.rs:42`). -/
def requestedTask (taskId : String) : ShownTask :=
  { taskId, status := .inactive, taskVersion := 1, messageHistoryVersion := 0, unread := false
    updatedAt := "", lastActivity := "", lifecycle := .prepared (some "client")
    agentId := "agent", workspaceRoot := "/workspace", preparation := .preparing }

/-- Preparation ends (`prepare_session.rs:184`), whether or not the preferences were applied. -/
def preparedWith (preferences : String) : TaskEdit where
  status := .inactive
  activeTurnId := none
  updatedAt := ""
  preparation := .ready
  configMutation := { preferences := some ⟨preferences⟩ }
  messages := []

/-- A client opens a new Task, sees it prepared and goes elsewhere. -/
def visit (preferences taskId : String) : List PoolEvent :=
  [.acquire (requestedTask taskId) [], .commit taskId (preparedWith preferences),
    .release "client" taskId ""]

/-- Two visits with settled preferences: the second gets the Task of the first. -/
theorem prepared_pool_two_visits :
    let events := visit "settled" "a" ++
      [.acquire (requestedTask "b") [], .release "client" "a" ""]
    (poolAfter namedPreferences {} events).free.length = 1 ∧
      ∀ step ∈ poolTrace namedPreferences {} events, step.event.sweeps →
        step.after.Pooled namedPreferences := by
  have hfits : ∀ step ∈ poolTrace namedPreferences {} (visit "settled" "a" ++
      [.acquire (requestedTask "b") [], .release "client" "a" ""]),
      step.event.Fits namedPreferences step.before := by decide +kernel
  exact ⟨by decide +kernel,
    (prepared_pool_exclusivity (poolRun_trace namedPreferences .start _)).2.2
    (orderly_poolTrace namedPreferences hfits)⟩

/-- **Nine visits during which the Agent refused a preference**: nine Tasks for one Agent and one
workspace lie free after the last release, and no sweep will ever count them. -/
theorem released_tasks_pile_up :
    ∃ trace s, PoolRun namedPreferences trace s ∧
      ∃ step ∈ trace, step.event.sweeps = true ∧ step.after.free.length = 9 ∧
        ¬step.after.Pooled namedPreferences := by
  let events := ["a", "b", "c", "d", "e", "f", "g", "h", "i"].flatMap (visit "failed")
  have hpile : ∃ step ∈ [] ++ poolTrace namedPreferences {} events,
      step.event.sweeps = true ∧ step.after.free.length = 9 := by decide +kernel
  obtain ⟨step, hstep, hsweeps, hlength⟩ := hpile
  refine ⟨_, _, poolRun_trace namedPreferences .start events, step, hstep, hsweeps, hlength,
    fun h => ?_⟩
  have hbounded := h.bounded
  rw [hlength] at hbounded
  exact absurd hbounded (by decide)

end OpenAide

import OpenAide.Snapshots.TaskChanges

/-!
# The queue of committed Task updates

`protocol_edge/task_update_publisher.rs`: the one consumer of committed Task updates takes what is
queued, drops the navigation updates that a later one makes redundant, and publishes the rest in
order.  A navigation update names what is to be read again (a Project's entries, the refresh state)
and carries no value of its own, so the last one for a target does the work of all before it.

- `coalesce` scans the batch from its end (`scan`); `coalesce_eq` is the same from its front, one
  update at a time with what stands behind it;
- `project_kept`, `refreshState_kept`: what the scan has noted is what a kept update brings;
- `dropped_made_up`: so **whatever is dropped is made up for by a later update that is kept**.
-/

namespace OpenAide.UpdateQueue

open TaskSnapshots

/-! ## Updates -/

/-- `CommittedNavigationChange` (`task_events.rs:24`). -/
inductive CommittedNavigationChange where
  | taskUpdated (summary : TaskSummary)
  | projectEntriesChanged (projectId : String)

/-- `CommittedTaskChange` (`task_events.rs:33`). -/
structure CommittedTaskChange where
  changes : TaskChanges
  toolDetails : List JsonText := []
  navigation : Option CommittedNavigationChange := none

/-- `TaskUpdateKind` (`task_events.rs:41`).  What the queue never looks into is kept as JSON text.
-/
inductive TaskUpdateKind where
  | changed (change : CommittedTaskChange)
  | historySync (snapshot : JsonText)
  | toolDetailChanged (artifactId : String) (deltas : List JsonText)
  | subagentCatalogChanged (catalog : JsonText)
  | subagentHistoryChanged (subagentId : String) (chat : List JsonText)
      (currentPlan : Option (Option JsonText))
  | navigationProjectEntriesChanged (projectId : String)
  | navigationRefreshStateChanged (refresh : JsonText)

/-- `TaskUpdate` (`task_events.rs:84`). -/
structure TaskUpdate where
  taskId : String
  revision : Nat
  kind : TaskUpdateKind

/-- Publishing the update reads the entries of the Project again. -/
def TaskUpdate.Reprojects (projectId : String) (update : TaskUpdate) : Prop :=
  update.kind = .navigationProjectEntriesChanged projectId ∨
    ∃ change, update.kind = .changed change ∧
      change.navigation = some (.projectEntriesChanged projectId)

/-- The update announces a refresh state. -/
def TaskUpdate.Refreshes (update : TaskUpdate) : Prop :=
  ∃ refresh, update.kind = .navigationRefreshStateChanged refresh

/-! ## Coalescing -/

/-- What the scan has noted: `later_projects`, a set, and `later_refresh_state`. -/
structure Later where
  projects : List String := []
  refreshState : Bool := false

/-- The filter of `coalesce` (`task_update_publisher.rs:142`): whether the update is kept, and what
is noted after it. -/
def visit (later : Later) (update : TaskUpdate) : Bool × Later :=
  match update.kind with
  | .navigationProjectEntriesChanged projectId =>
    (decide (projectId ∉ later.projects),
    { later with projects := later.projects.insert projectId })
  | .navigationRefreshStateChanged _ => (!later.refreshState, { later with refreshState := true })
  | .changed change =>
    match change.navigation with
    | some (.projectEntriesChanged projectId) =>
      (true, { later with projects := later.projects.insert projectId })
    | _ => (true, later)
  | _ => (true, later)

/-- The filter over a batch that comes in reversed. -/
def scan (later : Later) : List TaskUpdate → List TaskUpdate
  | [] => []
  | update :: rest =>
    let visited := visit later update
    if visited.1 then update :: scan visited.2 rest else scan visited.2 rest

/-- `coalesce` (`task_update_publisher.rs:135`). -/
def coalesce (batch : List TaskUpdate) : List TaskUpdate := (scan {} batch.reverse).reverse

/-! ## The scan from the front -/

/-- What has been noted when the scan has passed all of `updates`. -/
def noted (later : Later) : List TaskUpdate → Later
  | [] => later
  | update :: rest => (visit (noted later rest) update).2

/-- Which updates are kept, in the order of the batch. -/
def kept (later : Later) : List TaskUpdate → List Bool
  | [] => []
  | update :: rest => (visit (noted later rest) update).1 :: kept later rest

/-- The updates that are marked. -/
def marked (batch : List TaskUpdate) (marks : List Bool) : List TaskUpdate :=
  ((batch.zip marks).filter (·.2)).map (·.1)

theorem length_kept (later : Later) (batch : List TaskUpdate) :
    (kept later batch).length = batch.length := by
  induction batch with
  | nil => rfl
  | cons update rest ih => rw [kept, List.length_cons, ih, List.length_cons]

theorem scan_concat (later : Later) (passed : List TaskUpdate) (update : TaskUpdate) :
    scan later (passed ++ [update]) =
      scan later passed ++
        if (visit (noted later passed.reverse) update).1 then [update] else [] := by
  induction passed generalizing later with
  | nil =>
    rw [List.nil_append, List.reverse_nil, noted, scan, scan]
    rfl
  | cons first rest ih =>
    have hnoted : noted later (first :: rest).reverse =
        noted (visit later first).2 rest.reverse := by
      rw [List.reverse_cons]
      generalize rest.reverse = behind
      induction behind with
      | nil => rfl
      | cons other behind ih' => rw [List.cons_append, noted, noted, ih']
    rw [List.cons_append, scan, scan, hnoted]
    by_cases hkeep : (visit later first).1
    · rw [if_pos hkeep, if_pos hkeep, ih, List.cons_append]
    · rw [if_neg hkeep, if_neg hkeep, ih]

/-- **`coalesce` keeps the marked updates, in their order.** -/
theorem coalesce_eq (batch : List TaskUpdate) : coalesce batch = marked batch (kept {} batch) := by
  unfold coalesce
  induction batch with
  | nil => rfl
  | cons update rest ih =>
    rw [List.reverse_cons, scan_concat, List.reverse_append, List.reverse_reverse, ih]
    by_cases hkeep : (visit (noted {} rest) update).1
    · rw [if_pos hkeep]
      simp [marked, kept, hkeep]
    · rw [if_neg hkeep]
      simp [marked, kept, hkeep]

/-! ## What is dropped -/

/-- An update at `index` is kept. -/
def KeptAt (batch : List TaskUpdate) (index : Nat) (update : TaskUpdate) : Prop :=
  batch[index]? = some update ∧ (kept {} batch)[index]? = some true

variable {update : TaskUpdate}

theorem KeptAt.cons {rest : List TaskUpdate} {index : Nat} (h : KeptAt rest index update)
    (first : TaskUpdate) : KeptAt (first :: rest) (index + 1) update := h

theorem mem_projects_visit {later : Later} {projectId : String}
    (h : projectId ∈ (visit later update).2.projects) :
    projectId ∈ later.projects ∨ (visit later update).1 = true ∧ update.Reprojects projectId := by
  unfold visit at h ⊢
  unfold TaskUpdate.Reprojects
  split at h
  · next target hkind =>
    rcases List.mem_insert_iff.mp h with rfl | h
    · by_cases hmem : projectId ∈ later.projects
      · exact .inl hmem
      · exact .inr ⟨by simpa using hmem, .inl hkind⟩
    · exact .inl h
  · exact .inl h
  · next change hkind =>
    split at h
    · next target hnavigation =>
      rcases List.mem_insert_iff.mp h with rfl | h
      · exact .inr ⟨rfl, .inr ⟨change, hkind, hnavigation⟩⟩
      · exact .inl h
    · exact .inl h
  · exact .inl h

theorem refreshState_visit {later : Later} (h : (visit later update).2.refreshState = true) :
    later.refreshState = true ∨ (visit later update).1 = true ∧ update.Refreshes := by
  unfold visit at h ⊢
  split at h
  · exact .inl h
  · next refresh hkind =>
    cases hstate : later.refreshState with
    | true => exact .inl rfl
    | false => exact .inr ⟨rfl, refresh, hkind⟩
  · split at h <;> exact .inl h
  · exact .inl h

variable {batch : List TaskUpdate}

/-- **A Project that is noted has a kept update that re-projects it.** -/
theorem project_kept {projectId : String} (h : projectId ∈ (noted {} batch).projects) :
    ∃ index update, KeptAt batch index update ∧ update.Reprojects projectId := by
  induction batch with
  | nil => cases h
  | cons update rest ih =>
    rcases mem_projects_visit h with h | ⟨hkeep, hreprojects⟩
    · obtain ⟨index, later, hkept, hreprojects⟩ := ih h
      exact ⟨index + 1, later, hkept.cons update, hreprojects⟩
    · refine ⟨0, update, ⟨rfl, ?_⟩, hreprojects⟩
      rw [kept, List.getElem?_cons_zero, hkeep]

/-- **A refresh state that is noted has a kept update that announces one.** -/
theorem refreshState_kept (h : (noted {} batch).refreshState = true) :
    ∃ index update, KeptAt batch index update ∧ update.Refreshes := by
  induction batch with
  | nil => cases h
  | cons update rest ih =>
    rcases refreshState_visit h with h | ⟨hkeep, hrefreshes⟩
    · obtain ⟨index, later, hkept, hrefreshes⟩ := ih h
      exact ⟨index + 1, later, hkept.cons update, hrefreshes⟩
    · refine ⟨0, update, ⟨rfl, ?_⟩, hrefreshes⟩
      rw [kept, List.getElem?_cons_zero, hkeep]

theorem visit_eq_false {later : Later} (h : (visit later update).1 = false) :
    (∃ projectId, update.kind = .navigationProjectEntriesChanged projectId ∧
        projectId ∈ later.projects) ∨
      update.Refreshes ∧ later.refreshState = true := by
  unfold visit at h
  split at h
  · next projectId hkind => exact .inl ⟨projectId, hkind, by simpa using h⟩
  · next refresh hkind => exact .inr ⟨⟨refresh, hkind⟩, by simpa using h⟩
  · split at h <;> cases h
  · cases h

theorem dropped_made_up {index : Nat} (hupdate : batch[index]? = some update)
    (hdropped : (kept {} batch)[index]? = some false) :
    (∃ projectId, update.kind = .navigationProjectEntriesChanged projectId ∧
        ∃ behind later, index < behind ∧ KeptAt batch behind later ∧ later.Reprojects projectId) ∨
      update.Refreshes ∧ ∃ behind later, index < behind ∧ KeptAt batch behind later ∧
        later.Refreshes := by
  induction batch generalizing index with
  | nil => simp at hupdate
  | cons first rest ih =>
    cases index with
    | zero =>
      rw [List.getElem?_cons_zero, Option.some.injEq] at hupdate
      rw [kept, List.getElem?_cons_zero, Option.some.injEq] at hdropped
      subst hupdate
      rcases visit_eq_false hdropped with ⟨projectId, hkind, hnoted⟩ | ⟨hrefreshes, hnoted⟩
      · obtain ⟨behind, later, hkept, hreprojects⟩ := project_kept hnoted
        exact .inl ⟨projectId, hkind, behind + 1, later, Nat.succ_pos _, hkept.cons first,
          hreprojects⟩
      · obtain ⟨behind, later, hkept, hlater⟩ := refreshState_kept hnoted
        exact .inr ⟨hrefreshes, behind + 1, later, Nat.succ_pos _, hkept.cons first, hlater⟩
    | succ index =>
      rcases ih hupdate hdropped with ⟨projectId, hkind, behind, later, hlt, hkept, hreprojects⟩ |
        ⟨hrefreshes, behind, later, hlt, hkept, hlater⟩
      · exact .inl ⟨projectId, hkind, behind + 1, later, Nat.succ_lt_succ hlt, hkept.cons first,
          hreprojects⟩
      · exact .inr ⟨hrefreshes, behind + 1, later, Nat.succ_lt_succ hlt, hkept.cons first, hlater⟩

/-- **Coalescing loses nothing.**  Of every batch an order-preserving part is kept; an update that
is not a navigation invalidation or a refresh state is kept; a dropped invalidation of a Project is
followed by a kept update that re-projects that Project, and a dropped refresh state by a kept one.
-/
theorem coalesce_loses_nothing (batch : List TaskUpdate) :
    ∃ marks : List Bool, marks.length = batch.length ∧ coalesce batch = marked batch marks ∧
      (coalesce batch).Sublist batch ∧
      ∀ (index : Nat) (update : TaskUpdate), batch[index]? = some update →
        marks[index]? = some false →
        (∃ projectId, update.kind = .navigationProjectEntriesChanged projectId ∧
            ∃ behind later, index < behind ∧ batch[behind]? = some later ∧
              marks[behind]? = some true ∧ later.Reprojects projectId) ∨
          update.Refreshes ∧ ∃ behind later, index < behind ∧ batch[behind]? = some later ∧
            marks[behind]? = some true ∧ later.Refreshes := by
  have hsublist : (marked batch (kept {} batch)).Sublist batch := by
    have hzip : (batch.zip (kept {} batch)).map Prod.fst = batch :=
      List.map_fst_zip (le_of_eq (length_kept {} batch).symm)
    have hfilter := (List.filter_sublist (p := fun entry : TaskUpdate × Bool => entry.2)
      (l := batch.zip (kept {} batch))).map Prod.fst
    rw [hzip] at hfilter
    exact hfilter
  refine ⟨kept {} batch, length_kept {} batch, coalesce_eq batch, ?_, ?_⟩
  · rw [coalesce_eq]
    exact hsublist
  · intro index update hupdate hdropped
    rcases dropped_made_up hupdate hdropped with
      ⟨projectId, hkind, behind, later, hlt, ⟨hlater, hkept⟩, hreprojects⟩ |
      ⟨hrefreshes, behind, later, hlt, ⟨hlater, hkept⟩, hannounced⟩
    · exact .inl ⟨projectId, hkind, behind, later, hlt, hlater, hkept, hreprojects⟩
    · exact .inr ⟨hrefreshes, behind, later, hlt, hlater, hkept, hannounced⟩

end OpenAide.UpdateQueue

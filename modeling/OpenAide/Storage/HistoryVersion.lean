import OpenAide.Storage.RowIdentity

/-!
# The history version

A Task's history version stands in two places, in the Task record and in the metadata of its Chat,
and readers compare the two to tell whether they read one state.  Operations write them in different
ways: `ReplaceTask` brings a record's, `ReplaceMessages` and `ReplaceMessageMeta` set both, and rows
changed without new metadata advance both at the end (`projection.rs:140-248`).

`VersionedOn` is what a batch has to respect, in terms of the batch and of the projection before it:
metadata brings a greater version than there was, and a record brings the current one unless a later
operation of the batch sets it.  `validate_operations` checks neither.

- `version_applyOperations`: **such a batch keeps the two versions equal and advances them if it
  changes the rows.**
-/

namespace OpenAide

open Library

namespace TaskOperation

/-- The history version an operation puts into the Chat metadata. -/
def version? : TaskOperation → Option Nat
  | create p => some p.messageMeta.version
  | replaceProjection p => some p.messageMeta.version
  | replaceMessages _ messageMeta => some messageMeta.version
  | replaceMessageMeta messageMeta => some messageMeta.version
  | _ => none

/-- The history version an operation puts into the Task record. -/
def recordVersion? : TaskOperation → Option Nat
  | create p => some p.task.messageHistoryVersion
  | replaceTask task => some task.messageHistoryVersion
  | replaceProjection p => some p.task.messageHistoryVersion
  | replaceMessages _ messageMeta => some messageMeta.version
  | replaceMessageMeta messageMeta => some messageMeta.version
  | _ => none

/-- What the operation brings is newer than `version`, and a whole projection is aligned. -/
def Raises (version : Nat) : TaskOperation → Prop
  | create p => p.Aligned ∧ version < p.messageMeta.version
  | replaceProjection p => p.Aligned ∧ version < p.messageMeta.version
  | replaceMessages _ messageMeta => version < messageMeta.version
  | replaceMessageMeta messageMeta => version < messageMeta.version
  | _ => True

end TaskOperation

namespace Projection

/-- What a batch on `p` has to respect. -/
structure VersionedOn (p : TaskProjection) (operations : List TaskOperation) : Prop where
  raises : ∀ op ∈ operations, op.Raises p.messageMeta.version
  /-- A record brings the current version unless the version is set after it. -/
  records : ∀ before task after, operations = before ++ .replaceTask task :: after →
    advances operations = true ∨ (∃ op ∈ after, op.version?.isSome) ∨
      ((∀ op ∈ before, op.version? = none) ∧
        task.messageHistoryVersion = p.messageMeta.version)

/-- The same for the entry of a Task; a Task is created aligned. -/
def Versioned (entry : Option RecoveredTask) (operations : List TaskOperation) : Prop :=
  match entry, operations with
  | some (.available p _), operations => VersionedOn p operations
  | none, .create p :: rest => p.Aligned ∧ VersionedOn p rest
  | _, _ => True

/-! ## What the operations write last -/

/-- The last value that an operation writes, or else the one before. -/
def lastOf (write? : TaskOperation → Option Nat) (version : Nat)
    (operations : List TaskOperation) : Nat :=
  operations.foldl (fun version op => (write? op).getD version) version

variable {operations : List TaskOperation} {version : Nat} {write? : TaskOperation → Option Nat}

theorem lastOf_same (h : ∀ op ∈ operations, (write? op).getD version = version) :
    lastOf write? version operations = version := by
  induction operations with
  | nil => rfl
  | cons op rest ih =>
    rw [lastOf, List.foldl_cons, h op List.mem_cons_self]
    exact ih fun o ho => h o (List.mem_cons_of_mem _ ho)

theorem lastOf_none (h : ∀ op ∈ operations, write? op = none) (version : Nat) :
    lastOf write? version operations = version :=
  lastOf_same fun op hop => by rw [h op hop]; rfl

theorem lastOf_last (version : Nat) (before : List TaskOperation) (op : TaskOperation)
    {after : List TaskOperation} (h : ∀ later ∈ after, write? later = none) :
    lastOf write? version (before ++ op :: after) =
      (write? op).getD (lastOf write? version before) := by
  rw [lastOf, List.foldl_append]
  exact lastOf_none h _

theorem eq_none_of_not_exists (h : ¬∃ op ∈ operations, (write? op).isSome) :
    ∀ op ∈ operations, write? op = none :=
  fun op hop => Option.not_isSome_iff_eq_none.mp fun hsome => h ⟨op, hop, hsome⟩

theorem exists_last (h : ∃ op ∈ operations, (write? op).isSome) :
    ∃ before op after, operations = before ++ op :: after ∧ (write? op).isSome ∧
      ∀ later ∈ after, write? later = none := by
  induction operations using List.reverseRecOn with
  | nil => simp at h
  | append_singleton ops op ih =>
    by_cases hop : (write? op).isSome
    · exact ⟨ops, op, [], rfl, hop, by simp⟩
    · have hrest : ∃ op ∈ ops, (write? op).isSome := by
        obtain ⟨o, ho, hsome⟩ := h
        rcases List.mem_append.mp ho with ho | ho
        · exact ⟨o, ho, hsome⟩
        · exact absurd (List.mem_singleton.mp ho ▸ hsome) hop
      obtain ⟨before, last, after, rfl, hlast, hnone⟩ := ih hrest
      refine ⟨before, last, after ++ [op], by simp, hlast, fun later hlater => ?_⟩
      rcases List.mem_append.mp hlater with hlater | hlater
      · exact hnone later hlater
      · rw [List.mem_singleton.mp hlater]
        simpa using hop

variable {op : TaskOperation} {taskId : String}

theorem version_editChat {c c' : Chat} (h : editChat taskId c op = .ok c') :
    c'.messageMeta.version = op.version?.getD c.messageMeta.version := by
  cases op with
  | create p => cases h; rfl
  | replaceTask task => cases h; rfl
  | replaceProjection p => cases h; rfl
  | appendText identity text updatedAt taskUpdatedAt =>
    obtain ⟨rows, -, heq⟩ := bind_eq_ok.mp h
    cases heq
    rfl
  | appendMessage message =>
    obtain ⟨⟨⟩, -, heq⟩ := bind_eq_ok.mp h
    cases heq
    rfl
  | upsertMessage message =>
    obtain ⟨rows, -, heq⟩ := bind_eq_ok.mp h
    cases heq
    rfl
  | replaceMessages messages messageMeta =>
    obtain ⟨⟨⟩, -, hrest⟩ := bind_eq_ok.mp h
    obtain ⟨⟨⟩, -, heq⟩ := bind_eq_ok.mp hrest
    cases heq
    rfl
  | replaceMessageMeta messageMeta =>
    obtain ⟨⟨⟩, -, heq⟩ := bind_eq_ok.mp h
    cases heq
    rfl
  | commitArtifact artifactId artifactSequence => cases h; rfl

theorem version_foldlM_editChat {c c' : Chat} (h : operations.foldlM (editChat taskId) c = .ok c') :
    c'.messageMeta.version = lastOf TaskOperation.version? c.messageMeta.version operations := by
  induction operations generalizing c with
  | nil => cases h; rfl
  | cons op rest ih =>
    obtain ⟨middle, hmiddle, hrest⟩ := foldlM_cons_eq_ok.mp h
    rw [ih hrest, version_editChat hmiddle]
    rfl

theorem recordVersion_foldl_editTask (operations : List TaskOperation) (task : TaskRecord) :
    (operations.foldl editTask task).messageHistoryVersion =
      lastOf TaskOperation.recordVersion? task.messageHistoryVersion operations := by
  induction operations generalizing task with
  | nil => rfl
  | cons op rest ih =>
    rw [List.foldl_cons, ih]
    cases op <;> rfl

/-! ## One batch -/

theorem recordVersion?_of_version? (hraises : op.Raises version) (h : op.version?.isSome) :
    op.recordVersion? = op.version? := by
  cases op with
  | create p => exact congrArg some hraises.1
  | replaceProjection p => exact congrArg some hraises.1
  | replaceMessages messages messageMeta => rfl
  | replaceMessageMeta messageMeta => rfl
  | _ => cases h

theorem raises_of_version?_none (h : op.version? = none) : op.Raises version := by
  cases op <;> trivial

theorem lt_of_version? {next : Nat} (hraises : op.Raises version) (h : op.version? = some next) :
    version < next := by
  cases op with
  | create p => cases h; exact hraises.2
  | replaceProjection p => cases h; exact hraises.2
  | replaceMessages messages messageMeta => cases h; exact hraises
  | replaceMessageMeta messageMeta => cases h; exact hraises
  | _ => cases h

theorem replacesMeta_of_version? (h : op.version? = none) : op.replacesMeta = false := by
  cases op with
  | replaceMessages messages messageMeta => cases h
  | replaceMessageMeta messageMeta => cases h
  | _ => rfl

theorem eq_replaceTask_of_version? (h : op.version? = none)
    (hrecord : op.recordVersion? = some version) :
    ∃ task : TaskRecord, op = .replaceTask task ∧ task.messageHistoryVersion = version := by
  cases op with
  | replaceTask task => exact ⟨task, rfl, Option.some.inj hrecord⟩
  | create p => cases h
  | replaceProjection p => cases h
  | replaceMessages messages messageMeta => cases h
  | replaceMessageMeta messageMeta => cases h
  | _ => cases hrecord

theorem lastOf_recordVersion? {p : TaskProjection} (hp : p.Aligned) (h : VersionedOn p operations)
    (hadvances : advances operations = false) :
    lastOf TaskOperation.recordVersion? p.task.messageHistoryVersion operations =
      lastOf TaskOperation.version? p.messageMeta.version operations := by
  have hrecords : ∀ before task after, operations = before ++ .replaceTask task :: after →
      (∃ op ∈ after, op.version?.isSome) ∨ ((∀ op ∈ before, op.version? = none) ∧
        task.messageHistoryVersion = p.messageMeta.version) := fun before task after heq =>
    (h.records before task after heq).resolve_left (by simp [hadvances])
  by_cases hset : ∃ op ∈ operations, op.version?.isSome
  · -- after the last operation that sets the version there is no record
    obtain ⟨before, op, after, rfl, hop, hafter⟩ := exists_last hset
    have hraises := h.raises op (by simp)
    have hnoRecord : ∀ later ∈ after, later.recordVersion? = none := by
      intro later hlater
      by_contra hne
      obtain ⟨version, hversion⟩ := Option.ne_none_iff_exists'.mp hne
      obtain ⟨task, rfl, -⟩ := eq_replaceTask_of_version? (hafter later hlater) hversion
      obtain ⟨xs, ys, rfl⟩ := List.append_of_mem hlater
      obtain ⟨o, ho, hsome⟩ | ⟨hnone, -⟩ := hrecords (before ++ op :: xs) task ys (by simp)
      · have hnone := hafter o (by simp [ho])
        simp [hnone] at hsome
      · have hnone := hnone op (by simp)
        simp [hnone] at hop
    obtain ⟨version, hversion⟩ := Option.isSome_iff_exists.mp hop
    rw [lastOf_last _ _ _ hnoRecord, lastOf_last _ _ _ hafter,
      recordVersion?_of_version? hraises hop, hversion]
    rfl
  · -- nothing sets the version, so every record brings the current one
    have hnone := eq_none_of_not_exists hset
    rw [lastOf_none hnone]
    have hsame : ∀ op ∈ operations, op.recordVersion?.getD p.messageMeta.version =
        p.messageMeta.version := by
      intro op hop
      cases hrecord : op.recordVersion? with
      | none => rfl
      | some version =>
        obtain ⟨task, rfl, rfl⟩ := eq_replaceTask_of_version? (hnone op hop) hrecord
        obtain ⟨xs, ys, rfl⟩ := List.append_of_mem hop
        obtain ⟨o, ho, hsome⟩ | ⟨-, hcurrent⟩ := hrecords xs task ys rfl
        · simp [hnone o (by simp [ho])] at hsome
        · exact hcurrent
    have hp' : p.task.messageHistoryVersion = p.messageMeta.version := hp
    rw [hp']
    exact lastOf_same hsame

theorem le_lastOf_version? (h : ∀ op ∈ operations, op.Raises version) :
    version ≤ lastOf TaskOperation.version? version operations ∧
      ((∃ op ∈ operations, op.version?.isSome) →
        version < lastOf TaskOperation.version? version operations) := by
  by_cases hset : ∃ op ∈ operations, op.version?.isSome
  · obtain ⟨before, op, after, rfl, hop, hafter⟩ := exists_last hset
    obtain ⟨next, hnext⟩ := Option.isSome_iff_exists.mp hop
    have hlt := lt_of_version? (h op (by simp)) hnext
    rw [lastOf_last _ _ _ hafter, hnext]
    exact ⟨hlt.le, fun _ => hlt⟩
  · have hnone := eq_none_of_not_exists hset
    rw [lastOf_none hnone]
    exact ⟨le_rfl, fun h => absurd h hset⟩

theorem messages_foldlM_editChat {c c' : Chat} (hset : ∀ op ∈ operations, op.version? = none)
    (hrows : ∀ op ∈ operations, op.changesHistory = false)
    (h : operations.foldlM (editChat taskId) c = .ok c') : c'.messages = c.messages := by
  induction operations generalizing c with
  | nil => cases h; rfl
  | cons op rest ih =>
    obtain ⟨middle, hmiddle, hrest⟩ := foldlM_cons_eq_ok.mp h
    rw [ih (fun o ho => hset o (List.mem_cons_of_mem _ ho))
      (fun o ho => hrows o (List.mem_cons_of_mem _ ho)) hrest]
    have hop := hset op List.mem_cons_self
    have hop' := hrows op List.mem_cons_self
    cases op with
    | replaceTask task => cases hmiddle; rfl
    | commitArtifact artifactId artifactSequence => cases hmiddle; rfl
    | appendText => cases hop'
    | appendMessage => cases hop'
    | upsertMessage => cases hop'
    | _ => cases hop

/-- **A versioned batch keeps the two versions equal, never lowers them, and raises them if it
changes the rows.** -/
theorem version_applyOperations {p q : TaskProjection} {n m sequence : Nat} (hp : p.Aligned)
    (h : VersionedOn p operations) (hcreate : ∀ op ∈ operations, op.isCreate = false)
    (happly : applyOperations (some (.available p n)) taskId operations sequence =
      .ok (.available q m)) :
    q.Aligned ∧ p.messageMeta.version ≤ q.messageMeta.version ∧
      (q.messages = p.messages ∨ p.messageMeta.version < q.messageMeta.version) := by
  obtain ⟨c, hc, heq⟩ := applyOperations_eq_ok hcreate happly
  cases heq
  obtain ⟨middle, hfold, hend⟩ := bind_eq_ok.mp hc
  have hversion := version_foldlM_editChat hfold
  have hle := le_lastOf_version? h.raises
  have hchat : p.chat.messageMeta.version = p.messageMeta.version := rfl
  rw [hchat] at hversion
  cases hadvances : advances operations with
  | true =>
    rw [hadvances, if_pos rfl] at hend
    obtain ⟨version, hadd, heq⟩ := bind_eq_ok.mp hend
    cases heq
    have hnext : version = middle.messageMeta.version + 1 := by
      unfold checkedAdd at hadd
      split_ifs at hadd
      exact (Except.ok.inj hadd).symm
    have hlt : p.messageMeta.version < version := by
      rw [hnext, hversion]
      exact Nat.lt_succ_of_le hle.1
    refine ⟨?_, hlt.le, .inr hlt⟩
    simp only [TaskProjection.Aligned, Chat.withTask, applyTask, hadvances, if_true,
      TaskRecord.messageHistoryVersion_withVersion]
  | false =>
    rw [hadvances, if_neg Bool.false_ne_true] at hend
    cases hend
    refine ⟨?_, ?_, ?_⟩
    · simp only [TaskProjection.Aligned, Chat.withTask, applyTask, hadvances, Bool.false_eq_true,
        if_false]
      rw [recordVersion_foldl_editTask, lastOf_recordVersion? hp h hadvances, hversion]
    · exact hversion ▸ hle.1
    · by_cases hset : ∃ op ∈ operations, op.version?.isSome
      · exact .inr (hversion ▸ hle.2 hset)
      · have hnone := eq_none_of_not_exists hset
        refine .inl (messages_foldlM_editChat hnone (fun op hop => ?_) hfold)
        -- without new metadata a change of rows would have advanced the version
        by_contra hrows
        have hmeta : operations.any (·.replacesMeta) = false :=
          List.any_eq_false.mpr fun o ho => by simp [replacesMeta_of_version? (hnone o ho)]
        have hany : operations.any (·.changesHistory) = true :=
          List.any_eq_true.mpr ⟨op, hop, by simpa using hrows⟩
        simp [advances, hmeta, hany] at hadvances

end Projection

end OpenAide

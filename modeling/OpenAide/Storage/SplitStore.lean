import OpenAide.Storage.SerdeTexts
import OpenAide.Storage.SplitCommit

/-!
# Every run of the split store

`Reachable` runs the programs of one Task's split store in any order: creation, commits,
compactions, loads, each of them completed, failed or cut short by a crash, and other programs of
the process changing files outside of the store in between.  With the disk goes what the worker
holds in memory, the projection and its storage sequence, or nothing after a failure or a stop.

* `reachable_holds`: in every reachable state the files stand for what is in memory, and for
  something that can be loaded if nothing is.
* `append_crash_atomic`: a commit, wherever it is cut short, is recovered as not made or as made.
* `compact_invisible`: a compaction is recovered as if it had never been, and so are the commits
  after it.
* `Keeps`: what is recovered stays the same over loads that are cut short themselves.

A projection comes back without its process-local part.  Recovery also takes the history version of
the Task record from the Chat wherever there is a journal, so that version comes back as it was only
where the two agree; `Restores` says both.
-/

namespace OpenAide

open Library

namespace TaskProjection

/-- A projection without what belongs to the running process. -/
def durable (p : TaskProjection) : TaskProjection :=
  { p with task := p.task.clearProcessLocalAgentState }

def unversioned (p : TaskProjection) : TaskProjection := { p with task := p.task.unversioned }

end TaskProjection

namespace Split

/-- `R` is `P` as it comes back from disk: the same but for the history version of the Task record,
and the same altogether if all the projections that were `allowed` into the store are aligned. -/
structure Restores (allowed : TaskProjection → Prop) (R P : TaskProjection) : Prop where
  upToVersion : R.unversioned = P.durable.unversioned
  exact : (∀ Q, allowed Q → Q.Aligned) → R = P.durable

/-- What is in memory after a program: `f` of what it returned, if it did. -/
def after {α β : Type} (f : α → Option β) : Outcome RuntimeError α → Option β
  | .ok a => f a
  | _ => none

section Reachable

variable (serde : Serde) (task : String) (allowed : TaskProjection → Prop)

/-- The reachable states of the store of `task`, when only `allowed` projections are created and
committed. -/
inductive Reachable : Disk → Option (TaskProjection × Nat) → Prop where
  | start {d : Disk} (hfresh : Fresh d) (htask : d.files ⟨task, .task⟩ = none)
      (hjournal : d.files ⟨task, .chatJournal none⟩ = none) : Reachable d none
  | create {d d' P s o} (h : Reachable d none) (hnew : d.files ⟨task, .task⟩ = none)
      (howner : P.task.taskId = task) (hs : s < 2 ^ 64) (hP : allowed P)
      (hrun : (publishInitial serde task P s).Run d o d') :
      Reachable d' (after (fun _ => some (P, s)) o)
  | commit {d d' P s operations P' o} (h : Reachable d (some (P, s)))
      (hc : Commit task P s operations P') (hP : allowed P')
      (hrun : (append serde task P' operations (s + 1)).Run d o d') :
      Reachable d' (after (fun _ => some (P', s + 1)) o)
  | compact {d d' P s o} (h : Reachable d (some (P, s)))
      (hrun : (Split.compact serde task P s).Run d o d') :
      Reachable d' (after (fun _ => some (P, s)) o)
  | load {d d' m o} (h : Reachable d m) (hrun : (loadProjection serde task).Run d o d') :
      Reachable d' (after id o)
  | stop {d m} (h : Reachable d m) : Reachable d none
  | elsewhere {d d' m} (h : Reachable d m) (hfresh : Fresh d')
      (hfiles : ∀ p, IsSplitFile task p → d'.files p = d.files p) : Reachable d' m

/-- What the files stand for: what is in memory, or something that can be loaded. -/
def Holds (aligned : Prop) (u v : Files) : Option (TaskProjection × Nat) → Prop
  | some (P, s) =>
    Settled serde task aligned u v P.chat P.task.clearProcessLocalAgentState s ∧
      P.task.taskId = task ∧ (aligned → P.Aligned)
  | none => Uncreated task u v ∨ ∃ C t s, Stores serde task aligned u v C t s

end Reachable

variable {serde : Serde} {task : String} {allowed : TaskProjection → Prop} {aligned : Prop}
  {u v : Files} {d d' : Disk}

variable {m : Option (TaskProjection × Nat)}

theorem Holds.forget (h : Holds serde task aligned u v m) : Holds serde task aligned u v none := by
  cases m with
  | none => exact h
  | some m => exact .inr ⟨_, _, _, h.1.stores⟩

theorem holds_after {α : Type} {program : DiskProg α} {o : Outcome RuntimeError α}
    {f : α → Option (TaskProjection × Nat)} {S : Files → Prop} {T : α → Files → Prop}
    (hends : Ends program d S T) (hrun : program.Run d o d')
    (hS : ∀ v, S v → Holds serde task aligned u v none)
    (hT : ∀ a v, T a v → Holds serde task aligned u v (f a)) :
    ∃ v, Shows d' v ∧ Holds serde task aligned u v (after f o) := by
  obtain ⟨a, rfl, v, hv, h⟩ | ⟨ho, v, hv, h⟩ := (hends o d' hrun).cases
  · exact ⟨v, hv, hT a v h⟩
  · have hnone : after f o = none := by
      cases o with
      | ok a => exact absurd rfl (ho a)
      | error e => rfl
      | crashed => rfl
    exact ⟨v, hv, hnone ▸ hS v h⟩

/-! ## Files outside of the store -/

section Congr

variable {v' : Files} {file : DurableTaskFile} {g : Option Nat} {frames : List ChatFrame}
  {C : Chat} {t : TaskRecord} {s : Nat}

theorem Checkpoint.congr (h : Checkpoint serde task u v file g frames C)
    (hv : ∀ p, IsSplitFile task p → v' p = v p) : Checkpoint serde task v' v' file g frames C :=
  { h with
    taskFile := by rw [hv _ (isSplitFile_task task), h.taskFile]
    generation := h.generation.congr (hv _ (isSplitFile_snapshot task g))
    elsewhere := fun _ _ => rfl }

theorem Settled.congr (h : Settled serde task aligned u v C t s)
    (hv : ∀ p, IsSplitFile task p → v' p = v p) : Settled serde task aligned v' v' C t s := by
  obtain ⟨file, g, frames, hcp, hj, hrest⟩ := h
  exact ⟨file, g, frames, hcp.congr hv, by rw [hv _ (isSplitFile_journal task g), hj], hrest⟩

theorem Stores.congr (h : Stores serde task aligned u v C t s)
    (hv : ∀ p, IsSplitFile task p → v' p = v p) : Stores serde task aligned v' v' C t s := by
  rcases h with ⟨file, g, frames, hcp, hj, hrest⟩ |
    ⟨file, g, frames, C, frame, t', hcp, hnum, hj, hrest⟩
  · exact .inl ⟨file, g, frames, hcp.congr hv, by rw [hv _ (isSplitFile_journal task g)]; exact hj,
      hrest⟩
  · exact .inr ⟨file, g, frames, C, frame, t', hcp.congr hv, hnum,
      by rw [hv _ (isSplitFile_journal task g), hj], hrest⟩

theorem Holds.congr (h : Holds serde task aligned u v m)
    (hv : ∀ p, IsSplitFile task p → v' p = v p) : Holds serde task aligned v' v' m := by
  match m, h with
  | some (P, s), ⟨hsettled, hrest⟩ => exact ⟨hsettled.congr hv, hrest⟩
  | none, .inl hun =>
    exact .inl ⟨by rw [hv _ (isSplitFile_task task), hun.taskFile],
      by rw [hv _ (isSplitFile_journal task none), hun.journal], fun _ _ => rfl⟩
  | none, .inr ⟨C, t, s, hstored⟩ => exact .inr ⟨C, t, s, hstored.congr hv⟩

end Congr

/-! ## The invariant -/

theorem IsSplitFile.not_temporary {p : Path} (h : IsSplitFile task p) :
    p.file.isTemporary = false := by
  obtain ⟨_, htask | ⟨g, hsnapshot | hjournal⟩⟩ := h
  · rw [htask]; rfl
  · rw [hsnapshot]; rfl
  · rw [hjournal]; rfl

variable {s : Nat}

theorem Settled.record {C : Chat} {t t' : TaskRecord} (h : Settled serde task aligned u v C t s)
    (ht : t'.unversioned = t.unversioned) :
    Settled serde task aligned u v C t'.clearProcessLocalAgentState s := by
  obtain ⟨file, g, frames, hcp, hj, hrecord, hrest⟩ := h
  refine ⟨file, g, frames, hcp, hj, ?_, hrest⟩
  rw [← hcp.cleared]
  exact TaskRecord.unversioned_clear_of_eq (hrecord.trans ht.symm)

theorem Stores.taskFile {C : Chat} {t : TaskRecord} (h : Stores serde task aligned u v C t s) :
    ∃ bytes, v ⟨task, .task⟩ = some bytes := by
  rcases h with ⟨file, _, _, hcp, _⟩ | ⟨file, _, _, _, _, _, hcp, _⟩
  · exact ⟨_, hcp.taskFile⟩
  · exact ⟨_, hcp.taskFile⟩

theorem holds_load (h : Shows d v) (hholds : Holds serde task aligned u v none) {o}
    (hrun : (loadProjection serde task).Run d o d') :
    ∃ v', Shows d' v' ∧ Holds serde task aligned u v' (after id o) := by
  rcases hholds with hun | ⟨C, t, s, hstored⟩
  · refine holds_after (leaves_loadProjection_uncreated h hun).ends hrun
      (fun v' hv' => .inl (hv' ▸ hun)) ?_
    rintro m v' ⟨rfl, rfl⟩
    exact .inl hun
  · refine holds_after (leaves_loadProjection h hstored).ends hrun
      (fun v' hv' => .inr ⟨C, t, s, hv'⟩) ?_
    rintro m v' ⟨⟨R, rfl, rfl, hrecord, howner, hal⟩, hsettled⟩
    exact ⟨hsettled.record hrecord, howner, hal⟩

/-- **In every reachable state the files stand for what is in memory.** -/
theorem reachable_holds (h : Reachable serde task allowed d m) :
    ∃ u v, Shows d v ∧ Holds serde task (∀ Q, allowed Q → Q.Aligned) u v m := by
  induction h with
  | @start d hfresh htask hjournal =>
    refine ⟨visible d, visible d, ⟨rfl, hfresh⟩, .inl ⟨htask, hjournal, fun _ _ => rfl⟩⟩
  | create h hnew howner hs hP hrun ih =>
    obtain ⟨u, v, hv, hun | ⟨C, t, s, hstored⟩⟩ := ih
    · exact ⟨u, holds_after (leaves_publishInitial hv hun howner hs fun hal => hal _ hP).ends hrun
        (fun v' hv' => hv'.imp_right fun h => ⟨_, _, _, h⟩)
        fun _ v' hv' => ⟨hv', howner, fun hal => hal _ hP⟩⟩
    · obtain ⟨bytes, hbytes⟩ := hstored.taskFile
      rw [hv.read rfl, hbytes] at hnew
      cases hnew
  | commit h hc hP hrun ih =>
    obtain ⟨u, v, hv, hsettled, howner, _⟩ := ih
    refine ⟨u, holds_after (ends_append hv hsettled howner hc fun hal => hal _ hP) hrun ?_
      fun _ v' hv' => ⟨hv', hc.owner howner, fun hal => hal _ hP⟩⟩
    rintro v' (⟨hstored, _⟩ | hstored) <;> exact .inr ⟨_, _, _, hstored⟩
  | compact h hrun ih =>
    obtain ⟨u, v, hv, hsettled, howner, hal⟩ := ih
    exact ⟨u, holds_after (leaves_compact hv hsettled howner hal).ends hrun
      (fun v' hv' => .inr ⟨_, _, _, hv'⟩) fun _ v' hv' => ⟨hv', howner, hal⟩⟩
  | load h hrun ih =>
    obtain ⟨u, v, hv, hholds⟩ := ih
    exact ⟨u, holds_load hv hholds.forget hrun⟩
  | stop h ih =>
    obtain ⟨u, v, hv, hholds⟩ := ih
    exact ⟨u, v, hv, hholds.forget⟩
  | @elsewhere d d' m h hfresh hfiles ih =>
    obtain ⟨u, v, hv, hholds⟩ := ih
    refine ⟨visible d', visible d', ⟨rfl, hfresh⟩, hholds.congr fun p hp => ?_⟩
    rw [visible, if_neg (by simp [hp.not_temporary]), hfiles p hp, hv.read hp.not_temporary]

/-! ## Recovery -/

theorem Loaded.restores {P : TaskProjection} {r : Option (TaskProjection × Nat)}
    (h : Loaded task (∀ Q, allowed Q → Q.Aligned) P.chat P.task.clearProcessLocalAgentState s r)
    (hal : (∀ Q, allowed Q → Q.Aligned) → P.Aligned) :
    ∃ R, r = some (R, s) ∧ Restores allowed R P := by
  obtain ⟨R, rfl, hchat, hrecord, _, hversion⟩ := h
  refine ⟨R, rfl, TaskProjection.eq_of hchat hrecord, fun hall => ?_⟩
  refine TaskProjection.eq_of hchat ?_
  show R.task = P.task.clearProcessLocalAgentState
  rw [TaskRecord.eq_withVersion_of_unversioned_eq hrecord, hversion hall]
  have hsame : P.messageMeta.version = P.task.clearProcessLocalAgentState.messageHistoryVersion :=
    (hal hall).symm
  show P.task.clearProcessLocalAgentState.withVersion P.messageMeta.version = _
  rw [hsame, TaskRecord.withVersion_self]

/-- A load, without faults, after which `P` at `s` is recovered. -/
def Recovers (serde : Serde) (task : String) (allowed : TaskProjection → Prop) (d : Disk)
    (P : TaskProjection) (s : Nat) : Prop :=
  ∃ R d', (loadProjection serde task).exec d = (.ok (some (R, s)), d') ∧ Restores allowed R P

theorem Stores.recovers {P : TaskProjection} (hv : Shows d v)
    (h : Stores serde task (∀ Q, allowed Q → Q.Aligned) u v P.chat
      P.task.clearProcessLocalAgentState s) (hal : (∀ Q, allowed Q → Q.Aligned) → P.Aligned) :
    Recovers serde task allowed d P s := by
  obtain ⟨r, d', hexec, v', _, hloaded, _⟩ := (leaves_loadProjection hv h).exec_ok
  obtain ⟨R, rfl, hrestores⟩ := hloaded.restores hal
  exact ⟨R, d', hexec, hrestores⟩

/-! ## One store, step by step -/

namespace Example

/-- A Task whose record gives its history the version `version`. -/
def record (version : Nat) : TaskRecord where
  taskId := "t"
  status := .inactive
  taskVersion := 1
  messageHistoryVersion := version
  unread := false
  updatedAt := "1"
  lastActivity := "1"
  lifecycle := .open

/-- The same Task with an empty Chat of version 0. -/
def projection (version : Nat) (heads : Assoc String Nat) : TaskProjection where
  task := record version
  messages := []
  messageMeta := ⟨"t", 0, 0, "1", none, none⟩
  artifactHeads := heads

def file (version storageSequence chatSequence : Nat) (generation : Option Nat) (bytes : Nat) :
    DurableTaskFile where
  schemaVersion := TASK_SCHEMA_VERSION
  storageSequence := storageSequence
  chatSequence := chatSequence
  chatSnapshot := .chatSnapshot generation
  chatJournal := .chatJournal generation
  chatJournalBytes := some bytes
  task := record version

def operations : List TaskOperation := [.commitArtifact "a" 1]

def frame : ChatFrame := chatFrame (record 0) (record 0) operations 1

/-! The texts of these values.  A record also has fields that the model leaves out. -/

def recordJson (version : Nat) : Json := .object [
  ("task_id", .string "t"),
  ("title", .object [("ownership", .string "automatic"), ("title", .null)]),
  ("status", .string "inactive"), ("task_version", .number 1),
  ("message_history_version", .number version), ("unread", .bool false), ("pinned", .bool false),
  ("created_at", .string "1"), ("updated_at", .string "1"), ("last_activity", .string "1"),
  ("agent_id", .string "a"), ("agent_name", .string "A"), ("isolation", .string "local"),
  ("workspace_root", .string "/w"), ("lifecycle", .object [("state", .string "open")]),
  ("tombstoned", .bool false), ("revision", .number 0), ("model_id", .null),
  ("supports_image_input", .bool false)]

def suffix : Option Nat → String
  | none => ""
  | some _ => ".8f14e45f-ceea-467f-a83d-3c2c6c0e4b5a"

def fileJson (version storageSequence chatSequence : Nat) (generation : Option Nat)
    (bytes : Nat) : Json := .object [
  ("schemaVersion", .number 1), ("storageSequence", .number storageSequence),
  ("chatSequence", .number chatSequence),
  ("chatSnapshot", .string ("chat.snapshot" ++ suffix generation)),
  ("chatJournal", .string ("chat.journal" ++ suffix generation)),
  ("chatJournalBytes", .number bytes), ("task", recordJson version)]

def snapshotJson (heads : List (String × Json)) : Json := .object [
  ("schemaVersion", .number 3), ("messages", .array []),
  ("messageMeta", .object [("task_id", .string "t"), ("version", .number 0),
    ("message_count", .number 0), ("local_history_updated_at", .string "1"),
    ("first_cursor", .null), ("last_cursor", .null)]),
  ("artifactHeads", .object heads)]

def patchJson : Json := .object [("fields", .object []), ("removed_fields", .array [])]

def frameJson : Json := .object [
  ("format_version", .number 1), ("schema_version", .number 3), ("sequence", .number 1),
  ("operations", .array [.object [("operation", .string "commit_artifact"),
    ("artifact_id", .string "a"), ("artifact_sequence", .number 1)]]),
  ("task_patch", patchJson)]

def files : Table DurableTaskFile :=
  [(file 5 1 0 none 0, fileJson 5 1 0 none 0), (file 5 2 1 none 208, fileJson 5 2 1 none 208),
    (file 5 2 0 (some 3) 0, fileJson 5 2 0 (some 3) 0), (file 0 1 0 none 0, fileJson 0 1 0 none 0),
    (file 0 2 1 none 208, fileJson 0 2 1 none 208)]

def snapshots : Table ChatSnapshotFile :=
  [(snapshotOf (projection 0 []), snapshotJson []),
    (snapshotOf (projection 0 [("a", 1)]), snapshotJson [("a", .number 1)])]

def frames : Table ChatFrame := [(frame, frameJson)]

theorem frames_patch : ∀ e ∈ frames, ∃ patch, e.2.get? "task_patch" = some patch ∧
    patch.code? = none ∧ ∀ f ∈ frames, (f.2.get? "task_patch").map Json.bytes = some patch.bytes →
      f.1.taskPatch = e.1.taskPatch := by
  intro e he
  have he := List.mem_singleton.mp he
  subst he
  refine ⟨patchJson, rfl, rfl, fun f hf _ => ?_⟩
  have hf := List.mem_singleton.mp hf
  subst hf
  rfl

def texts : Texts where
  taskFiles := files
  snapshots := snapshots
  frames := frames
  taskFiles_nodup := by decide +kernel
  snapshots_nodup := by decide +kernel
  frames_nodup := by decide +kernel
  disjoint := by decide +kernel
  taskFiles_text := by decide +kernel
  snapshots_text := by decide +kernel
  frames_text := by decide +kernel
  snapshots_schema := by simp [snapshots, snapshotJson, Json.get?, snapshotOf, CHAT_SCHEMA_VERSION]
  frames_schema := by simp [frames, frameJson, Json.get?, frame, chatFrame, CHAT_SCHEMA_VERSION]
  frames_patch := frames_patch

noncomputable def json : Serde := .ofTexts texts

def emptyDisk : Disk := ⟨fun _ => none, 0⟩

/-- The disk after the Task is created, and after an artifact reference is committed to it. -/
noncomputable def created (version : Nat) : Disk :=
  ((publishInitial json "t" (projection version []) 1).exec emptyDisk).2

noncomputable def committed (version : Nat) : Disk :=
  ((append json "t" (projection version [("a", 1)]) operations 2).exec (created version)).2

theorem exec_create : ∀ version ∈ [0, 5],
    ((publishInitial json "t" (projection version []) 1).exec emptyDisk).1 = .ok () := by
  decide +kernel

theorem exec_append : ∀ version ∈ [0, 5],
    ((append json "t" (projection version [("a", 1)]) operations 2).exec (created version)).1 =
      .ok () := by
  decide +kernel

theorem exec_load : ((loadProjection json "t").exec (committed 5)).1 =
    .ok (some (projection 0 [("a", 1)], 2)) := by
  decide +kernel

theorem reachable_created {version : Nat} (hversion : version ∈ [0, 5])
    {allowed : TaskProjection → Prop} (hallowed : allowed (projection version [])) :
    Reachable json "t" allowed (created version) (some (projection version [], 1)) := by
  have hrun := (publishInitial json "t" (projection version []) 1).exec_run emptyDisk
  rw [exec_create version hversion] at hrun
  exact .create (.start (fun _ _ _ _ => rfl) rfl rfl) rfl rfl (by decide) hallowed hrun

theorem commit_operations (version : Nat) : Commit "t" (projection version []) 1 operations
    (projection version [("a", 1)]) where
  valid := rfl
  applied := rfl
  recoverable := rfl
  sequence := by decide

theorem run_append {version : Nat} (hversion : version ∈ [0, 5]) :
    (append json "t" (projection version [("a", 1)]) operations 2).Run (created version) (.ok ())
      (committed version) := by
  have hrun := (append json "t" (projection version [("a", 1)]) operations 2).exec_run
    (created version)
  rwa [exec_append version hversion] at hrun

theorem reachable_committed {version : Nat} (hversion : version ∈ [0, 5])
    {allowed : TaskProjection → Prop} (hallowed : allowed (projection version []))
    (hallowed' : allowed (projection version [("a", 1)])) :
    Reachable json "t" allowed (committed version) (some (projection version [("a", 1)], 2)) :=
  .commit (reachable_created hversion hallowed) (commit_operations version) hallowed'
    (run_append hversion)

/-- The disk after a compaction of that. -/
noncomputable def compacted (version : Nat) : Disk :=
  ((compact json "t" (projection version [("a", 1)]) 2).exec (committed version)).2

end Example

/-! ## Crash atomicity -/

theorem FrameComplete.visible {C : Chat} {t : TaskRecord} {P' : TaskProjection}
    {operations : List TaskOperation} {v' : Files} (hv : Shows d v) (hv' : Shows d' v')
    (hsettled : Settled serde task aligned u v C t s)
    (h : FrameComplete serde task operations P' d.files d'.files) :
    FrameComplete serde task operations P' v v' := by
  obtain ⟨bytes, metadata, hbytes, hmetadata, hjournal⟩ := h
  obtain ⟨file, g, frames, hcp, _⟩ := hsettled
  rw [hv.read rfl] at hbytes
  obtain rfl := Option.some.inj (hcp.taskFile.symm.trans hbytes)
  obtain rfl := Except.ok.inj
    ((parseTask_taskFileToVec hcp.schema hcp.cleared).symm.trans hmetadata)
  have hname : (metadataOf file).chatJournal = .chatJournal g := hcp.journalName
  have htemporary : (⟨task, (metadataOf file).chatJournal⟩ : Path).file.isTemporary = false := by
    rw [hname]
    rfl
  rw [hv.read htemporary, hv'.read htemporary] at hjournal
  exact ⟨_, _, hbytes, hmetadata, hjournal⟩

/-- **Crash atomicity of a commit.**  Wherever a commit of a reachable store stops, the next load
succeeds and recovers the state before the commit or the state after it; the latter if the commit
returned, and already if its Chat frame is complete. -/
theorem append_crash_atomic (serde : Serde) (task : String) (allowed : TaskProjection → Prop)
    (d : Disk) (P : TaskProjection) (s : Nat) (operations : List TaskOperation)
    (P' : TaskProjection) (o : Outcome RuntimeError Unit) (d' : Disk)
    (h : Reachable serde task allowed d (some (P, s))) (hc : Commit task P s operations P')
    (hP' : allowed P') (hrun : (append serde task P' operations (s + 1)).Run d o d') :
    (Recovers serde task allowed d' P s ∨ Recovers serde task allowed d' P' (s + 1)) ∧
      (FrameComplete serde task operations P' d.files d'.files ∨ o = .ok () →
        Recovers serde task allowed d' P' (s + 1)) := by
  obtain ⟨u, v, hv, hsettled, howner, hal⟩ := reachable_holds h
  have hpost := ends_append hv hsettled howner hc (fun hall => hall P' hP') o d' hrun
  obtain ⟨_, rfl, v', hv', hdone⟩ | ⟨ho, v', hv', ⟨hstored, hincomplete⟩ | hstored⟩ := hpost.cases
  · have hrecovers := hdone.stores.recovers hv' fun hall => hall P' hP'
    exact ⟨.inr hrecovers, fun _ => hrecovers⟩
  · refine ⟨.inl (hstored.recovers hv' hal), ?_⟩
    rintro (hcomplete | hok)
    · exact absurd (hcomplete.visible hv hv' hsettled) hincomplete
    · exact absurd hok (ho ())
  · have hrecovers := hstored.recovers hv' fun hall => hall P' hP'
    exact ⟨.inr hrecovers, fun _ => hrecovers⟩

open Example in
/-- A record whose history version is not that of its Chat: the load after a completed commit
returns neither the state before the commit nor the one after it. -/
theorem append_misaligned_version :
    Reachable json "t" (fun _ => True) (created 5) (some (projection 5 [], 1)) ∧
      Commit "t" (projection 5 []) 1 operations (projection 5 [("a", 1)]) ∧
      (append json "t" (projection 5 [("a", 1)]) operations 2).Run (created 5) (.ok ())
        (committed 5) ∧
      ((loadProjection json "t").exec (committed 5)).1 = .ok (some (projection 0 [("a", 1)], 2)) ∧
      (projection 0 [("a", 1)], 2) ≠ ((projection 5 []).durable, 1) ∧
      (projection 0 [("a", 1)], 2) ≠ ((projection 5 [("a", 1)]).durable, 2) := by
  exact ⟨reachable_created (by decide) trivial, commit_operations 5, run_append (by decide),
    exec_load, by decide, by decide⟩

open Example in
/-- Every run of the commit of an artifact reference to a fresh, aligned Task. -/
theorem append_crash_atomic_artifact :
    Reachable json "t" TaskProjection.Aligned (created 0) (some (projection 0 [], 1)) ∧
      Commit "t" (projection 0 []) 1 operations (projection 0 [("a", 1)]) ∧
      ∀ o d', (append json "t" (projection 0 [("a", 1)]) operations 2).Run (created 0) o d' →
        (Recovers json "t" TaskProjection.Aligned d' (projection 0 []) 1 ∨
            Recovers json "t" TaskProjection.Aligned d' (projection 0 [("a", 1)]) 2) ∧
          (FrameComplete json "t" operations (projection 0 [("a", 1)]) (created 0).files d'.files ∨
              o = .ok () →
            Recovers json "t" TaskProjection.Aligned d' (projection 0 [("a", 1)]) 2) := by
  have hreach : Reachable json "t" TaskProjection.Aligned (created 0) (some (projection 0 [], 1)) :=
    reachable_created (by decide) rfl
  exact ⟨hreach, commit_operations 0, fun o d' hrun => append_crash_atomic json "t"
    TaskProjection.Aligned _ _ 1 operations _ o d' hreach (commit_operations 0) rfl hrun⟩

theorem Holds.recovers_append {Q P' : TaskProjection} {operations : List TaskOperation}
    (hv : Shows d v) (h : Holds serde task (∀ Q, allowed Q → Q.Aligned) u v (some (Q, s)))
    (hc : Commit task Q s operations P') (hP' : allowed P')
    (hrun : (append serde task P' operations (s + 1)).Run d (.ok ()) d') :
    Recovers serde task allowed d' P' (s + 1) := by
  obtain ⟨hsettled, howner, _⟩ := h
  obtain ⟨v', hv', hdone⟩ :=
    ends_append hv hsettled howner hc (fun hall => hall P' hP') (.ok ()) d' hrun
  exact hdone.stores.recovers hv' fun hall => hall P' hP'

/-- **A compaction is invisible.**  Wherever a compaction of a reachable store stops, the next load
recovers the projection and the sequence from before it; and a commit made after that load, or
right after a compaction that returned, is recovered as made once on top of them. -/
theorem compact_invisible (serde : Serde) (task : String) (allowed : TaskProjection → Prop)
    (d : Disk) (P : TaskProjection) (s : Nat) (o : Outcome RuntimeError Unit) (d' : Disk)
    (h : Reachable serde task allowed d (some (P, s)))
    (hrun : (compact serde task P s).Run d o d') :
    Recovers serde task allowed d' P s ∧
      ∀ Q d₁, (o = .ok () ∧ Q = P ∧ d₁ = d' ∨
          (loadProjection serde task).exec d' = (.ok (some (Q, s)), d₁)) →
        ∀ operations P' d₂, Commit task Q s operations P' → allowed P' →
          (append serde task P' operations (s + 1)).Run d₁ (.ok ()) d₂ →
          Recovers serde task allowed d₂ P' (s + 1) := by
  obtain ⟨u, v, hv, hsettled, howner, hal⟩ := reachable_holds h
  have hpost := (leaves_compact hv hsettled howner hal).ends o d' hrun
  obtain ⟨v', hv', hstored⟩ : ∃ v', Shows d' v' ∧
      Stores serde task (∀ Q, allowed Q → Q.Aligned) u v' P.chat
        P.task.clearProcessLocalAgentState s := by
    obtain ⟨_, rfl, v', hv', hdone⟩ | ⟨_, hleft⟩ := hpost.cases
    · exact ⟨v', hv', hdone.stores⟩
    · exact hleft
  refine ⟨hstored.recovers hv' hal, ?_⟩
  rintro Q d₁ (⟨rfl, rfl, rfl⟩ | hload) operations P' d₂ hc hP' happend
  · obtain ⟨v', hv', hdone⟩ := hpost
    exact Holds.recovers_append hv' ⟨hdone, howner, hal⟩ hc hP' happend
  · have hrun' := (loadProjection serde task).exec_run d'
    rw [hload] at hrun'
    obtain ⟨v₁, hv₁, hholds⟩ := holds_load hv' (.inr ⟨_, _, _, hstored⟩) hrun'
    exact Holds.recovers_append hv₁ hholds hc hP' happend

open Example in
/-- The same record: a compaction that stops at once and one that returns make the load return two
different history versions. -/
theorem compact_misaligned_version :
    Reachable json "t" (fun _ => True) (committed 5) (some (projection 5 [("a", 1)], 2)) ∧
      (compact json "t" (projection 5 [("a", 1)]) 2).Run (committed 5) .crashed (committed 5) ∧
      ((loadProjection json "t").exec (committed 5)).1 = .ok (some (projection 0 [("a", 1)], 2)) ∧
      (compact json "t" (projection 5 [("a", 1)]) 2).Run (committed 5) (.ok ()) (compacted 5) ∧
      ((loadProjection json "t").exec (compacted 5)).1 =
        .ok (some (projection 5 [("a", 1)], 2)) := by
  have hrun := (compact json "t" (projection 5 [("a", 1)]) 2).exec_run (committed 5)
  rw [show ((compact json "t" (projection 5 [("a", 1)]) 2).exec (committed 5)).1 = .ok () by
    decide +kernel] at hrun
  exact ⟨reachable_committed (by decide) trivial trivial, .crash _ _, exec_load, hrun,
    by decide +kernel⟩

open Example in
/-- Every run of a compaction of an aligned Task. -/
theorem compact_invisible_artifact :
    Reachable json "t" TaskProjection.Aligned (committed 0) (some (projection 0 [("a", 1)], 2)) ∧
      ∀ o d', (compact json "t" (projection 0 [("a", 1)]) 2).Run (committed 0) o d' →
        Recovers json "t" TaskProjection.Aligned d' (projection 0 [("a", 1)]) 2 ∧
          ∀ Q d₁, (o = .ok () ∧ Q = projection 0 [("a", 1)] ∧ d₁ = d' ∨
              (loadProjection json "t").exec d' = (.ok (some (Q, 2)), d₁)) →
            ∀ operations P' d₂, Commit "t" Q 2 operations P' → P'.Aligned →
              (append json "t" P' operations 3).Run d₁ (.ok ()) d₂ →
              Recovers json "t" TaskProjection.Aligned d₂ P' 3 := by
  have hcommitted : Reachable json "t" TaskProjection.Aligned (committed 0)
      (some (projection 0 [("a", 1)], 2)) :=
    reachable_committed (by decide) rfl rfl
  exact ⟨hcommitted, fun o d' hrun => compact_invisible json "t" TaskProjection.Aligned _ _ 2 o d'
    hcommitted hrun⟩

/-! ## Loads that are interrupted -/

/-- The disks that loads lead to, each of them finished, failed or cut short. -/
def Loads (serde : Serde) (task : String) : Disk → Disk → Prop :=
  Relation.ReflTransGen fun d d' => ∃ o, (loadProjection serde task).Run d o d'

/-- `P` at `s` is recovered, whatever loads come before. -/
def Keeps (serde : Serde) (task : String) (allowed : TaskProjection → Prop) (d : Disk)
    (P : TaskProjection) (s : Nat) : Prop :=
  ∀ d', Loads serde task d d' → Recovers serde task allowed d' P s

theorem Loads.shows {S : Files → Prop} (h : Loads serde task d d')
    (hload : ∀ d v, Shows d v → S v → Ends (loadProjection serde task) d S fun _ => S)
    (hv : Shows d v) (hS : S v) : ∃ v', Shows d' v' ∧ S v' := by
  induction h with
  | refl => exact ⟨v, hv, hS⟩
  | tail _ hlast ih =>
    obtain ⟨v₁, hv₁, hS₁⟩ := ih
    obtain ⟨o, hrun⟩ := hlast
    obtain ⟨_, -, hleft⟩ | ⟨-, hleft⟩ := (hload _ v₁ hv₁ hS₁ o _ hrun).cases <;> exact hleft

variable {P : TaskProjection} {o : Outcome RuntimeError Unit}

theorem Stores.keeps (hv : Shows d v)
    (h : Stores serde task (∀ Q, allowed Q → Q.Aligned) u v P.chat
      P.task.clearProcessLocalAgentState s) (hal : (∀ Q, allowed Q → Q.Aligned) → P.Aligned) :
    Keeps serde task allowed d P s := by
  intro d' hloads
  obtain ⟨v', hv', hstored⟩ := hloads.shows (fun _ _ hv h =>
    (leaves_loadProjection hv h).ends.mono (fun _ => id) fun _ _ hdone => hdone.2.stores) hv h
  exact hstored.recovers hv' hal

/-- **A commit is decided where it stops**: the loads after it all recover the state before it, or
all of them the state after it, however many of them are cut short. -/
theorem append_decided_once {operations : List TaskOperation} {P' : TaskProjection}
    (h : Reachable serde task allowed d (some (P, s))) (hc : Commit task P s operations P')
    (hP' : allowed P') (hrun : (append serde task P' operations (s + 1)).Run d o d') :
    Keeps serde task allowed d' P s ∨ Keeps serde task allowed d' P' (s + 1) := by
  obtain ⟨u, v, hv, hsettled, howner, hal⟩ := reachable_holds h
  have hal' : (∀ Q, allowed Q → Q.Aligned) → P'.Aligned := fun hall => hall P' hP'
  have hpost := ends_append hv hsettled howner hc hal' o d' hrun
  obtain ⟨_, -, v', hv', hdone⟩ | ⟨-, v', hv', ⟨hstored, -⟩ | hstored⟩ := hpost.cases
  · exact .inr (hdone.stores.keeps hv' hal')
  · exact .inl (hstored.keeps hv' hal)
  · exact .inr (hstored.keeps hv' hal')

open Example in
/-- Every run of a commit to a fresh Task, wherever it stops; one of them returns. -/
theorem append_decided_wherever_stopped :
    (append json "t" (projection 0 [("a", 1)]) operations 2).Run (created 0) (.ok ())
    (committed 0) ∧
      ∀ o d', (append json "t" (projection 0 [("a", 1)]) operations 2).Run (created 0) o d' →
        Keeps json "t" TaskProjection.Aligned d' (projection 0 []) 1 ∨
          Keeps json "t" TaskProjection.Aligned d' (projection 0 [("a", 1)]) 2 :=
  ⟨run_append (by decide), fun _ _ hrun =>
    append_decided_once (reachable_created (by decide) rfl) (commit_operations 0) rfl hrun⟩

/-- **Creation is decided where it stops**: the loads after it all find no Task, or all of them the
whole of it, as they do if it returned. -/
theorem creation_decided_once (h : Reachable serde task allowed d none)
    (hnew : d.files ⟨task, .task⟩ = none) (howner : P.task.taskId = task) (hs : s < 2 ^ 64)
    (hP : allowed P) (hrun : (publishInitial serde task P s).Run d o d') :
    (o ≠ .ok () ∧ ∀ d₁, Loads serde task d' d₁ →
        ∃ d₂, (loadProjection serde task).exec d₁ = (.ok none, d₂)) ∨
      Keeps serde task allowed d' P s := by
  have hal : (∀ Q, allowed Q → Q.Aligned) → P.Aligned := fun hall => hall P hP
  obtain ⟨u, v, hv, hun | ⟨_, _, _, hstored⟩⟩ := reachable_holds h
  · have hpost := (leaves_publishInitial hv hun howner hs hal).ends o d' hrun
    obtain ⟨_, -, v', hv', hdone⟩ | ⟨ho, v', hv', hun' | hstored⟩ := hpost.cases
    · exact .inr (hdone.stores.keeps hv' hal)
    · refine .inl ⟨ho (), fun d₁ hloads => ?_⟩
      obtain ⟨v₁, hv₁, hun₁⟩ := hloads.shows (fun _ _ hv h =>
        (leaves_loadProjection_uncreated hv h).ends.mono (fun _ hsame => hsame ▸ h)
          fun _ _ hsame => hsame.2 ▸ h) hv' hun'
      obtain ⟨_, d₂, hexec, _, _, rfl, _⟩ := (leaves_loadProjection_uncreated hv₁ hun₁).exec_ok
      exact ⟨d₂, hexec⟩
    · exact .inr (hstored.keeps hv' hal)
  · obtain ⟨bytes, hbytes⟩ := hstored.taskFile
    rw [hv.read rfl, hbytes] at hnew
    cases hnew

open Example in
/-- A Task whose creation returned. -/
theorem creation_decided_once_created :
    Keeps json "t" TaskProjection.Aligned (created 0) (projection 0 []) 1 := by
  have hrun := (publishInitial json "t" (projection 0 []) 1).exec_run emptyDisk
  rw [exec_create 0 (by decide)] at hrun
  exact Or.resolve_left (creation_decided_once (.start (fun _ _ _ _ => rfl) rfl rfl) rfl rfl
    (by decide) rfl hrun) fun h => h.1 rfl

end Split

end OpenAide

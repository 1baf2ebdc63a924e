import OpenAide.Storage.SplitFiles

/-!
# Crash recovery of the split store

What the files of a split store stand for, and that every program of the store keeps it.

A store has a *checkpoint*: `task.json`, and the snapshot and frames it accounts for.  Behind the
accounted frames the journal may hold the torn rest of a write that was never finished (`Quiet`), or
one more complete frame that `task.json` does not know yet (`Pending`).  `Stores` says that the
files stand for a Chat, a Task record and a storage sequence in one of these two ways, `Settled`
that nothing is left over, which is what a commit starts from.

* `leaves_loadProjection`: from any stored state `load_projection` returns what is stored and
  settles the files; interrupted at any point it leaves the same stored.
* `ends_append`: an interrupted commit leaves the state before it or the state after it stored, the
  latter as soon as its frame is complete.
* `leaves_compact`: a compaction, interrupted or not, changes nothing that is stored.

The history version of a Task record is the one fact kept twice, in the record and in the Chat's
metadata.  Recovery takes the second wherever there is a journal, so records are compared without
it; `aligned` says that the two agree, and then nothing is lost in the comparison.
-/

namespace OpenAide.Split

open Library Projection
open ChatFrame (framed)
open Files

section Store

variable (serde : Serde) (task : String)

/-! ## Checkpoints -/

/-- The files that make up a split store. -/
def IsSplitFile (p : Path) : Prop :=
  p.task = task ∧ (p.file = .task ∨ ∃ g, p.file = .chatSnapshot g ∨ p.file = .chatJournal g)

/-- A generation of Chat files: the snapshot, and frames that lead from it to the Chat `C`. -/
structure Generation (v : Files) (g : Option Nat) (frames : List ChatFrame) (C : Chat) : Prop where
  snapshot : ∃ snapshot : ChatSnapshotFile, snapshot.schemaVersion = CHAT_SCHEMA_VERSION ∧
    v ⟨task, .chatSnapshot g⟩ = some (serde.snapshotToVec snapshot) ∧
    frames.foldlM (replayChat task) snapshot.toChat = .ok C
  numbered : Frame.Consecutive (framed serde) 1 frames
  noCreate : NoCreate frames

/-- `task.json` and the generation it accounts for; `u` are the files outside the store. -/
structure Checkpoint (u v : Files) (file : DurableTaskFile) (g : Option Nat)
    (frames : List ChatFrame) (C : Chat) : Prop where
  taskFile : v ⟨task, .task⟩ = some (serde.taskFileToVec file)
  schema : file.schemaVersion = TASK_SCHEMA_VERSION
  owner : file.task.taskId = task
  cleared : file.task.clearProcessLocalAgentState = file.task
  bytes : file.chatJournalBytes.isSome
  snapshotName : file.chatSnapshot = .chatSnapshot g
  journalName : file.chatJournal = .chatJournal g
  count : file.chatSequence = frames.length
  generation : Generation serde task v g frames C
  elsewhere : ∀ p, ¬ IsSplitFile task p → v p = u p

/-- A journal whose complete frames are all accounted for. -/
inductive Quiet (frames : List ChatFrame) : Option Bytes → Prop where
  | absent (h : frames = []) : Quiet frames none
  | tornHeader {bytes} (h : frames = []) (hlen : bytes.length < Frame.FILE_HEADER_LEN) :
      Quiet frames (some bytes)
  | tornTail {more k} (h : Frame.Consecutive (framed serde) 1 (frames ++ more))
      (hk : Frame.FILE_HEADER_LEN ≤ k)
      (hwhole : Frame.wholeFrames (framed serde) (frames ++ more) k = frames) :
      Quiet frames (some ((Frame.fileBytes (framed serde) (frames ++ more)).take k))

/-- The journal with exactly these frames. -/
def journalBytes (frames : List ChatFrame) : Option Bytes :=
  if frames = [] then none else some (Frame.fileBytes (framed serde) frames)

theorem quiet_fileBytes {frames : List ChatFrame}
    (h : Frame.Consecutive (framed serde) 1 frames) :
    Quiet serde frames (some (Frame.fileBytes (framed serde) frames)) := by
  have hquiet := @Quiet.tornTail serde frames []
    (Frame.fileBytes (framed serde) frames).length (by simpa using h)
    (by simp [Frame.fileBytes]) (by simp [Frame.wholeFrames_length])
  simpa using hquiet

theorem quiet_journalBytes {frames : List ChatFrame}
    (h : Frame.Consecutive (framed serde) 1 frames) :
    Quiet serde frames (journalBytes serde frames) := by
  unfold journalBytes
  split
  · exact .absent ‹_›
  · exact quiet_fileBytes serde h

/-- A frame past the checkpoint leads to the Chat `C'` and the record `t`. -/
structure Ahead (file : DurableTaskFile) (C : Chat) (frame : ChatFrame) (C' : Chat)
    (t : TaskRecord) : Prop where
  noCreate : ∀ op ∈ frame.journal.operations, op.isCreate = false
  chat : replayChat task C frame = .ok C'
  patch : TaskMetadataPatch.apply frame.taskPatch
    (applyTask file.task frame.journal.operations C'.messageMeta.version) = .ok t
  owner : t.taskId = task
  cleared : t.clearProcessLocalAgentState = t

variable (aligned : Prop) (u : Files)

/-- The files stand for the Chat `C`, a record that is `t` but for the history version, and the
storage sequence `s`, all of it accounted for by `task.json`. -/
def Committed (v : Files) (C : Chat) (t : TaskRecord) (s : Nat) : Prop :=
  ∃ file g frames, Checkpoint serde task u v file g frames C ∧
    Quiet serde frames (v ⟨task, .chatJournal g⟩) ∧
    file.task.unversioned = t.unversioned ∧ file.storageSequence = s ∧ s < 2 ^ 64 ∧
    (aligned → file.task.messageHistoryVersion = C.messageMeta.version)

/-- The same, with the last frame still unknown to `task.json`. -/
def Pending (v : Files) (C' : Chat) (t : TaskRecord) (s' : Nat) : Prop :=
  ∃ file g frames C frame t', Checkpoint serde task u v file g frames C ∧
    Frame.Consecutive (framed serde) 1 (frames ++ [frame]) ∧
    v ⟨task, .chatJournal g⟩ =
      some (Frame.fileBytes (framed serde) (frames ++ [frame])) ∧
    Ahead task file C frame C' t' ∧ t'.unversioned = t.unversioned ∧
    file.storageSequence + 1 = s' ∧ s' < 2 ^ 64

/-- What the files stand for. -/
def Stores (v : Files) (C : Chat) (t : TaskRecord) (s : Nat) : Prop :=
  Committed serde task aligned u v C t s ∨ Pending serde task u v C t s

/-- Everything is accounted for and nothing is left over: what a commit starts from. -/
def Settled (v : Files) (C : Chat) (t : TaskRecord) (s : Nat) : Prop :=
  ∃ file g frames, Checkpoint serde task u v file g frames C ∧
    v ⟨task, .chatJournal g⟩ = journalBytes serde frames ∧
    file.task.unversioned = t.unversioned ∧ file.storageSequence = s ∧ s < 2 ^ 64 ∧
    (aligned → file.task.messageHistoryVersion = C.messageMeta.version)

end Store

variable {serde : Serde} {task : String} {aligned : Prop} {u v : Files} {d : Disk}
  {file : DurableTaskFile} {g : Option Nat} {frames : List ChatFrame} {C C' : Chat}
  {t t' : TaskRecord} {s : Nat}

theorem Settled.committed (h : Settled serde task aligned u v C t s) :
    Committed serde task aligned u v C t s := by
  obtain ⟨file, g, frames, hc, hj, hrest⟩ := h
  exact ⟨file, g, frames, hc, hj ▸ quiet_journalBytes serde hc.generation.numbered, hrest⟩

theorem Settled.stores (h : Settled serde task aligned u v C t s) :
    Stores serde task aligned u v C t s := .inl h.committed

/-! ## Files a checkpoint does not depend on -/

theorem set_elsewhere {p q : Path} (hp : IsSplitFile task p) (hq : ¬ IsSplitFile task q)
    (c : Option Bytes) : v.set p c q = v q := by
  refine set_of_ne v c fun heq => hq ?_
  rw [heq]
  exact hp

theorem Generation.congr {v' : Files} (h : Generation serde task v g frames C)
    (hv : v' ⟨task, .chatSnapshot g⟩ = v ⟨task, .chatSnapshot g⟩) :
    Generation serde task v' g frames C :=
  ⟨by rw [hv]; exact h.snapshot, h.numbered, h.noCreate⟩

theorem Checkpoint.set {p : Path} (h : Checkpoint serde task u v file g frames C)
    (hp : IsSplitFile task p) (htask : p ≠ ⟨task, .task⟩) (hsnapshot : p ≠ ⟨task, .chatSnapshot g⟩)
    (c : Option Bytes) : Checkpoint serde task u (v.set p c) file g frames C :=
  { h with
    taskFile := by rw [set_of_ne v c htask.symm, h.taskFile]
    generation := h.generation.congr (set_of_ne v c hsnapshot.symm)
    elsewhere := fun q hq => by rw [set_elsewhere hp hq, h.elsewhere q hq] }

theorem isSplitFile_journal (task : String) (g : Option Nat) :
    IsSplitFile task ⟨task, .chatJournal g⟩ := ⟨rfl, .inr ⟨g, .inr rfl⟩⟩

theorem isSplitFile_snapshot (task : String) (g : Option Nat) :
    IsSplitFile task ⟨task, .chatSnapshot g⟩ := ⟨rfl, .inr ⟨g, .inl rfl⟩⟩

theorem isSplitFile_task (task : String) : IsSplitFile task ⟨task, .task⟩ := ⟨rfl, .inl rfl⟩

theorem Checkpoint.set_journal (h : Checkpoint serde task u v file g frames C)
    (g' : Option Nat) (c : Option Bytes) :
    Checkpoint serde task u (v.set ⟨task, .chatJournal g'⟩ c) file g frames C :=
  h.set (isSplitFile_journal task g') (by simp) (by simp) c

theorem Checkpoint.publish (hg : Generation serde task v g frames C)
    (helse : ∀ p, ¬ IsSplitFile task p → v p = u p) {record : TaskRecord}
    (howner : record.taskId = task) (s : Nat) :
    Checkpoint serde task u
      (v.set ⟨task, .task⟩ (some (serde.taskFileToVec (Split.taskFile v task record s frames.length
        (.chatSnapshot g) (.chatJournal g)))))
      (Split.taskFile v task record s frames.length (.chatSnapshot g) (.chatJournal g)) g frames
      C where
  taskFile := set_self ..
  schema := rfl
  owner := howner
  cleared := TaskRecord.clear_clear record
  bytes := rfl
  snapshotName := rfl
  journalName := rfl
  count := rfl
  generation := hg.congr (set_of_ne _ _ (by simp))
  elsewhere := fun q hq => by rw [set_elsewhere (isSplitFile_task task) hq, helse q hq]

/-! ## Reading a checkpoint -/

/-- `task.json` as `load_task` returns it. -/
def metadataOf (file : DurableTaskFile) : TaskMetadata where
  task := file.task
  storageSequence := file.storageSequence
  chatSequence := file.chatSequence
  chatSnapshot := file.chatSnapshot
  chatJournal := file.chatJournal
  chatJournalBytes := file.chatJournalBytes

theorem parseTask_taskFileToVec (hschema : file.schemaVersion = TASK_SCHEMA_VERSION)
    (hcleared : file.task.clearProcessLocalAgentState = file.task) :
    parseTask serde (serde.taskFileToVec file) = .ok (metadataOf file) := by
  have htask : dropOptionCatalogs file.task = file.task := by
    rw [← hcleared]
    rfl
  simp only [parseTask, serde.taskFile_roundTrip, bind, Except.bind, validateSchema, hschema,
    if_true, htask]
  rfl

variable {snapshot : ChatSnapshotFile}

theorem parseChatSnapshot_snapshotToVec (h : snapshot.schemaVersion = CHAT_SCHEMA_VERSION) :
    parseChatSnapshot serde (serde.snapshotToVec snapshot) = .ok (snapshot, false) := by
  obtain ⟨value, hparse, hversion, hvalue⟩ := serde.snapshot_roundTrip snapshot
  have hu16 : (value.get? "schemaVersion").bind Json.asU16 = some CHAT_SCHEMA_VERSION := by
    rw [hversion, h]
    decide
  simp only [parseChatSnapshot, hparse, bind, Except.bind, hu16, if_true, hvalue, validateSchema, h]
  rfl

/-! ## Loading -/

/-- What a load returns for a stored state: the Chat and the sequence exactly, the record up to its
history version, and exactly if the two versions are kept aligned. -/
def Loaded (task : String) (aligned : Prop) (C : Chat) (t : TaskRecord) (s : Nat)
    (r : Option (TaskProjection × Nat)) : Prop :=
  ∃ R : TaskProjection, r = some (R, s) ∧ R.chat = C ∧ R.task.unversioned = t.unversioned ∧
    R.task.taskId = task ∧ (aligned → R.task.messageHistoryVersion = C.messageMeta.version)

variable {S : Files → Prop}

theorem leaves_settleJournal {J : Path} (hJ : J.file.isTemporary = false) (h : Shows d v)
    (hb : v J = some (Frame.fileBytes (framed serde) frames)) (hS : S v)
    (hS' : frames = [] → S (v.set J none)) :
    Leaves (settleJournal J frames.length) d S fun n v' =>
      n = ((journalBytes serde frames).getD []).length ∧
        v' = v.set J (journalBytes serde frames) := by
  unfold settleJournal journalBytes
  by_cases hnil : frames = []
  · subst hnil
    simp only [List.length_nil, if_true]
    refine (leaves_remove h hJ hb hS (hS' rfl)).bind fun _ d₁ v₁ h₁ hv₁ => ?_
    subst hv₁
    refine (leaves_sync h₁ (hS' rfl)).bind fun _ d₂ v₂ h₂ hv₂ => ?_
    subst hv₂
    exact leaves_pure h₂ (hS' rfl) ⟨rfl, rfl⟩
  · rw [if_neg (by simpa using hnil), if_neg hnil]
    refine (leaves_fileLength h hJ hb hS).mono (fun _ h => h) fun n v' hn => ⟨hn.1, ?_⟩
    rw [hn.2, ← hb, set_eq]

theorem finishLoad_eq {metadata : TaskMetadata} (hbytes : metadata.chatJournalBytes.isSome)
    (snapshot : ChatSnapshotFile) (projection : TaskProjection) :
    finishLoad serde task metadata snapshot false projection =
      .pure (some (projection, metadata.storageSequence)) := by
  obtain ⟨bytes, hb⟩ := Option.isSome_iff_exists.mp hbytes
  simp [finishLoad, rewriteMigrated, hb]

theorem settled_publish (hg : Generation serde task v g frames C)
    (helse : ∀ p, ¬ IsSplitFile task p → v p = u p)
    (hj : v ⟨task, .chatJournal g⟩ = journalBytes serde frames) {record : TaskRecord}
    (howner : record.taskId = task)
    (ht : record.clearProcessLocalAgentState.unversioned = t.unversioned) (hs : s < 2 ^ 64)
    (hal : aligned → record.messageHistoryVersion = C.messageMeta.version) :
    Settled serde task aligned u
      (v.set ⟨task, .task⟩ (some (serde.taskFileToVec (Split.taskFile v task record s frames.length
        (.chatSnapshot g) (.chatJournal g))))) C t s := by
  refine ⟨_, g, frames, Checkpoint.publish hg helse howner s, ?_, ht, rfl, hs, hal⟩
  rw [set_of_ne _ _ (by simp), hj]

/-- **The journal branch of a load**, from the complete frames found in the journal. -/
theorem leaves_loadJournal {found : List ChatFrame} {bytes : Bytes} {R : TaskProjection}
    (h : Shows d v) (hcp : Checkpoint serde task u v file g frames C)
    (hg : Generation serde task v g found C') (hle : frames.length ≤ found.length)
    (hb : v ⟨task, .chatJournal g⟩ = some bytes)
    (hparse : Frame.parseFile (framed serde) bytes =
      .ok (Frame.withEnds (framed serde) Frame.FILE_HEADER_LEN found))
    (hcut : bytes.take (Frame.completeLen
      (Frame.withEnds (framed serde) Frame.FILE_HEADER_LEN found)) =
      Frame.fileBytes (framed serde) found)
    (hrec : recoverFrames (metadataOf file) (snapshot.toChat.withTask file.task) found = .ok R)
    (hchat : R.chat = C') (hrecord : R.task.unversioned = t.unversioned)
    (hcleared : R.task.clearProcessLocalAgentState = R.task) (howner : R.task.taskId = task)
    (hversion : R.task.messageHistoryVersion = C'.messageMeta.version)
    (hs : file.storageSequence + (found.length - frames.length) = s) (hlt : s < 2 ^ 64)
    (hS : Stores serde task aligned u v C' t s) (hS' : Stores serde task aligned u
      (v.set ⟨task, .chatJournal g⟩ (some (Frame.fileBytes (framed serde) found))) C' t s)
    (hS'' : found = [] →
      Stores serde task aligned u (v.set ⟨task, .chatJournal g⟩ none) C' t s)
    (hdone : found.length = frames.length → Settled serde task aligned u
      (v.set ⟨task, .chatJournal g⟩ (journalBytes serde found)) C' t s) :
    Leaves (loadJournal serde task (metadataOf file) snapshot false
        (snapshot.toChat.withTask file.task)) d
      (fun v' => Stores serde task aligned u v' C' t s) fun r v' =>
        Loaded task aligned C' t s r ∧ Settled serde task aligned u v' C' t s := by
  have hloaded : Loaded task aligned C' t s (some (R, s)) :=
    ⟨R, rfl, hchat, hrecord, howner, fun _ => hversion⟩
  have hjournal : (metadataOf file).chatJournal = .chatJournal g := hcp.journalName
  have hsnapshot : (metadataOf file).chatSnapshot = .chatSnapshot g := hcp.snapshotName
  have hcount : (metadataOf file).chatSequence = frames.length := hcp.count
  unfold loadJournal
  simp only [hjournal, hsnapshot, hcount]
  refine (leaves_replayInternal h (p := ⟨task, .chatJournal g⟩) rfl hb hparse true hS
    (by rw [hcut]; exact hS')).bind fun r d₁ v₁ h₁ hv₁ => ?_
  obtain ⟨rfl, rfl⟩ := hv₁
  rw [hcut] at h₁
  have hreport : Frame.report true
      (Frame.withEnds (framed serde) Frame.FILE_HEADER_LEN found) =
      { frames := found
        frameEnds := (Frame.withEnds (framed serde) Frame.FILE_HEADER_LEN found).map
          Prod.snd
        frameCount := found.length } := by
    simp [Frame.report]
  simp only [hreport, if_neg (Nat.not_lt.mpr hle), hrec, Prog.ofExcept, Prog.bind_eq,
    Prog.bind_pure_left]
  refine (leaves_settleJournal rfl h₁ (set_self ..) hS' (by simpa using hS'')).bind
    fun n d₂ v₂ h₂ hv₂ => ?_
  obtain ⟨rfl, rfl⟩ := hv₂
  rw [set_set] at h₂
  -- the journal now holds exactly the frames that were found
  have hfound : (v.set ⟨task, .chatJournal g⟩ (journalBytes serde found))
      ⟨task, .chatJournal g⟩ = journalBytes serde found := set_self ..
  have hgen := hg.congr (set_of_ne v (journalBytes serde found)
    (show (⟨task, .chatSnapshot g⟩ : Path) ≠ ⟨task, .chatJournal g⟩ by simp))
  have helse : ∀ p, ¬ IsSplitFile task p →
      v.set ⟨task, .chatJournal g⟩ (journalBytes serde found) p = u p := fun p hp => by
    rw [set_elsewhere (isSplitFile_journal task g) hp, hcp.elsewhere p hp]
  have hstored : Stores serde task aligned u
      (v.set ⟨task, .chatJournal g⟩ (journalBytes serde found)) C' t s := by
    unfold journalBytes
    split
    · exact hS'' ‹_›
    · exact hS'
  split
  · -- the record is published with what was recovered
    have hcommit : R.task.clearProcessLocalAgentState.unversioned = t.unversioned := by
      rw [hcleared, hrecord]
    have hsettled : Settled serde task aligned u _ C' t s :=
      settled_publish hgen helse hfound howner hcommit hlt fun _ => hversion
    have hrepaired : saturatingAdd (metadataOf file).storageSequence
        (found.length - frames.length) = s := by
      show min (file.storageSequence + (found.length - frames.length)) (2 ^ 64 - 1) = s
      omega
    rw [hrepaired]
    refine (leaves_publishTask h₂ rfl hstored hsettled.stores).bind fun _ d₃ v₃ h₃ hv₃ => ?_
    subst hv₃
    exact leaves_pure h₃ hsettled.stores ⟨hloaded, hsettled⟩
  · rename_i hquiet
    have heq : found.length = frames.length := by
      simp only [Bool.or_eq_true, decide_eq_true_eq, not_or] at hquiet
      omega
    have hsame : (metadataOf file).storageSequence = s := by
      show file.storageSequence = s
      omega
    rw [finishLoad_eq hcp.bytes, hsame]
    exact leaves_pure h₂ hstored ⟨hloaded, hdone heq⟩

theorem Checkpoint.metadata_taskId (h : Checkpoint serde task u v file g frames C) :
    (metadataOf file).task.taskId = task := h.owner

theorem Generation.append {frame : ChatFrame} (h : Generation serde task v g frames C)
    (hnum : Frame.Consecutive (framed serde) 1 (frames ++ [frame]))
    (hframe : ∀ op ∈ frame.journal.operations, op.isCreate = false)
    (hchat : replayChat task C frame = .ok C') :
    Generation serde task v g (frames ++ [frame]) C' := by
  obtain ⟨snapshot, hschema, hfile, hfold⟩ := h.snapshot
  refine ⟨⟨snapshot, hschema, hfile, foldlM_concat_eq_ok.mpr ⟨C, hfold, hchat⟩⟩, hnum, ?_⟩
  intro f hf
  rcases List.mem_append.mp hf with hf | hf
  · exact h.noCreate f hf
  · rw [List.mem_singleton.mp hf]
    exact hframe

/-- A journal that has not even a header, at a checkpoint without frames. -/
def TornHeader (task : String) (v : Files) (g : Option Nat) (frames : List ChatFrame) : Prop :=
  frames = [] ∧ ∃ bytes, v ⟨task, .chatJournal g⟩ = some bytes ∧
    bytes.length < Frame.FILE_HEADER_LEN

theorem leaves_discardTornHeader (h : Shows d v) (hcp : Checkpoint serde task u v file g frames C)
    (hS : S v) (hS' : TornHeader task v g frames → S (v.set ⟨task, .chatJournal g⟩ none)) :
    Leaves (discardTornHeader task (metadataOf file)) d S fun _ v' =>
      (v' = v ∧ ¬ TornHeader task v g frames) ∨
        (v' = v.set ⟨task, .chatJournal g⟩ none ∧ TornHeader task v g frames) := by
  have hjournal : (metadataOf file).chatJournal = .chatJournal g := hcp.journalName
  have hcount : (metadataOf file).chatSequence = frames.length := hcp.count
  unfold discardTornHeader
  simp only [hjournal, hcount]
  by_cases hnil : frames = []
  · subst hnil
    simp only [List.length_nil, if_true]
    refine (leaves_isFile h rfl hS).bind fun b d₁ v₁ h₁ hv₁ => ?_
    obtain ⟨rfl, rfl⟩ := hv₁
    cases hb : v₁ ⟨task, .chatJournal g⟩ with
    | none =>
      refine leaves_pure h₁ hS (.inl ⟨rfl, fun ⟨_, bytes, hbytes, _⟩ => ?_⟩)
      cases hb.symm.trans hbytes
    | some bytes =>
      simp only [Option.isSome_some, if_true]
      refine (leaves_fileLength h₁ rfl hb hS).bind fun n d₂ v₂ h₂ hv₂ => ?_
      obtain ⟨rfl, rfl⟩ := hv₂
      split
      · rename_i hshort
        have htorn : TornHeader task v₂ g [] := ⟨rfl, bytes, hb, hshort⟩
        refine (leaves_remove h₂ rfl hb hS (hS' htorn)).bind fun _ d₃ v₃ h₃ hv₃ => ?_
        subst hv₃
        exact (leaves_sync h₃ (hS' htorn)).mono (fun _ h => h) fun _ v' hv' => .inr ⟨hv', htorn⟩
      · rename_i hlong
        refine leaves_pure h₂ hS (.inl ⟨rfl, fun ⟨_, bytes', hbytes, hshort⟩ => hlong ?_⟩)
        cases hb.symm.trans hbytes
        exact hshort
  · rw [if_neg (by simpa using hnil)]
    exact leaves_pure h hS (.inl ⟨rfl, fun htorn => hnil htorn.1⟩)

theorem leaves_loadProjection_of {T : Option (TaskProjection × Nat) → Files → Prop} (h : Shows d v)
    (hcp : Checkpoint serde task u v file g frames C)
    (hschema : snapshot.schemaVersion = CHAT_SCHEMA_VERSION)
    (hfile : v ⟨task, .chatSnapshot g⟩ = some (serde.snapshotToVec snapshot)) (hS : S v)
    (hS' : TornHeader task v g frames → S (v.set ⟨task, .chatJournal g⟩ none))
    (hjournal : ∀ d₁ v₁ bytes, Shows d₁ v₁ → ¬ TornHeader task v g frames → v₁ = v →
      v ⟨task, .chatJournal g⟩ = some bytes →
      Leaves (loadJournal serde task (metadataOf file) snapshot false
        (snapshot.toChat.withTask file.task)) d₁ S T)
    (hnone : ∀ v₁, v₁ ⟨task, .chatJournal g⟩ = none → (v₁ = v ∨
      v₁ = v.set ⟨task, .chatJournal g⟩ none ∧ TornHeader task v g frames) → frames = [] ∧ S v₁ ∧
      T (some (snapshot.toChat.withTask file.task, file.storageSequence)) v₁) :
    Leaves (loadProjection serde task) d S T := by
  have hsnapshot : (metadataOf file).chatSnapshot = .chatSnapshot g := hcp.snapshotName
  have hname : (metadataOf file).chatJournal = .chatJournal g := hcp.journalName
  have hcount : (metadataOf file).chatSequence = frames.length := hcp.count
  refine (leaves_loadTask h hcp.taskFile (parseTask_taskFileToVec hcp.schema hcp.cleared) hS).bind
    fun r d₁ v₁ h₁ hv₁ => ?_
  obtain ⟨rfl, rfl⟩ := hv₁
  simp only [hsnapshot, hname]
  refine (leaves_loadChatSnapshot h₁ rfl hfile (parseChatSnapshot_snapshotToVec hschema) hS).bind
    fun r d₂ v₂ h₂ hv₂ => ?_
  obtain ⟨rfl, rfl⟩ := hv₂
  refine (leaves_discardTornHeader h₂ hcp hS hS').bind fun _ d₃ v₃ h₃ hv₃ => ?_
  have hS₃ : S v₃ := by
    rcases hv₃ with ⟨rfl, _⟩ | ⟨rfl, htorn⟩
    · exact hS
    · exact hS' htorn
  refine (leaves_isFile h₃ rfl hS₃).bind fun b d₄ v₄ h₄ hv₄ => ?_
  obtain ⟨rfl, rfl⟩ := hv₄
  cases hb : v₄ ⟨task, .chatJournal g⟩ with
  | some bytes =>
    rcases hv₃ with ⟨rfl, hwhole⟩ | ⟨rfl, _⟩
    · exact hjournal d₄ _ bytes h₄ hwhole rfl hb
    · rw [set_self] at hb
      cases hb
  | none =>
    obtain ⟨hnil, _, hT⟩ := hnone v₄ hb (hv₃.imp And.left id)
    have hzero : ¬ 0 < (metadataOf file).chatSequence := by rw [hcount, hnil]; simp
    simp only [Option.isSome_none, Bool.false_eq_true, if_false, if_neg hzero]
    rw [finishLoad_eq hcp.bytes]
    exact leaves_pure h₄ hS₃ hT

theorem leaves_loadProjection_committed (h : Shows d v)
    (hc : Committed serde task aligned u v C t s) :
    Leaves (loadProjection serde task) d (fun v' => Stores serde task aligned u v' C t s)
      fun r v' => Loaded task aligned C t s r ∧ Settled serde task aligned u v' C t s := by
  have hstored : Stores serde task aligned u v C t s := .inl hc
  obtain ⟨file, g, frames, hcp, hquiet, ht, hs, hlt, hal⟩ := hc
  obtain ⟨snapshot, hschema, hfile, hfold⟩ := hcp.generation.snapshot
  -- the checkpoint with another journal that is quiet as well
  have hcommitted : ∀ journal, Quiet serde frames journal →
      Stores serde task aligned u (v.set ⟨task, .chatJournal g⟩ journal) C t s :=
    fun journal hj => .inl ⟨file, g, frames, hcp.set_journal g journal,
      by rw [set_self]; exact hj, ht, hs, hlt, hal⟩
  have hsettled : ∀ journal, journal = journalBytes serde frames →
      Settled serde task aligned u (v.set ⟨task, .chatJournal g⟩ journal) C t s :=
    fun journal hj => ⟨file, g, frames, hcp.set_journal g journal,
      by rw [set_self]; exact hj, ht, hs, hlt, hal⟩
  refine leaves_loadProjection_of h hcp hschema hfile hstored
    (fun htorn => hcommitted none (.absent htorn.1)) ?_ ?_
  · intro d₁ v₁ bytes h₁ hwhole hv₁ hb
    subst hv₁
    rw [hb] at hquiet
    cases hquiet with
    | tornHeader hnil hlen => exact absurd ⟨hnil, bytes, hb, hlen⟩ hwhole
    | @tornTail more k hnum hk hframes =>
      have hrec : recoverFrames (metadataOf file) (snapshot.toChat.withTask file.task) frames =
          .ok (C.withTask (file.task.withVersion C.messageMeta.version)) :=
        recoverFrames_checkpoint hcp.generation.numbered hcp.generation.noCreate hcp.count
          (by rw [hcp.metadata_taskId]; exact hfold)
      have hcut := Frame.take_completeLen (framed serde) (frames ++ more) hk
      simp only [hframes] at hcut
      refine leaves_loadJournal h₁ hcp hcp.generation le_rfl hb
        (by rw [Frame.parseFile_take hnum hk, hframes]) hcut hrec rfl ht ?_ hcp.owner rfl
        (by omega) hlt hstored ?_ ?_ fun _ => hsettled _ rfl
      · rw [Chat.task_withTask, TaskRecord.clear_withVersion, hcp.cleared]
      · exact hcommitted _ (quiet_fileBytes serde hcp.generation.numbered)
      · exact fun hnil => hcommitted none (.absent hnil)
  · intro v₁ hnone hv₁
    have hnil : frames = [] := by
      rcases hv₁ with rfl | ⟨_, htorn⟩
      · rw [hnone] at hquiet
        cases hquiet with
        | absent hnil => exact hnil
      · exact htorn.1
    obtain rfl : v₁ = v.set ⟨task, .chatJournal g⟩ none := by
      rcases hv₁ with rfl | ⟨hv₁, _⟩
      · rw [← hnone, set_eq]
      · exact hv₁
    subst hnil
    obtain rfl : snapshot.toChat = C := Except.ok.inj hfold
    have hloaded : Loaded task aligned snapshot.toChat t s
        (some (snapshot.toChat.withTask file.task, file.storageSequence)) :=
      ⟨_, by rw [hs], rfl, ht, hcp.owner, hal⟩
    exact ⟨rfl, hcommitted none (.absent rfl), hloaded, hsettled none rfl⟩

theorem leaves_loadProjection_pending (h : Shows d v) (hp : Pending serde task u v C t s) :
    Leaves (loadProjection serde task) d (fun v' => Stores serde task aligned u v' C t s)
      fun r v' => Loaded task aligned C t s r ∧ Settled serde task aligned u v' C t s := by
  have hstored : Stores serde task aligned u v C t s := .inr hp
  obtain ⟨file, g, frames, C₀, frame, t', hcp, hnum, hb, hahead, ht, hs, hlt⟩ := hp
  obtain ⟨snapshot, hschema, hfile, hfold⟩ := hcp.generation.snapshot
  have hlong : ¬ TornHeader task v g frames := by
    rintro ⟨_, bytes, hbytes, hshort⟩
    rw [hb] at hbytes
    cases hbytes
    simp [Frame.fileBytes] at hshort
  refine leaves_loadProjection_of h hcp hschema hfile hstored
    (fun htorn => absurd htorn hlong) ?_ ?_
  · intro d₁ v₁ bytes h₁ _ hv₁ hbytes
    subst hv₁
    obtain rfl := Option.some.inj (hb.symm.trans hbytes)
    have hgen := hcp.generation.append hnum hahead.noCreate hahead.chat
    have hrec : recoverFrames (metadataOf file) (snapshot.toChat.withTask file.task)
        (frames ++ [frame]) = .ok (C.withTask (t'.withVersion C.messageMeta.version)) :=
      recoverFrames_pending hnum hgen.noCreate hcp.count
        (by rw [hcp.metadata_taskId]; exact hfold)
        (by rw [hcp.metadata_taskId]; exact hahead.chat) hahead.patch
    have hsame : v₁.set ⟨task, .chatJournal g⟩
        (some (Frame.fileBytes (framed serde) (frames ++ [frame]))) = v₁ := by
      rw [← hb, set_eq]
    refine leaves_loadJournal h₁ hcp hgen (by simp) hb (Frame.parseFile_fileBytes hnum) ?_ hrec rfl
      ht ?_ hahead.owner rfl (by simpa using hs) hlt hstored (by rw [hsame]; exact hstored)
      (fun hnil => absurd hnil (by simp)) fun hlen => absurd hlen (by simp)
    · rw [← Frame.length_fileBytes, List.take_length]
    · rw [Chat.task_withTask, TaskRecord.clear_withVersion, hahead.cleared]
  · intro v₁ hnone hv₁
    rcases hv₁ with rfl | ⟨_, htorn⟩
    · cases hb.symm.trans hnone
    · exact absurd htorn hlong

/-- **Loading a store** returns what it stores and settles it; interrupted anywhere, it leaves the
same stored. -/
theorem leaves_loadProjection (h : Shows d v) (hstored : Stores serde task aligned u v C t s) :
    Leaves (loadProjection serde task) d (fun v' => Stores serde task aligned u v' C t s)
      fun r v' => Loaded task aligned C t s r ∧ Settled serde task aligned u v' C t s := by
  rcases hstored with hc | hp
  · exact leaves_loadProjection_committed h hc
  · exact leaves_loadProjection_pending h hp

end OpenAide.Split

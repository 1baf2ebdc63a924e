import OpenAide.Storage.SplitReplay

/-!
# What the programs of the split store leave on disk

The files of a disk that recovery can see are all but the temporary ones (`visible`).  `Shows d v`
says that these are `v`, and that no file is named after an identifier still to be handed out.
Each program of `Split` gets one lemma about every run of it: the visible files it can be
interrupted at, and those it returns with.  Nothing after this module unfolds a program that
writes.
-/

namespace OpenAide

open Library

/-- The visible files of a disk. -/
abbrev Files := Path → Option Bytes

def visible (d : Disk) : Files := fun p => if p.file.isTemporary then none else d.files p

/-- Identifiers that have not been handed out name no file. -/
def Fresh (d : Disk) : Prop := ∀ p id, p.file.id? = some id → d.nextId ≤ id → d.files p = none

/-- The visible files are `v`, and unused identifiers are unused. -/
structure Shows (d : Disk) (v : Files) : Prop where
  files : visible d = v
  fresh : Fresh d

/-- The files with one of them changed. -/
def Files.set (v : Files) (p : Path) (content : Option Bytes) : Files := Function.update v p content

@[simp] theorem Files.set_self (v : Files) (p : Path) (c : Option Bytes) : v.set p c p = c :=
  Function.update_self ..

@[simp] theorem Files.set_of_ne (v : Files) {p q : Path} (c : Option Bytes) (h : q ≠ p) :
    v.set p c q = v q :=
  Function.update_of_ne h ..

@[simp] theorem Files.set_set (v : Files) (p : Path) (c c' : Option Bytes) :
    (v.set p c).set p c' = v.set p c' :=
  Function.update_idem ..

theorem Files.set_eq (v : Files) (p : Path) : v.set p (v p) = v := Function.update_eq_self ..

variable {bytes : Bytes}

namespace Shows

variable {d : Disk} {v : Files} (h : Shows d v)

include h

theorem next : Shows { d with nextId := d.nextId + 1 } v where
  files := h.files
  fresh q id hq hge := h.fresh q id hq (Nat.le_of_succ_le hge)

theorem set_temporary {task : String} {id : Nat} (hid : id < d.nextId) (c : Option Bytes) :
    Shows (d.set ⟨task, .temporary id⟩ c) v where
  files := by
    funext q
    by_cases hq : q = ⟨task, .temporary id⟩
    · subst hq
      rw [← h.files]
      rfl
    · rw [← h.files, visible, visible, FileSystem.set_files_of_ne d c hq]
  fresh := by
    intro q id' hq hge
    by_cases hqp : q = ⟨task, .temporary id⟩
    · subst hqp
      cases hq
      exact absurd hid (Nat.not_lt.mpr hge)
    · rw [FileSystem.set_files_of_ne d c hqp]
      exact h.fresh q id' hq hge

variable {p : Path} (hp : p.file.isTemporary = false)

include hp

theorem read : d.files p = v p := by
  rw [← h.files, visible, if_neg (by simp [hp])]

theorem id_lt (hb : v p = some bytes) {id : Nat} (hid : p.file.id? = some id) : id < d.nextId := by
  by_contra hge
  have := h.fresh p id hid (Nat.le_of_not_lt hge)
  rw [h.read hp, hb] at this
  cases this

theorem set (hid : ∀ id, p.file.id? = some id → id < d.nextId) (c : Option Bytes) :
    Shows (d.set p c) (v.set p c) where
  files := by
    funext q
    by_cases hq : q = p
    · subst hq
      simp [visible, hp]
    · rw [Files.set_of_ne v c hq, ← h.files, visible, visible, FileSystem.set_files_of_ne d c hq]
  fresh := by
    intro q id hq hge
    by_cases hqp : q = p
    · subst hqp
      exact absurd (hid id hq) (Nat.not_lt.mpr hge)
    · rw [FileSystem.set_files_of_ne d c hqp]
      exact h.fresh q id hq hge

theorem set_existing (hb : v p = some bytes) (c : Option Bytes) : Shows (d.set p c) (v.set p c) :=
  h.set hp (fun _ hid => h.id_lt hp hb hid) c

end Shows

namespace Split

open Prog

variable {d : Disk} {v : Files} {p : Path}

/-! ## Single steps -/

/-- Every run of a program leaves visible files with `S` if it is cut short, and with `T` of its
value if it returns; without faults it returns. -/
abbrev Leaves {α : Type} (program : DiskProg α) (d : Disk) (S : Files → Prop)
    (T : α → Files → Prop) : Prop :=
  program.Total d (Post (fun d' => ∃ v, Shows d' v ∧ S v) fun a d' => ∃ v, Shows d' v ∧ T a v)

variable {S : Files → Prop} {α : Type}

variable {T : α → Files → Prop}

theorem leaves_pure {a : α} (h : Shows d v) (hS : S v) (hT : T a v) : Leaves (.pure a) d S T :=
  .of_pure ⟨v, h, hT⟩ ⟨v, h, hS⟩

variable {program : DiskProg α}

/-- Sequencing. -/
theorem Leaves.bind {β : Type} {next : α → DiskProg β} {U : β → Files → Prop}
    (h : Leaves program d S T) (hnext : ∀ a d' v', Shows d' v' → T a v' → Leaves (next a) d' S U) :
    Leaves (program.bind next) d S U :=
  h.bind_post fun a d' ⟨v', hv', hT⟩ => hnext a d' v' hv' hT

theorem Leaves.mono {S' : Files → Prop} {T' : α → Files → Prop} (h : Leaves program d S T)
    (hS : ∀ v, S v → S' v) (hT : ∀ a v, T a v → T' a v) : Leaves program d S' T' :=
  Total.mono h fun _ _ hpost => hpost.mono (fun _ ⟨v, hv, hs⟩ => ⟨v, hv, hS v hs⟩)
    fun a _ ⟨v, hv, ht⟩ => ⟨v, hv, hT a v ht⟩

/-- The same without the promise to return. -/
abbrev Ends {α : Type} (program : DiskProg α) (d : Disk) (S : Files → Prop)
    (T : α → Files → Prop) : Prop :=
  program.Ensures d (Post (fun d' => ∃ v, Shows d' v ∧ S v) fun a d' => ∃ v, Shows d' v ∧ T a v)

theorem Ends.bind {β : Type} {next : α → DiskProg β} {U : β → Files → Prop} (h : Ends program d S T)
    (hnext : ∀ a d' v', Shows d' v' → T a v' → Ends (next a) d' S U) :
    Ends (program.bind next) d S U :=
  h.bind_post fun a d' ⟨v', hv', hT⟩ => hnext a d' v' hv' hT

theorem Ends.mono {S' : Files → Prop} {T' : α → Files → Prop} (h : Ends program d S T)
    (hS : ∀ v, S v → S' v) (hT : ∀ a v, T a v → T' a v) : Ends program d S' T' :=
  Ensures.mono h fun _ _ hpost => hpost.mono (fun _ ⟨v, hv, hs⟩ => ⟨v, hv, hS v hs⟩)
    fun a _ ⟨v, hv, ht⟩ => ⟨v, hv, hT a v ht⟩

theorem Leaves.ends {program : DiskProg α} {T : α → Files → Prop} (h : Leaves program d S T) :
    Ends program d S T := h.1

theorem leaves_sync (h : Shows d v) (hS : S v) : Leaves (sys .sync) d S fun _ v' => v' = v := by
  have hdone : d.perform .sync = .ok d := rfl
  refine FileProg.total_perform hdone (fun d' ht => ?_) ⟨v, h, rfl⟩
  obtain rfl := FileSystem.torn_sync ht
  exact ⟨⟨v, h, hS⟩, fun _ => ⟨v, h, hS⟩⟩

/-- Taking an identifier. -/
theorem leaves_freshId {next : Nat → DiskProg α} (h : Shows d v) (hS : S v)
    (hnext : Leaves (next d.nextId) { d with nextId := d.nextId + 1 } S T) :
    Leaves (FileProg.freshId.bind next) d S T :=
  .of_read ⟨.of_modify ⟨v, h, hS⟩ hnext.1, hnext.2⟩

section Steps

variable (h : Shows d v) (hp : p.file.isTemporary = false)

include h hp

/-- Asking for a file. -/
theorem leaves_isFile (hS : S v) : Leaves (isFile p) d S fun b v' => b = (v p).isSome ∧ v' = v := by
  refine .of_read (leaves_pure h hS ⟨?_, rfl⟩)
  rw [h.read hp]

theorem leaves_inspect {ok : DiskProg α} {err : IoErrorKind → DiskProg α} (hb : v p = some bytes)
    (hok : Leaves ok d S T) (herr : ∀ e, e ≠ .notFound → ∃ e', err e = .throw e') (hS : S v) :
    Leaves (.act (.access p) ok err) d S T := by
  have hdone : d.perform (.access p) = .ok d := by simp [FileSystem.perform, h.read hp, hb]
  refine .of_act hdone (fun d' ht => ?_) hok
  obtain rfl := FileSystem.torn_access ht
  refine ⟨⟨v, h, hS⟩, fun e hf => ?_⟩
  obtain ⟨e', he'⟩ := herr e hf.1
  rw [he']
  exact .of_throw ⟨v, h, hS⟩ ⟨v, h, hS⟩

theorem leaves_fileLength (hb : v p = some bytes) (hS : S v) :
    Leaves (fileLength p) d S fun n v' => n = bytes.length ∧ v' = v := by
  refine leaves_inspect h hp hb (.of_read (leaves_pure h hS ⟨?_, rfl⟩)) (fun e _ => ⟨_, rfl⟩) hS
  rw [h.read hp, hb]
  rfl

theorem leaves_fileLengthOrZero (hS : S v) :
    Leaves (fileLengthOrZero p) d S fun n v' => n = ((v p).getD []).length ∧ v' = v := by
  cases hb : v p with
  | some bytes =>
    refine leaves_inspect h hp hb (.of_read (leaves_pure h hS ⟨?_, rfl⟩))
      (fun e he => ⟨_, if_neg he⟩) hS
    rw [h.read hp, hb]
  | none =>
    have hgone : d.perform (.access p) = .error .notFound := by
      simp [FileSystem.perform, h.read hp, hb]
    refine .of_act_refused hgone (fun d' ht => ?_) (leaves_pure h hS ⟨rfl, rfl⟩)
    obtain rfl := FileSystem.torn_access ht
    refine ⟨⟨v, h, hS⟩, fun e hf => ?_⟩
    rw [if_neg hf.1]
    exact .of_throw ⟨v, h, hS⟩ ⟨v, h, hS⟩

theorem torn_remove (hS : S v) (hS' : S (v.set p none)) {d' : Disk} (ht : d.Torn (.remove p) d') :
    ∃ v, Shows d' v ∧ S v := by
  cases ht with
  | untouched => exact ⟨v, h, hS⟩
  | finished hd =>
    simp only [FileSystem.perform, h.read hp] at hd
    split at hd
    · rename_i hb
      cases hd
      exact ⟨_, h.set_existing hp hb none, hS'⟩
    · cases hd

theorem leaves_remove (hb : v p = some bytes) (hS : S v) (hS' : S (v.set p none)) :
    Leaves (sys (.remove p)) d S fun _ v' => v' = v.set p none := by
  have hdone : d.perform (.remove p) = .ok (d.set p none) := by
    simp [FileSystem.perform, h.read hp, hb]
  refine FileProg.total_perform hdone (fun d' ht => ?_) ⟨_, h.set_existing hp hb none, rfl⟩
  have hleft := torn_remove h hp hS hS' ht
  exact ⟨hleft, fun _ => hleft⟩

theorem leaves_removeIfPresent (hS : S v) (hS' : S (v.set p none)) :
    Leaves (removeIfPresent p) d S fun _ v' => v' = v.set p none := by
  have htorn : ∀ d', d.Torn (.remove p) d' → (∃ v, Shows d' v ∧ S v) ∧ ∀ e ≠ .notFound,
      (if e = .notFound then .pure () else .throw (ioFailure e) : DiskProg Unit).Ensures d'
        (Post (fun d' => ∃ v, Shows d' v ∧ S v) fun _ d' =>
          ∃ v', Shows d' v' ∧ v' = v.set p none) := by
    intro d' ht
    have hleft := torn_remove h hp hS hS' ht
    refine ⟨hleft, fun e he => ?_⟩
    rw [if_neg he]
    exact .of_throw hleft hleft
  cases hb : v p with
  | some bytes =>
    have hdone : d.perform (.remove p) = .ok (d.set p none) := by
      simp [FileSystem.perform, h.read hp, hb]
    exact .of_act hdone (fun d' ht => (htorn d' ht).imp_right fun hfault e hf => hfault e hf.1)
      (leaves_pure (h.set_existing hp hb none) hS' rfl)
  | none =>
    have hgone : d.perform (.remove p) = .error .notFound := by
      simp [FileSystem.perform, h.read hp, hb]
    have hsame : v.set p none = v := by rw [← hb, Files.set_eq]
    exact .of_act_refused hgone
      (fun d' ht => (htorn d' ht).imp_right fun hfault e hf => hfault e hf.1)
      (leaves_pure h hS hsame.symm)

/-- **Replacing a file**: interrupted with the old one or the new one, returned with the new one. -/
theorem leaves_durableReplace (hid : ∀ id, p.file.id? = some id → id < d.nextId) (bytes : Bytes)
    (hS : S v) (hS' : S (v.set p (some bytes))) :
    Leaves (durableReplace p bytes) d S fun _ v' => v' = v.set p (some bytes) := by
  have hnext := h.next
  have hnew : ({ d with nextId := d.nextId + 1 } : Disk).files ⟨p.task, .temporary d.nextId⟩ =
    none := h.fresh ⟨p.task, .temporary d.nextId⟩ d.nextId rfl le_rfl
  have hne : (⟨p.task, .temporary d.nextId⟩ : Path) ≠ p := by
    intro heq
    rw [← heq] at hp
    cases hp
  have htemporary : ∀ content, Shows
      (FileSystem.set { d with nextId := d.nextId + 1 } ⟨p.task, .temporary d.nextId⟩ content) v :=
    fun content => hnext.set_temporary (Nat.lt_succ_self _) content
  have htarget : ∀ content, Shows ((FileSystem.set { d with nextId := d.nextId + 1 } p
      (some bytes)).set ⟨p.task, .temporary d.nextId⟩ content) (v.set p (some bytes)) :=
    fun content => (hnext.set hp (fun id h => Nat.lt_succ_of_lt (hid id h)) _).set_temporary
      (Nat.lt_succ_self _) content
  refine leaves_freshId h hS ?_
  refine (FileProg.total_replaceFile hne hnew).mono fun o d' hd' => ?_
  rcases hd' with ⟨ho, c, rfl⟩ | ⟨c, rfl⟩
  · exact .of ⟨v, htemporary c, hS⟩ fun _ hok => absurd hok ho
  · exact .of ⟨_, htarget c, hS'⟩ fun _ _ => ⟨_, htarget c, rfl⟩

end Steps

/-! ## Metadata and snapshot -/

section Metadata

variable (h : Shows d v)

include h

theorem leaves_ofExcept {x : Except RuntimeError α} {a : α} (hx : x = .ok a) (hS : S v) :
    Leaves (.ofExcept x) d S fun b v' => b = a ∧ v' = v := by
  subst hx
  exact leaves_pure h hS ⟨rfl, rfl⟩

variable {serde : Serde} {task : String}

section Task

variable (hb : v ⟨task, .task⟩ = some bytes) {metadata : TaskMetadata}
  (hm : parseTask serde bytes = .ok metadata) (hS : S v)

include hb hm hS

theorem leaves_loadTask :
    Leaves (loadTask serde task) d S fun r v' => r = some metadata ∧ v' = v := by
  refine leaves_inspect h rfl hb (.of_read ?_) (fun e he => ⟨_, if_neg he⟩) hS
  rw [h.read rfl, hb, Option.getD_some, hm]
  exact leaves_pure h hS ⟨rfl, rfl⟩

theorem leaves_requireTask :
    Leaves (requireTask serde task) d S fun r v' => r = metadata ∧ v' = v := by
  refine (leaves_loadTask h hb hm hS).bind fun r d' v' hv' hr => ?_
  obtain ⟨rfl, rfl⟩ := hr
  exact leaves_pure hv' hS ⟨rfl, rfl⟩

end Task

theorem leaves_readFile (hp : p.file.isTemporary = false) (hb : v p = some bytes) (hS : S v) :
    Leaves (FileProg.readFile p ioFailure) d S fun r v' => r = bytes ∧ v' = v := by
  refine leaves_inspect h hp hb (.of_read (leaves_pure h hS ⟨?_, rfl⟩)) (fun e _ => ⟨_, rfl⟩) hS
  rw [h.read hp, hb]
  rfl

theorem leaves_loadChatSnapshot (hp : p.file.isTemporary = false) (hb : v p = some bytes)
    {snapshot : ChatSnapshotFile × Bool} (hs : parseChatSnapshot serde bytes = .ok snapshot)
    (hS : S v) : Leaves (loadChatSnapshot serde p) d S fun r v' => r = snapshot ∧ v' = v := by
  refine (leaves_readFile h hp hb hS).bind fun r d' v' hv' hr => ?_
  obtain ⟨rfl, rfl⟩ := hr
  exact leaves_ofExcept hv' hs hS

/-- The `task.json` a publication writes over the given files. -/
def taskFile (v : Files) (task : String) (record : TaskRecord) (storageSequence chatSequence : Nat)
    (chatSnapshot chatJournal : FileName) : DurableTaskFile where
  schemaVersion := TASK_SCHEMA_VERSION
  storageSequence := storageSequence
  chatSequence := chatSequence
  chatSnapshot := chatSnapshot
  chatJournal := chatJournal
  chatJournalBytes := some ((v ⟨task, chatJournal⟩).getD []).length
  task := record.clearProcessLocalAgentState

theorem leaves_publishTask {record : TaskRecord} {storageSequence chatSequence : Nat}
    {chatSnapshot chatJournal : FileName} (hj : chatJournal.isTemporary = false) (hS : S v)
    (hS' : S (v.set ⟨task, .task⟩ (some (serde.taskFileToVec
      (taskFile v task record storageSequence chatSequence chatSnapshot chatJournal))))) :
    Leaves (publishTask serde task record storageSequence chatSequence chatSnapshot chatJournal) d S
      fun _ v' => v' = v.set ⟨task, .task⟩ (some (serde.taskFileToVec
        (taskFile v task record storageSequence chatSequence chatSnapshot chatJournal))) := by
  refine (leaves_fileLengthOrZero h (p := ⟨task, chatJournal⟩) hj hS).bind fun n d' v' hv' hn => ?_
  obtain ⟨rfl, rfl⟩ := hn
  exact leaves_durableReplace hv' rfl (fun id hid => by cases hid) _ hS hS'

/-! ## The Chat journal -/

section Journal

variable {T : Type} {record : Frame.FramedRecord T}

theorem ends_frameAppend_tooLarge {frame : T}
    (hlarge : Frame.MAX_FRAME_BYTES < (record.toVec frame).length) (hS : S v)
    {Q : Unit → Files → Prop} : Ends (Frame.append record p frame) d S Q := by
  refine (Frame.ensures_append_tooLarge hlarge).mono fun o d' hd' => ?_
  obtain ⟨rfl, ho⟩ := hd'
  exact .of ⟨v, h, hS⟩ fun _ hok => absurd hok ho

section Written

variable (hp : p.file.isTemporary = false)

include hp

theorem leaves_replayInternal (hb : v p = some bytes) {found : List (T × Nat)}
    (hparse : Frame.parseFile record bytes = .ok found) (retain : Bool) (hS : S v)
    (hS' : S (v.set p (some (bytes.take (Frame.completeLen found))))) :
    Leaves (Frame.replayInternal record p retain) d S fun r v' =>
      r = Frame.report retain found ∧
        v' = v.set p (some (bytes.take (Frame.completeLen found))) := by
  have hfile : d.files p = some bytes := by rw [h.read hp, hb]
  have hshows := h.set_existing hp hb (some (bytes.take (Frame.completeLen found)))
  constructor
  · refine (Frame.ensures_replayInternal hfile hparse retain).mono fun o d' hd' => ?_
    have hleft : ∃ v, Shows d' v ∧ S v := by
      rcases hd'.1 with rfl | rfl
      · exact ⟨v, h, hS⟩
      · exact ⟨_, hshows, hS'⟩
    refine .of hleft fun r hr => ?_
    obtain ⟨hr, rfl⟩ := hd'.2 r hr
    exact ⟨_, hshows, hr, rfl⟩
  · exact ⟨_, by rw [Frame.exec_replayInternal hfile hparse retain]⟩

theorem ends_frameAppend {content : Bytes} (hb : v p = some content) {frame : T}
    (hfits : (record.toVec frame).length ≤ Frame.MAX_FRAME_BYTES)
    (hS : ∀ k, S (v.set p (some (content ++ (Frame.frameBytes record frame).take k)))) :
    Ends (Frame.append record p frame) d S fun _ v' =>
      v' = v.set p (some (content ++ Frame.frameBytes record frame)) := by
  have hfile : d.files p = some content := by rw [h.read hp, hb]
  refine (Frame.ensures_append hfile hfits).mono fun o d' hd' => ?_
  obtain ⟨k, rfl, hall⟩ := hd'
  refine .of ⟨_, h.set_existing hp hb _, hS k⟩ fun _ hok => ⟨_, h.set_existing hp hb _, ?_⟩
  rw [List.take_of_length_le (hall hok)]

theorem ends_frameCreate (hid : ∀ id, p.file.id? = some id → id < d.nextId) (hb : v p = none)
    {frame : T} (hfits : (record.toVec frame).length ≤ Frame.MAX_FRAME_BYTES) (hS : S v)
    (hS' : ∀ k, S (v.set p (some ((Frame.fileBytes record [frame]).take k)))) :
    Ends (Frame.create record p frame) d S fun _ v' =>
      v' = v.set p (some (Frame.fileBytes record [frame])) := by
  have hfile : d.files p = none := by rw [h.read hp, hb]
  refine (Frame.ensures_create hfile hfits).mono fun o d' hd' => ?_
  rcases hd' with ⟨rfl, ho⟩ | ⟨k, rfl, hall⟩
  · exact .of ⟨v, h, hS⟩ fun _ hok => absurd hok ho
  · rw [FileSystem.set_set, List.nil_append]
    have hshows := h.set hp hid (some ((Frame.fileBytes record [frame]).take k))
    refine .of ⟨_, hshows, hS' k⟩ fun _ hok => ⟨_, hshows, ?_⟩
    rw [List.take_of_length_le (hall hok)]

theorem ends_frameCreate_tooLarge (hid : ∀ id, p.file.id? = some id → id < d.nextId)
    (hb : v p = none) {frame : T} (hlarge : Frame.MAX_FRAME_BYTES < (record.toVec frame).length)
    (hS : S v) (hS' : ∀ k, S (v.set p (some (Frame.fileHeader.take k)))) {Q : Unit → Files → Prop} :
    Ends (Frame.create record p frame) d S Q := by
  have hfile : d.files p = none := by rw [h.read hp, hb]
  refine (Frame.ensures_create_tooLarge hfile hlarge).mono fun o d' hd' => ?_
  have hleft : ∃ v, Shows d' v ∧ S v := by
    rcases hd'.1 with ⟨rfl, _⟩ | ⟨k, rfl, _⟩
    · exact ⟨v, h, hS⟩
    · rw [FileSystem.set_set, List.nil_append]
      exact ⟨_, h.set hp hid _, hS' k⟩
  exact .of hleft fun _ hok => absurd hok hd'.2

end Written

end Journal

end Metadata

end Split

end OpenAide

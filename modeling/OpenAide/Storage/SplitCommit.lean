import OpenAide.Storage.SplitRecovery

/-!
# Commits and compactions of the split store

What the writing programs of `Split` do to a settled store, whatever interrupts them.

* `ends_append`: an interrupted commit leaves the state before it or the state after it stored, and
  the latter as soon as its Chat frame is complete.
* `leaves_compact`: a compaction, interrupted or not, changes nothing that is stored.
* `leaves_publishInitial`: an interrupted creation leaves no `task.json` or the whole store.

All three start from what the in-memory projection of the worker stands for: a settled store with
its Chat, its cleared record and its sequence.
-/

namespace OpenAide.Split

open Library Projection
open ChatFrame (decode framed)
open TaskRecord

/-! ## The frame of a commit -/

theorem decode_chatFrame {serde : Serde} {frame : ChatFrame}
    (h : frame.journal.schemaVersion = CHAT_SCHEMA_VERSION) :
    decode serde (serde.chatFrameToVec frame) = .ok frame := by
  obtain ⟨value, patch, hparse, hversion, hjournal, hpatch, htask⟩ :=
    serde.chatFrame_roundTrip frame
  have hschema : ((value.get? "schema_version").bind Json.asU16).getD 1 = CHAT_SCHEMA_VERSION := by
    rw [hversion, h]
    decide
  simp only [decode, JournalFrame.decode, hparse, bind, Except.bind, hschema, if_true,
    hjournal, hpatch, htask]
  rfl

theorem replayable_chatFrame {serde : Serde} {before after : TaskRecord}
    {operations : List TaskOperation} {n : Nat}
    (hfits : (serde.chatFrameToVec (chatFrame before after operations n)).length ≤
      Frame.MAX_FRAME_BYTES) :
    Frame.Replayable (framed serde) n (chatFrame before after operations n) where
  decode_toVec := decode_chatFrame rfl
  fits := hfits
  version := rfl
  sequence := rfl

/-- A commit the store accepts: `operations` are valid for `P` and lead to `P'`. -/
structure Commit (task : String) (P : TaskProjection) (s : Nat) (operations : List TaskOperation)
    (P' : TaskProjection) : Prop where
  valid : validateOperations (some (.available P s)) task operations = .ok ()
  applied : applyOperations (some (.available P s)) task operations (s + 1) =
    .ok (.available P' (s + 1))
  recoverable : TaskOperation.recoverable operations
  sequence : s + 1 < 2 ^ 64

namespace Commit

variable {task : String} {P P' : TaskProjection} {s : Nat} {operations : List TaskOperation}

theorem noCreate (h : Commit task P s operations P') : ∀ op ∈ operations, op.isCreate = false :=
  fun op hop => (validateOperations_available h.valid op hop).1

theorem chat (h : Commit task P s operations P') :
    applyChat task P.chat operations = .ok P'.chat := by
  obtain ⟨c, hc, heq⟩ := applyOperations_eq_ok h.noCreate h.applied
  cases heq
  exact hc

theorem record (h : Commit task P s operations P') :
    P'.task.unversioned = (lastTask P.task operations).unversioned := by
  obtain ⟨c, _, heq⟩ := applyOperations_eq_ok h.noCreate h.applied
  cases heq
  exact unversioned_applyTask h.noCreate _ _

theorem owner (h : Commit task P s operations P') (howner : P.task.taskId = task) :
    P'.task.taskId = task := by
  rw [taskId_of_unversioned_eq h.record]
  exact taskId_lastTask (fun op hop => (validateOperations_available h.valid op hop).2) howner

/-- **The frame of a commit leads to the state after it**: its operations rebuild the Chat, and its
patch the record, from the record `task.json` has. -/
theorem ahead (h : Commit task P s operations P') (howner : P.task.taskId = task)
    {file : DurableTaskFile} (hfile : file.task.taskId = task) (n : Nat) :
    ∃ t', Ahead task file P.chat (chatFrame file.task P'.task (durableChatOperations operations) n)
      P'.chat t' ∧ t'.unversioned = P'.task.clearProcessLocalAgentState.unversioned := by
  have hreplayed : (applyTask file.task (durableChatOperations operations)
      P'.chat.messageMeta.version).unversioned =
      (lastTask file.task (durableChatOperations operations)).unversioned :=
    unversioned_applyTask (durable_noCreate operations) _ _
  have htarget : P'.task.clearProcessLocalAgentState.unversioned =
      (lastTask P.task operations).clearProcessLocalAgentState.unversioned :=
    unversioned_clear_of_eq h.record
  -- replaying the frame has left the record alone or put the commit's own in its place
  have hcases : (applyTask file.task (durableChatOperations operations)
        P'.chat.messageMeta.version).unversioned = file.task.unversioned ∨
      (applyTask file.task (durableChatOperations operations)
        P'.chat.messageMeta.version).unversioned =
        P'.task.clearProcessLocalAgentState.unversioned := by
    rcases lastTask_durable h.recoverable with hsame | hlast
    · exact .inl (by rw [hreplayed, hsame])
    · exact .inr (by rw [hreplayed, hlast file.task P.task, htarget])
  have hid : (applyTask file.task (durableChatOperations operations)
      P'.chat.messageMeta.version).taskId = P'.task.taskId := by
    rw [h.owner howner]
    rcases hcases with hsame | hlast
    · rw [taskId_of_unversioned_eq hsame, hfile]
    · rw [taskId_of_unversioned_eq hlast, clear_taskId, h.owner howner]
  obtain ⟨version, hpatch⟩ := TaskMetadataPatch.apply_patch hcases hid
  refine ⟨_, ⟨durable_noCreate operations, ?_, hpatch, ?_, ?_⟩, ?_⟩
  · show applyChat task P.chat (durableChatOperations operations) = .ok P'.chat
    rw [applyChat_durable task h.noCreate, h.chat]
  · rw [taskId_withVersion, clear_taskId, h.owner howner]
  · rw [clear_withVersion, clear_clear]
  · rw [unversioned_withVersion]

end Commit

/-! ## Appending -/

section Append

variable {serde : Serde} {task : String} {aligned : Prop} {u v : Files} {d : Disk}
  {file : DurableTaskFile} {g : Option Nat} {frames : List ChatFrame} {frame : ChatFrame}

theorem quiet_torn (hnum : Frame.Consecutive (framed serde) 1 (frames ++ [frame]))
    {k : Nat} (hge : frames = [] ∨ (Frame.fileBytes (framed serde) frames).length ≤ k)
    (hlt : k < (Frame.fileBytes (framed serde) (frames ++ [frame])).length) :
    Quiet serde frames
      (some ((Frame.fileBytes (framed serde) (frames ++ [frame])).take k)) := by
  by_cases hk : Frame.FILE_HEADER_LEN ≤ k
  · refine .tornTail hnum hk (Frame.wholeFrames_torn ?_ hlt)
    rcases hge with rfl | hge
    · simpa [Frame.fileBytes] using hk
    · exact hge
  · have hheader : Frame.FILE_HEADER_LEN ≤
        (Frame.fileBytes (framed serde) frames).length := by simp [Frame.fileBytes]
    refine .tornHeader (hge.resolve_right (by omega)) ?_
    rw [List.length_take]
    omega

/-- The journal `task.json` names has grown by the whole frame of the commit to `P'`. -/
def FrameComplete (serde : Serde) (task : String) (operations : List TaskOperation)
    (P' : TaskProjection) (v v' : Files) : Prop :=
  ∃ bytes metadata, v ⟨task, .task⟩ = some bytes ∧ parseTask serde bytes = .ok metadata ∧
    v' ⟨task, metadata.chatJournal⟩ =
      some ((v ⟨task, metadata.chatJournal⟩).getD Frame.fileHeader ++
        Frame.frameBytes (framed serde) (chatFrame metadata.task P'.task
          (durableChatOperations operations) (metadata.chatSequence + 1)))

theorem quiet_header (k : Nat) : Quiet serde [] (some (Frame.fileHeader.take k)) := by
  by_cases hk : Frame.FILE_HEADER_LEN ≤ k
  · rw [List.take_of_length_le (by simpa using hk)]
    have hnil : Frame.fileHeader = Frame.fileBytes (framed serde) [] := by
      simp [Frame.fileBytes]
    rw [hnil]
    exact quiet_fileBytes serde (Frame.consecutive_nil _ _)
  · refine .tornHeader rfl ?_
    rw [List.length_take]
    omega

theorem journalBytes_of_ne {frames : List ChatFrame} (h : frames ≠ []) :
    journalBytes serde frames = some (Frame.fileBytes (framed serde) frames) := if_neg h

/-- The journal while a frame is written to it: `frames` are complete in it, the new one is not. -/
def Unfinished (serde : Serde) (frames : List ChatFrame) (frame : ChatFrame) (bytes : Bytes) :
    Prop :=
  Quiet serde frames (some bytes) ∧
    bytes.length < (Frame.fileBytes (framed serde) (frames ++ [frame])).length

theorem unfinished_take (hnum : Frame.Consecutive (framed serde) 1 (frames ++ [frame]))
    {k : Nat} (hge : frames = [] ∨ (Frame.fileBytes (framed serde) frames).length ≤ k)
    (hlt : k < (Frame.fileBytes (framed serde) (frames ++ [frame])).length) :
    Unfinished serde frames frame
      ((Frame.fileBytes (framed serde) (frames ++ [frame])).take k) := by
  refine ⟨quiet_torn hnum hge hlt, ?_⟩
  rw [List.length_take]
  omega

theorem unfinished_header (k : Nat) : Unfinished serde [] frame (Frame.fileHeader.take k) := by
  refine ⟨quiet_header k, ?_⟩
  rw [List.nil_append, Frame.fileBytes, List.length_append, List.flatMap_singleton,
    Frame.length_frameBytes]
  have := List.length_take_le' k Frame.fileHeader
  have hpos : 0 < Frame.FRAME_LENGTH_LEN := by decide
  omega

theorem ends_appendChat (h : Shows d v) {C : Chat} (hcp : Checkpoint serde task u v file g frames C)
    (hj : v ⟨task, .chatJournal g⟩ = journalBytes serde frames) {after : TaskRecord}
    {operations : List TaskOperation} (hops : operations ≠ [])
    (hframe : frame = chatFrame file.task after operations (frames.length + 1)) {S : Files → Prop}
    (hS : S v)
    (htorn : ∀ bytes, Unfinished serde frames frame bytes →
      S (v.set ⟨task, .chatJournal g⟩ (some bytes)))
    (hwhole : Frame.Consecutive (framed serde) 1 (frames ++ [frame]) →
      S (v.set ⟨task, .chatJournal g⟩
        (some (Frame.fileBytes (framed serde) (frames ++ [frame]))))) :
    Ends (appendChat serde task (metadataOf file) after operations) d S fun n v' =>
      n = frames.length + 1 ∧ Frame.Consecutive (framed serde) 1 (frames ++ [frame]) ∧
        v' = v.set ⟨task, .chatJournal g⟩
          (some (Frame.fileBytes (framed serde) (frames ++ [frame]))) := by
  have hjournal : (metadataOf file).chatJournal = .chatJournal g := hcp.journalName
  have hcount : (metadataOf file).chatSequence = frames.length := hcp.count
  have htask : (metadataOf file).task = file.task := rfl
  unfold appendChat
  rw [if_neg (by simpa using hops)]
  simp only [hjournal, hcount, htask]
  -- the number of the frame
  by_cases hover : frames.length + 1 < 2 ^ 64
  swap
  · have herr : checkedAdd frames.length 1 "Chat journal sequence overflow" =
        .error (.storage "Chat journal sequence overflow") := if_neg hover
    rw [herr]
    exact .of_throw ⟨v, h, hS⟩ ⟨v, h, hS⟩
  have hnext : checkedAdd frames.length 1 "Chat journal sequence overflow" =
      .ok (frames.length + 1) := if_pos hover
  simp only [hnext, Prog.ofExcept, Prog.bind_eq, Prog.bind_pure_left, ← hframe]
  -- every cut of the file that has the frame, and the whole of it
  have hcut : Frame.Consecutive (framed serde) 1 (frames ++ [frame]) → ∀ k,
      (frames = [] ∨ (Frame.fileBytes (framed serde) frames).length ≤ k) →
      S (v.set ⟨task, .chatJournal g⟩
        (some ((Frame.fileBytes (framed serde) (frames ++ [frame])).take k))) := by
    intro hnum k hge
    by_cases hlt : k < (Frame.fileBytes (framed serde) (frames ++ [frame])).length
    · exact htorn _ (unfinished_take hnum hge hlt)
    · rw [List.take_of_length_le (Nat.not_lt.mp hlt)]
      exact hwhole hnum
  have hnumbered : (serde.chatFrameToVec frame).length ≤ Frame.MAX_FRAME_BYTES →
      Frame.Consecutive (framed serde) 1 (frames ++ [frame]) := by
    intro hfits
    refine Frame.consecutive_append.mpr ⟨hcp.generation.numbered,
      Frame.consecutive_cons.mpr ⟨?_, Frame.consecutive_nil _ _⟩⟩
    subst hframe
    rw [Nat.add_comm]
    exact replayable_chatFrame hfits
  have hdone : ∀ (_ : Unit) d' v', Shows d' v' →
      (Frame.Consecutive (framed serde) 1 (frames ++ [frame]) ∧
        v' = v.set ⟨task, .chatJournal g⟩
          (some (Frame.fileBytes (framed serde) (frames ++ [frame])))) →
      Ends (.pure (frames.length + 1)) d' S fun n v' => n = frames.length + 1 ∧
        Frame.Consecutive (framed serde) 1 (frames ++ [frame]) ∧
        v' = v.set ⟨task, .chatJournal g⟩
          (some (Frame.fileBytes (framed serde) (frames ++ [frame]))) := by
    intro _ d' v' h' hv'
    refine .of_pure ⟨v', h', rfl, hv'⟩ ⟨v', h', ?_⟩
    rw [hv'.2]
    exact hwhole hv'.1
  by_cases hnil : frames = []
  · subst hnil
    have habsent : v ⟨task, .chatJournal g⟩ = none := hj
    have hid : ∀ id, (FileName.chatJournal g).id? = some id → id < d.nextId := by
      obtain ⟨_, _, hfile, _⟩ := hcp.generation.snapshot
      exact fun id hg => h.id_lt (p := ⟨task, .chatSnapshot g⟩) rfl hfile hg
    rw [if_pos (show ([] : List ChatFrame).length + 1 = 1 from rfl)]
    refine Ends.bind ?_ hdone
    by_cases hfits : (serde.chatFrameToVec frame).length ≤ Frame.MAX_FRAME_BYTES
    · have hnum := hnumbered hfits
      exact Ends.mono (ends_frameCreate h rfl hid habsent hfits hS fun k => hcut hnum k (.inl rfl))
        (fun _ h => h) fun _ _ hv' => ⟨hnum, hv'⟩
    · exact ends_frameCreate_tooLarge h rfl hid habsent (Nat.not_le.mp hfits) hS
        fun k => htorn _ (unfinished_header k)
  · have hcontent := hj.trans (journalBytes_of_ne hnil)
    rw [if_neg (by simpa using hnil)]
    refine Ends.bind ?_ hdone
    by_cases hfits : (serde.chatFrameToVec frame).length ≤ Frame.MAX_FRAME_BYTES
    · have hnum := hnumbered hfits
      rw [Frame.fileBytes_concat] at hcut ⊢
      refine Ends.mono (ends_frameAppend (S := S) h rfl hcontent hfits fun k => ?_) (fun _ h => h)
        fun _ _ hv' => ⟨hnum, hv'⟩
      have hk := hcut hnum ((Frame.fileBytes (framed serde) frames).length + k)
        (.inr (Nat.le_add_right ..))
      rwa [List.take_length_add_append] at hk
    · exact ends_frameAppend_tooLarge h (Nat.not_le.mp hfits) hS

variable {P P' : TaskProjection} {s : Nat} {operations : List TaskOperation}

theorem not_frameComplete {C : Chat} {v' : Files} (hcp : Checkpoint serde task u v file g frames C)
    (hj : v ⟨task, .chatJournal g⟩ = journalBytes serde frames)
    (hframe : frame = chatFrame file.task P'.task (durableChatOperations operations)
      (frames.length + 1))
    (hlen : ∀ bytes, v' ⟨task, .chatJournal g⟩ = some bytes →
      bytes.length < (Frame.fileBytes (framed serde) (frames ++ [frame])).length) :
    ¬ FrameComplete serde task operations P' v v' := by
  rintro ⟨bytes, metadata, hbytes, hmetadata, hjournal⟩
  rw [hcp.taskFile] at hbytes
  cases hbytes
  rw [parseTask_taskFileToVec hcp.schema hcp.cleared] at hmetadata
  cases hmetadata
  have hname : (metadataOf file).chatJournal = .chatJournal g := hcp.journalName
  have hcount : (metadataOf file).chatSequence = frames.length := hcp.count
  have hcontent : (v ⟨task, .chatJournal g⟩).getD Frame.fileHeader =
      Frame.fileBytes (framed serde) frames := by
    rw [hj]
    by_cases hnil : frames = []
    · simp [hnil, journalBytes, Frame.fileBytes]
    · rw [journalBytes_of_ne hnil, Option.getD_some]
  rw [hname, hcontent, hcount] at hjournal
  have := hlen _ hjournal
  rw [Frame.fileBytes_concat, hframe] at this
  exact absurd this (Nat.lt_irrefl _)

/-- **A commit of a settled store.**  Interrupted, it leaves the state before it stored, without the
whole frame, or the state after it; returned, it leaves the state after it. -/
theorem ends_append (h : Shows d v)
    (hsettled : Settled serde task aligned u v P.chat P.task.clearProcessLocalAgentState s)
    (howner : P.task.taskId = task) (hc : Commit task P s operations P')
    (hal : aligned → P'.task.messageHistoryVersion = P'.messageMeta.version) :
    Ends (append serde task P' operations (s + 1)) d
      (fun v' => (Stores serde task aligned u v' P.chat P.task.clearProcessLocalAgentState s ∧
          ¬ FrameComplete serde task operations P' v v') ∨
        Stores serde task aligned u v' P'.chat P'.task.clearProcessLocalAgentState (s + 1))
      fun _ v' =>
        Settled serde task aligned u v' P'.chat P'.task.clearProcessLocalAgentState (s + 1) := by
  have hstored := hsettled.stores
  obtain ⟨file, g, frames, hcp, hj, ht, hs, hlt, hal₀⟩ := hsettled
  have hsnapshot : (metadataOf file).chatSnapshot = .chatSnapshot g := hcp.snapshotName
  have hjournal : (metadataOf file).chatJournal = .chatJournal g := hcp.journalName
  have hcount : (metadataOf file).chatSequence = frames.length := hcp.count
  generalize hframe : chatFrame file.task P'.task (durableChatOperations operations)
    (frames.length + 1) = frame
  -- before anything is written
  have hunwritten : ¬ FrameComplete serde task operations P' v v := by
    refine not_frameComplete hcp hj hframe.symm fun bytes hbytes => ?_
    rw [hj, journalBytes] at hbytes
    split at hbytes
    · cases hbytes
    · cases hbytes
      rw [Frame.fileBytes_concat, List.length_append, Frame.length_frameBytes]
      have hpos : 0 < Frame.FRAME_LENGTH_LEN := by decide
      omega
  refine Ends.bind (leaves_requireTask h hcp.taskFile
    (parseTask_taskFileToVec hcp.schema hcp.cleared) (.inl ⟨hstored, hunwritten⟩)).ends
    fun metadata d₁ v₁ h₁ hv₁ => ?_
  obtain ⟨rfl, rfl⟩ := hv₁
  rw [hsnapshot, hjournal]
  by_cases hops : durableChatOperations operations = []
  · -- only the Task record changes
    have hchat : P.chat = P'.chat :=
      Except.ok.inj ((applyChat_of_durable_nil hc.noCreate hops P.chat).symm.trans hc.chat)
    have hpublished := settled_publish (hchat ▸ hcp.generation) hcp.elsewhere hj (hc.owner howner)
      rfl hc.sequence hal
    rw [appendChat, hops, List.isEmpty_nil, if_pos rfl, Prog.bind_eq, Prog.bind_pure_left, hcount]
    exact (leaves_publishTask h₁ rfl (.inl ⟨hstored, hunwritten⟩)
      (.inr hpublished.stores)).ends.mono (fun _ h => h) fun _ v' hv' => hv' ▸ hpublished
  · -- the frame first, then the record
    obtain ⟨t', hahead, ht'⟩ := hc.ahead howner hcp.owner (frames.length + 1)
    rw [hframe] at hahead
    have hset : ∀ journal, Checkpoint serde task u (v₁.set ⟨task, .chatJournal g⟩ journal) file g
        frames P.chat := fun journal => hcp.set_journal g journal
    have hwhole : Frame.Consecutive (framed serde) 1 (frames ++ [frame]) →
        Stores serde task aligned u (v₁.set ⟨task, .chatJournal g⟩
          (some (Frame.fileBytes (framed serde) (frames ++ [frame])))) P'.chat
          P'.task.clearProcessLocalAgentState (s + 1) := fun hnum =>
      .inr ⟨file, g, frames, P.chat, frame, t', hset _, hnum, Files.set_self .., hahead, ht',
        by rw [hs], hc.sequence⟩
    refine Ends.bind (ends_appendChat h₁ hcp hj hops hframe.symm (.inl ⟨hstored, hunwritten⟩)
      (fun bytes hbytes => .inl ⟨.inl ⟨file, g, frames, hset _, ?_, ht, hs, hlt, hal₀⟩, ?_⟩)
      fun hnum => .inr (hwhole hnum)) fun n d₂ v₂ h₂ hv₂ => ?_
    · rw [Files.set_self]
      exact hbytes.1
    · refine not_frameComplete hcp hj hframe.symm fun content hcontent => ?_
      rw [Files.set_self] at hcontent
      cases hcontent
      exact hbytes.2
    · obtain ⟨rfl, hnum, rfl⟩ := hv₂
      have hgen := (hset (some (Frame.fileBytes (framed serde)
        (frames ++ [frame])))).generation.append hnum hahead.noCreate hahead.chat
      have hpublished := settled_publish hgen (hset _).elsewhere
        (by rw [Files.set_self, journalBytes_of_ne (by simp)]) (hc.owner howner) rfl hc.sequence hal
      rw [List.length_append, List.length_singleton] at hpublished
      exact (leaves_publishTask h₂ rfl (.inr (hwhole hnum)) (.inr hpublished.stores)).ends.mono
        (fun _ h => h) fun _ v' hv' => hv' ▸ hpublished

end Append

/-! ## Compaction and creation -/

section Compact

variable {serde : Serde} {task : String} {aligned : Prop} {u v : Files} {d : Disk}
  {P : TaskProjection} {s : Nat}

theorem generation_snapshotOf {g : Option Nat}
    (h : v ⟨task, .chatSnapshot g⟩ = some (serde.snapshotToVec (snapshotOf P))) :
    Generation serde task v g [] P.chat :=
  ⟨⟨snapshotOf P, rfl, h, rfl⟩, Frame.consecutive_nil _ _, fun _ hf => by cases hf⟩

theorem leaves_removeGeneration {file : DurableTaskFile} {g g' : Option Nat}
    {frames : List ChatFrame} {C : Chat} {t : TaskRecord} (h : Shows d v) (hne : g ≠ g')
    (hcp : Checkpoint serde task u v file g' frames C)
    (hj : v ⟨task, .chatJournal g'⟩ = journalBytes serde frames)
    (hrest : file.task.unversioned = t.unversioned ∧ file.storageSequence = s ∧ s < 2 ^ 64 ∧
      (aligned → file.task.messageHistoryVersion = C.messageMeta.version)) :
    Leaves (do
        removeIfPresent ⟨task, .chatJournal g⟩
        removeIfPresent ⟨task, .chatSnapshot g⟩
        sys .sync) d
      (fun v' => Stores serde task aligned u v' C t s)
      fun _ v' => Settled serde task aligned u v' C t s := by
  have hcp₁ := hcp.set_journal g none
  have hcp₂ := hcp₁.set (isSplitFile_snapshot task g) (by simp) (by simpa using hne) none
  have hj₁ : v.set ⟨task, .chatJournal g⟩ none ⟨task, .chatJournal g'⟩ =
      journalBytes serde frames := by
    rw [Files.set_of_ne _ _ (by simpa using hne.symm), hj]
  have hj₂ := (Files.set_of_ne (v.set ⟨task, .chatJournal g⟩ none) none
    (show (⟨task, .chatJournal g'⟩ : Path) ≠ ⟨task, .chatSnapshot g⟩ by simp)).trans hj₁
  have hs : Settled serde task aligned u v C t s := ⟨file, g', frames, hcp, hj, hrest⟩
  have hs₁ : Settled serde task aligned u _ C t s := ⟨file, g', frames, hcp₁, hj₁, hrest⟩
  have hs₂ : Settled serde task aligned u _ C t s := ⟨file, g', frames, hcp₂, hj₂, hrest⟩
  refine (leaves_removeIfPresent h rfl hs.stores hs₁.stores).bind fun _ d₁ v₁ h₁ hv₁ => ?_
  subst hv₁
  refine (leaves_removeIfPresent h₁ rfl hs₁.stores hs₂.stores).bind fun _ d₂ v₂ h₂ hv₂ => ?_
  subst hv₂
  exact (leaves_sync h₂ hs₂.stores).mono (fun _ h => h) fun _ v' hv' => hv' ▸ hs₂

/-- **A compaction of a settled store changes nothing that is stored**, wherever it stops. -/
theorem leaves_compact (h : Shows d v)
    (hsettled : Settled serde task aligned u v P.chat P.task.clearProcessLocalAgentState s)
    (howner : P.task.taskId = task)
    (hal : aligned → P.task.messageHistoryVersion = P.messageMeta.version) :
    Leaves (compact serde task P s) d
      (fun v' => Stores serde task aligned u v' P.chat P.task.clearProcessLocalAgentState s)
      fun _ v' => Settled serde task aligned u v' P.chat P.task.clearProcessLocalAgentState s := by
  have hstored := hsettled.stores
  obtain ⟨file, g, frames, hcp, hj, ht, hs, hlt, hal₀⟩ := hsettled
  have hsnapshot : (metadataOf file).chatSnapshot = .chatSnapshot g := hcp.snapshotName
  have hjournal : (metadataOf file).chatJournal = .chatJournal g := hcp.journalName
  refine (leaves_requireTask h hcp.taskFile (parseTask_taskFileToVec hcp.schema hcp.cleared)
    hstored).bind fun metadata d₁ v₁ h₁ hv₁ => ?_
  obtain ⟨rfl, rfl⟩ := hv₁
  simp only [hsnapshot, hjournal]
  -- the new generation has no files yet
  have hnew : g ≠ some d₁.nextId := by
    rintro rfl
    obtain ⟨_, _, hfile, _⟩ := hcp.generation.snapshot
    exact absurd (h₁.id_lt (p := ⟨task, .chatSnapshot _⟩) rfl hfile rfl) (Nat.lt_irrefl _)
  have habsent : v₁ ⟨task, .chatJournal (some d₁.nextId)⟩ = none := by
    rw [← h₁.read rfl]
    exact h₁.fresh _ _ rfl le_rfl
  refine leaves_freshId h₁ hstored ?_
  have hid : ∀ id, (FileName.chatSnapshot (some d₁.nextId)).id? = some id →
      id < d₁.nextId + 1 := by
    rintro id ⟨⟩
    exact Nat.lt_succ_self _
  have hold := hcp.set (isSplitFile_snapshot task (some d₁.nextId)) (by simp)
    (by simpa using Ne.symm hnew) (some (serde.snapshotToVec (snapshotOf P)))
  have hstored₁ : Stores serde task aligned u _ P.chat P.task.clearProcessLocalAgentState s :=
    Settled.stores ⟨file, g, frames, hold, by rw [Files.set_of_ne _ _ (by simp), hj], ht, hs, hlt,
      hal₀⟩
  refine (leaves_durableReplace h₁.next (p := ⟨task, .chatSnapshot (some d₁.nextId)⟩) rfl hid
    (serde.snapshotToVec (snapshotOf P)) hstored hstored₁).bind fun _ d₂ v₂ h₂ hv₂ => ?_
  subst hv₂
  -- `task.json` moves over to it
  have hnone : v₁.set ⟨task, .chatSnapshot (some d₁.nextId)⟩
      (some (serde.snapshotToVec (snapshotOf P))) ⟨task, .chatJournal (some d₁.nextId)⟩ = none := by
    rw [Files.set_of_ne _ _ (by simp), habsent]
  have hpublished := settled_publish (generation_snapshotOf (Files.set_self ..)) hold.elsewhere
    hnone howner rfl hlt hal
  refine (leaves_publishTask h₂ rfl hstored₁ hpublished.stores).bind fun _ d₃ v₃ h₃ hv₃ => ?_
  subst hv₃
  rw [if_pos (by simpa using hnew)]
  exact leaves_removeGeneration h₃ hnew
    (Checkpoint.publish (generation_snapshotOf (Files.set_self ..)) hold.elsewhere howner s)
    (by rw [Files.set_of_ne _ _ (by simp), hnone]; rfl) ⟨rfl, rfl, hlt, hal⟩

/-- A Task that has not been created: there is no `task.json`, and nothing its first commit could
take for a journal. -/
structure Uncreated (task : String) (u v : Files) : Prop where
  taskFile : v ⟨task, .task⟩ = none
  journal : v ⟨task, .chatJournal none⟩ = none
  elsewhere : ∀ p, ¬ IsSplitFile task p → v p = u p

/-- **Creation** leaves the Task uncreated or stores all of it. -/
theorem leaves_publishInitial (h : Shows d v) (hun : Uncreated task u v)
    (howner : P.task.taskId = task) (hlt : s < 2 ^ 64)
    (hal : aligned → P.task.messageHistoryVersion = P.messageMeta.version) :
    Leaves (publishInitial serde task P s) d
      (fun v' => Uncreated task u v' ∨
        Stores serde task aligned u v' P.chat P.task.clearProcessLocalAgentState s)
      fun _ v' => Settled serde task aligned u v' P.chat P.task.clearProcessLocalAgentState s := by
  have hun₁ : Uncreated task u
      (v.set ⟨task, .chatSnapshot none⟩ (some (serde.snapshotToVec (snapshotOf P)))) :=
    ⟨by rw [Files.set_of_ne _ _ (by simp), hun.taskFile],
      by rw [Files.set_of_ne _ _ (by simp), hun.journal],
      fun q hq => by rw [set_elsewhere (isSplitFile_snapshot task none) hq, hun.elsewhere q hq]⟩
  refine (leaves_durableReplace h rfl (fun id hid => by cases hid) _ (.inl hun) (.inl hun₁)).bind
    fun _ d₁ v₁ h₁ hv₁ => ?_
  subst hv₁
  have hpublished := settled_publish (generation_snapshotOf (Files.set_self ..)) hun₁.elsewhere
    hun₁.journal howner rfl hlt hal
  exact (leaves_publishTask h₁ rfl (.inl hun₁) (.inr hpublished.stores)).mono (fun _ h => h)
    fun _ v' hv' => hv' ▸ hpublished

theorem leaves_loadProjection_uncreated (h : Shows d v) (hun : Uncreated task u v) :
    Leaves (loadProjection serde task) d (fun v' => v' = v) fun r v' => r = none ∧ v' = v := by
  have hgone : d.perform (.access ⟨task, .task⟩) = .error .notFound := by
    simp [FileSystem.perform, h.read (p := ⟨task, .task⟩) rfl, hun.taskFile]
  have hload : Leaves (loadTask serde task) d (fun v' => v' = v) fun r v' => r = none ∧ v' = v := by
    refine .of_act_refused hgone (fun d' ht => ?_) (leaves_pure h rfl ⟨rfl, rfl⟩)
    obtain rfl := FileSystem.torn_access ht
    refine ⟨⟨v, h, rfl⟩, fun e hf => ?_⟩
    rw [if_neg hf.1]
    exact .of_throw ⟨v, h, rfl⟩ ⟨v, h, rfl⟩
  refine hload.bind fun r d₁ v₁ h₁ hr => ?_
  obtain ⟨rfl, rfl⟩ := hr
  exact leaves_pure h₁ rfl ⟨rfl, rfl⟩

end Compact

end OpenAide.Split

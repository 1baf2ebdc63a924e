import OpenAide.Storage.Split

/-!
# Replaying the Chat journal

What the loop of `load_projection` computes from a list of frames, apart from any disk.

* `applyChat_durable`: the operations a durable frame keeps change the Chat as the whole list did.
* `recoverFrames_checkpoint`: frames up to the checkpoint rebuild the Chat and end with the Task
  record of `task.json`, whatever Task state older frames carry.
* `recoverFrames_pending`: one frame past the checkpoint adds its Chat change and its Task patch.
* `apply_patch`: the patch a commit writes leads to the record the commit published, also on the
  record that replaying the frame has already changed.
-/

namespace OpenAide

open Library Projection

/-! ## Durable operations -/

namespace TaskOperation

def isReplaceTask : TaskOperation → Bool
  | replaceTask _ => true
  | _ => false

/-- No Task record is replaced after a whole projection was.  The patch of a frame is made against
the record of `task.json` but applied to the record the frame's operations leave, and a whole
projection brings a record of its own. -/
def recoverable : List TaskOperation → Bool
  | [] => true
  | replaceProjection _ :: rest => rest.all (!·.isReplaceTask) && recoverable rest
  | _ :: rest => recoverable rest

def isReplaceProjection : TaskOperation → Bool
  | replaceProjection _ => true
  | _ => false

theorem recoverable_of_noProjection {operations : List TaskOperation}
    (h : ∀ op ∈ operations, op.isReplaceProjection = false) : recoverable operations := by
  induction operations with
  | nil => rfl
  | cons op rest ih =>
    obtain ⟨hop, hrest⟩ := List.forall_mem_cons.mp h
    cases op with
    | replaceProjection projection => cases hop
    | _ => exact ih hrest

end TaskOperation

namespace Split

theorem editChat_durable (taskId : String) (c : Chat) {op kept : TaskOperation}
    (h : durableChatOperation op = some kept) : editChat taskId c kept = editChat taskId c op := by
  cases op <;> cases h <;> rfl

variable {operations : List TaskOperation}

theorem foldlM_editChat_durable (taskId : String) (hops : ∀ op ∈ operations, op.isCreate = false)
    (c : Chat) :
    (durableChatOperations operations).foldlM (editChat taskId) c =
      operations.foldlM (editChat taskId) c := by
  induction operations generalizing c with
  | nil => rfl
  | cons op rest ih =>
    have hop := hops op List.mem_cons_self
    have hrest := ih fun o ho => hops o (List.mem_cons_of_mem _ ho)
    cases hkept : durableChatOperation op with
    | some kept =>
      rw [durableChatOperations, List.filterMap_cons_some hkept, List.foldlM_cons,
        List.foldlM_cons, editChat_durable taskId c hkept]
      exact bind_congr hrest
    | none =>
      rw [durableChatOperations, List.filterMap_cons_none hkept, List.foldlM_cons]
      cases op with
      | create p => cases hop
      | replaceTask t => exact hrest c
      | _ => cases hkept

theorem any_durable {f : TaskOperation → Bool}
    (hkeep : ∀ op kept, durableChatOperation op = some kept → f kept = f op)
    (hdrop : ∀ op, durableChatOperation op = none → f op = false) :
    (durableChatOperations operations).any f = operations.any f := by
  induction operations with
  | nil => rfl
  | cons op rest ih =>
    cases hkept : durableChatOperation op with
    | some kept =>
      rw [durableChatOperations, List.filterMap_cons_some hkept, List.any_cons, List.any_cons,
        hkeep op kept hkept]
      exact congrArg _ ih
    | none =>
      rw [durableChatOperations, List.filterMap_cons_none hkept, List.any_cons, hdrop op hkept,
        Bool.false_or]
      exact ih

theorem advances_durable (operations : List TaskOperation) :
    advances (durableChatOperations operations) = advances operations := by
  have hhistory : (durableChatOperations operations).any (·.changesHistory) =
      operations.any (·.changesHistory) := by
    refine any_durable (fun op kept h => ?_) fun op h => ?_
    · cases op <;> cases h <;> rfl
    · cases op <;> first | rfl | cases h
  have hmeta : (durableChatOperations operations).any (·.replacesMeta) =
      operations.any (·.replacesMeta) := by
    refine any_durable (fun op kept h => ?_) fun op h => ?_
    · cases op <;> cases h <;> rfl
    · cases op <;> first | rfl | cases h
  rw [advances, advances, hhistory, hmeta]

/-- **A durable frame keeps everything a commit does to the Chat.** -/
theorem applyChat_durable (taskId : String) (hops : ∀ op ∈ operations, op.isCreate = false)
    (c : Chat) :
    applyChat taskId c (durableChatOperations operations) = applyChat taskId c operations := by
  rw [applyChat, applyChat, foldlM_editChat_durable taskId hops, advances_durable]

theorem durable_noCreate (operations : List TaskOperation) :
    ∀ op ∈ durableChatOperations operations, op.isCreate = false := by
  intro op hop
  obtain ⟨source, _, hkept⟩ := List.mem_filterMap.mp hop
  cases source <;> cases hkept <;> rfl

theorem applyChat_of_durable_nil {taskId : String} (hops : ∀ op ∈ operations, op.isCreate = false)
    (hnil : durableChatOperations operations = []) (c : Chat) :
    applyChat taskId c operations = .ok c := by
  rw [← applyChat_durable taskId hops, hnil]
  rfl

/-! ## The record a frame leaves -/

theorem lastTask_durable_clear (h : operations.all (!·.isReplaceTask)) (task : TaskRecord) :
    lastTask task.clearProcessLocalAgentState (durableChatOperations operations) =
      (lastTask task operations).clearProcessLocalAgentState := by
  induction operations generalizing task with
  | nil => rfl
  | cons op rest ih =>
    rw [List.all_cons, Bool.and_eq_true] at h
    cases op with
    | replaceTask t => simp [TaskOperation.isReplaceTask] at h
    | replaceProjection p => exact ih h.2 p.task
    | _ => exact ih h.2 task

theorem lastTask_durable (h : TaskOperation.recoverable operations) :
    (∀ task, lastTask task (durableChatOperations operations) = task) ∨
      ∀ task task', lastTask task (durableChatOperations operations) =
        (lastTask task' operations).clearProcessLocalAgentState := by
  induction operations with
  | nil => exact .inl fun _ => rfl
  | cons op rest ih =>
    cases op with
    | replaceProjection p =>
      rw [TaskOperation.recoverable, Bool.and_eq_true] at h
      exact .inr fun _ _ => lastTask_durable_clear h.1 p.task
    | replaceTask t =>
      rcases ih h with hsame | hlast
      · exact .inl hsame
      · exact .inr fun task _ => hlast task t
    | _ =>
      rcases ih h with hsame | hlast
      · exact .inl hsame
      · exact .inr fun task task' => hlast task task'

end Split

/-! ## The Task patch -/

theorem TaskRecord.toFields_of_unversioned_eq {a b : TaskRecord} (h : a.unversioned = b.unversioned)
    {f : Field} (hf : f ≠ .messageHistoryVersion) : a.toFields f = b.toFields f := by
  rw [eq_withVersion_of_unversioned_eq h, toFields_withVersion _ _ hf]

theorem TaskRecord.toFields_injective {a b : TaskRecord} (h : a.toFields = b.toFields) : a = b := by
  have ha := fromFields_toFields a
  rw [h, fromFields_toFields b] at ha
  cases ha
  rfl

variable {task : TaskRecord}

namespace TaskMetadataPatch

theorem apply_between_toFields {before after : TaskRecord}
    (h : task.unversioned = before.unversioned ∨
      task.unversioned = after.clearProcessLocalAgentState.unversioned) :
    ∃ version, FieldPatch.apply (between before after) task.toFields =
      (after.clearProcessLocalAgentState.withVersion version).toFields := by
  refine ⟨if before.messageHistoryVersion = after.messageHistoryVersion
    then task.messageHistoryVersion else after.messageHistoryVersion, funext fun f => ?_⟩
  rw [between, FieldPatch.apply_between_apply]
  by_cases hf : f = .messageHistoryVersion
  · subst hf
    simp only [TaskRecord.toFields, Option.some.injEq, TaskRecord.clear_messageHistoryVersion,
      TaskRecord.messageHistoryVersion_withVersion]
    split <;> rfl
  · rw [TaskRecord.toFields_withVersion _ _ hf]
    split
    · rename_i hsame
      rcases h with h | h
      · rw [TaskRecord.toFields_of_unversioned_eq h hf, hsame]
      · rw [TaskRecord.toFields_of_unversioned_eq h hf]
    · rfl

/-- **The patch of a commit leads to the record the commit published**, from the record `task.json`
had before and from the published one itself, history versions aside. -/
theorem apply_patch {before after : TaskRecord} (h : task.unversioned = before.unversioned ∨
      task.unversioned = after.clearProcessLocalAgentState.unversioned)
    (hid : task.taskId = after.taskId) :
    ∃ version, apply (between before after) task =
      .ok (after.clearProcessLocalAgentState.withVersion version) := by
  obtain ⟨version, hfields⟩ := apply_between_toFields h
  refine ⟨version, ?_⟩
  unfold apply
  split
  · rename_i hempty
    rw [hempty, FieldPatch.apply_empty] at hfields
    exact congrArg _ (TaskRecord.toFields_injective hfields)
  · rw [hfields, TaskRecord.fromFields_toFields]
    simp only [bind, Except.bind, TaskRecord.taskId_withVersion, TaskRecord.clear_taskId, hid,
      ne_eq, not_true, if_false]

end TaskMetadataPatch

/-! ## The replay loop -/

namespace Split

/-- The Chat after one more frame. -/
def replayChat (taskId : String) (c : Chat) (frame : ChatFrame) : Except RuntimeError Chat :=
  applyChat taskId c frame.journal.operations

/-- No frame creates the Task: creation publishes a snapshot. -/
def NoCreate (frames : List ChatFrame) : Prop :=
  ∀ frame ∈ frames, ∀ op ∈ frame.journal.operations, op.isCreate = false

section Replay

variable {metadata : TaskMetadata} {frames : List ChatFrame} {frame : ChatFrame} {C C' : Chat}

theorem recoverFrame_eq {p : TaskProjection} {n : Nat}
    (hf : ∀ op ∈ frame.journal.operations, op.isCreate = false)
    (hc : replayChat metadata.task.taskId p.chat frame = .ok C) :
    recoverFrame metadata (.available p n) frame =
      if frame.journal.sequence = metadata.chatSequence then
        .ok (.available (C.withTask metadata.task) frame.journal.sequence)
      else if metadata.chatSequence < frame.journal.sequence then do
        let task ← TaskMetadataPatch.apply frame.taskPatch
          (applyTask p.task frame.journal.operations C.messageMeta.version)
        return .available (C.withTask task) frame.journal.sequence
      else
        .ok (.available
          (C.withTask (applyTask p.task frame.journal.operations C.messageMeta.version))
          frame.journal.sequence) := by
  rw [replayChat] at hc
  rw [recoverFrame, applyOperations_available _ _ _ _ hf, hc]
  rfl

theorem foldlM_recoverFrame_below (hframes : NoCreate frames)
    (hbelow : ∀ frame ∈ frames, frame.journal.sequence < metadata.chatSequence) {p : TaskProjection}
    {n : Nat} (hc : frames.foldlM (replayChat metadata.task.taskId) p.chat = .ok C) :
    ∃ task n', frames.foldlM (recoverFrame metadata) (.available p n) =
      .ok (.available (C.withTask task) n') := by
  induction frames generalizing p n with
  | nil =>
    obtain rfl : p.chat = C := Except.ok.inj hc
    exact ⟨p.task, n, rfl⟩
  | cons f rest ih =>
    obtain ⟨c, hstep, hc⟩ := foldlM_cons_eq_ok.mp hc
    have hlt := hbelow f List.mem_cons_self
    rw [List.foldlM_cons, recoverFrame_eq (hframes f List.mem_cons_self) hstep,
      if_neg (Nat.ne_of_lt hlt), if_neg (Nat.not_lt.mpr hlt.le)]
    exact ih (fun g hg => hframes g (List.mem_cons_of_mem _ hg))
      (fun g hg => hbelow g (List.mem_cons_of_mem _ hg)) hc

variable {serde : Serde}

theorem sequence_of_consecutive {m : Nat} (h : Frame.Consecutive (ChatFrame.framed serde) m frames)
    {i : Nat} (hi : frames[i]? = some frame) : frame.journal.sequence = m + i :=
  (h i frame hi).sequence

/-- **Up to the checkpoint**: the Chat is rebuilt, and the Task record is that of `task.json`. -/
theorem foldlM_recoverFrame_checkpoint (hnum : Frame.Consecutive (ChatFrame.framed serde) 1 frames)
    (hframes : NoCreate frames) (hcount : metadata.chatSequence = frames.length)
    (hc : frames.foldlM (replayChat metadata.task.taskId) C = .ok C') :
    ∃ n, frames.foldlM (recoverFrame metadata) (.available (C.withTask metadata.task) 0) =
      .ok (.available (C'.withTask metadata.task) n) := by
  rcases List.eq_nil_or_concat frames with rfl | ⟨init, last, rfl⟩
  · obtain rfl : C = C' := Except.ok.inj hc
    exact ⟨0, rfl⟩
  · rw [List.concat_eq_append] at *
    obtain ⟨middle, hinit, hlast⟩ := foldlM_concat_eq_ok.mp hc
    have hbelow : ∀ f ∈ init, f.journal.sequence < metadata.chatSequence := by
      intro f hf
      obtain ⟨i, hi, rfl⟩ := List.getElem_of_mem hf
      have hseq := sequence_of_consecutive hnum
        (show (init ++ [last])[i]? = some init[i] by
          rw [List.getElem?_append_left hi, List.getElem?_eq_getElem hi])
      rw [hseq, hcount, List.length_append, List.length_singleton]
      omega
    have hseq : last.journal.sequence = metadata.chatSequence := by
      rw [sequence_of_consecutive hnum (show (init ++ [last])[init.length]? = some last by simp),
        hcount, List.length_append, List.length_singleton]
      omega
    obtain ⟨task, n, hfold⟩ := foldlM_recoverFrame_below (n := 0)
      (fun f hf => hframes f (List.mem_append_left _ hf)) hbelow
      (show init.foldlM (replayChat metadata.task.taskId) (C.withTask metadata.task).chat =
        .ok middle from hinit)
    refine ⟨last.journal.sequence, foldlM_concat_eq_ok.mpr ⟨_, hfold, ?_⟩⟩
    rw [recoverFrame_eq (p := middle.withTask task) (hframes last (by simp)) hlast, if_pos hseq]

theorem recoverFrames_checkpoint (hnum : Frame.Consecutive (ChatFrame.framed serde) 1 frames)
    (hframes : NoCreate frames) (hcount : metadata.chatSequence = frames.length)
    (hc : frames.foldlM (replayChat metadata.task.taskId) C = .ok C') :
    recoverFrames metadata (C.withTask metadata.task) frames =
      .ok (C'.withTask (metadata.task.withVersion C'.messageMeta.version)) := by
  obtain ⟨n, hfold⟩ := foldlM_recoverFrame_checkpoint hnum hframes hcount hc
  rw [recoverFrames, hfold]
  rfl

/-- **What recovery returns when one frame lies past the checkpoint**: the Chat with the frame, and
the record its patch leads to. -/
theorem recoverFrames_pending {C'' : Chat}
    (hnum : Frame.Consecutive (ChatFrame.framed serde) 1 (frames ++ [frame]))
    (hframes : NoCreate (frames ++ [frame])) (hcount : metadata.chatSequence = frames.length)
    (hc : frames.foldlM (replayChat metadata.task.taskId) C = .ok C')
    (hlast : replayChat metadata.task.taskId C' frame = .ok C'')
    (hpatch : TaskMetadataPatch.apply frame.taskPatch
      (applyTask metadata.task frame.journal.operations C''.messageMeta.version) = .ok task) :
    recoverFrames metadata (C.withTask metadata.task) (frames ++ [frame]) =
      .ok (C''.withTask (task.withVersion C''.messageMeta.version)) := by
  obtain ⟨n, hfold⟩ := foldlM_recoverFrame_checkpoint (Frame.consecutive_append.mp hnum).1
    (fun f hf => hframes f (List.mem_append_left _ hf)) hcount hc
  have hseq : frame.journal.sequence = metadata.chatSequence + 1 := by
    rw [sequence_of_consecutive hnum
      (show (frames ++ [frame])[frames.length]? = some frame by simp), hcount, Nat.add_comm]
  have hstep : recoverFrame metadata (.available (C'.withTask metadata.task) n) frame =
      .ok (.available (C''.withTask task) frame.journal.sequence) := by
    rw [recoverFrame_eq (p := C'.withTask metadata.task) (hframes frame (by simp)) hlast,
      if_neg (by omega), if_pos (by omega), Chat.task_withTask, hpatch]
    rfl
  rw [recoverFrames, foldlM_concat_eq_ok.mpr ⟨_, hfold, hstep⟩]
  rfl

end Replay

end Split

end OpenAide

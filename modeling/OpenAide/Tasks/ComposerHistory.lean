import Mathlib.Data.List.Dedup
import OpenAide.Tasks.MessageQueue

/-!
# Composer history

The texts of a Task that were accepted last, which the Composer offers again
(`storage/composer_history.rs`).  A text is accepted by a Send, by steering, by queueing a message
that is not scheduled, and by the settlement of a turn that goes on with the head of the queue.  The
first three record a text only if there is one (`record_composer_history`, `send.rs:505`); the last
one records whatever the queue holds (`accept_queued_turn`, `active_turn.rs:327`).

A history is compared with the texts accepted so far: `recent` are the latest distinct ones of them.
`texts_record` is the step of this comparison, `wellFormed_step` the step of a run.
-/

namespace OpenAide.Composer

open Turns

/-! ## The history -/

structure ComposerHistoryEntryRecord where
  entryId : String
  projectId : String
  text : String
  acceptedAt : String
  deriving DecidableEq

def HISTORY_LIMIT : Nat := 50

abbrev ComposerHistory := List ComposerHistoryEntryRecord

def texts (history : ComposerHistory) : List String := history.map (·.text)

/-- `ComposerHistory::record` (`composer_history.rs:20`). -/
def record (history : ComposerHistory) (incoming : ComposerHistoryEntryRecord) : ComposerHistory :=
  match history.find? (·.text = incoming.text) with
  | some existing =>
    { existing with projectId := incoming.projectId, acceptedAt := incoming.acceptedAt } ::
      history.eraseP (·.text = incoming.text)
  | none => (incoming :: history).take HISTORY_LIMIT

/-- `record_composer_history` (`send.rs:505`). -/
def recordComposerHistory (history : ComposerHistory) (incoming : ComposerHistoryEntryRecord) :
    ComposerHistory :=
  if incoming.text.isEmpty then history else record history incoming

/-! ## Acceptances -/

/-- The commit of an event stores its draft. -/
def commits (imaging : Imaging) (event : TurnEvent) (p : TaskProjection) : Bool :=
  match event.draft { projection := p } with
  | .ok (.changed ctx) => stores imaging p ctx.projection
  | _ => false

/-- A text that a commit accepts; `checked` if it is recorded by `record_composer_history`. -/
structure Acceptance where
  entryId : String
  text : String
  now : Nat
  checked : Bool

/-- The text the commit of an event accepts, if it goes through. -/
def acceptance (imaging : Imaging) (event : TurnEvent) (p : TaskProjection) : Option Acceptance :=
  if commits imaging event p then
    match event with
    | .send message .. | .steer message .. =>
      some ⟨message.messageId, message.promptText, message.now, true⟩
    | .queueAppend _ item now =>
      -- a scheduled message is recorded when it is sent
      if item.notBefore.isNone then some ⟨item.queuedMessageId, item.text, now, true⟩ else none
    | .turnFinished turnId result (some next) available rowId now =>
      (settleTurn { projection := p } turnId result (some next) available rowId now).accepted.map
        fun queued => ⟨next.messageId, queued.text, now, false⟩
    | _ => none
  else none

/-- A Task with its history, and the texts accepted so far, the oldest first. -/
structure Composed where
  task : TaskProjection
  history : ComposerHistory
  accepted : List String

/-- One commit; `projectId` is the Project of the Task. -/
def Composed.step (imaging : Imaging) (projectId : String) (state : Composed) (event : TurnEvent) :
    Composed :=
  match acceptance imaging event state.task with
  | none => { state with task := event.step imaging state.task }
  | some acceptance =>
    let entry := ⟨acceptance.entryId, projectId, acceptance.text, toString acceptance.now⟩
    { task := event.step imaging state.task
      history := if acceptance.checked then recordComposerHistory state.history entry
        else record state.history entry
      accepted := state.accepted ++ [acceptance.text] }

/-- The Task and its history after a sequence of commits. -/
def Composed.run (imaging : Imaging) (projectId : String) (state : Composed)
    (events : List TurnEvent) : Composed :=
  events.foldl (Composed.step imaging projectId) state

/-- The latest distinct texts, the newest first. -/
def recent (accepted : List String) : List String :=
  ((accepted.filter (· ≠ "")).dedup.reverse).take HISTORY_LIMIT

structure WellFormed (state : Composed) : Prop where
  distinct : (texts state.history).Nodup
  nonempty : "" ∉ texts state.history
  bounded : state.history.length ≤ HISTORY_LIMIT
  recent : texts state.history = recent state.accepted

/-- A turn that ended normally is followed by the head of the queue, and this has no text. -/
def deliversEmpty (imaging : Imaging) (event : TurnEvent) (p : TaskProjection) : Bool :=
  commits imaging event p && match event with
    | .turnFinished _ (.ok .endTurn) (some _) available _ now =>
      p.task.status ≠ .stopping &&
        (dueHead p.task now).any fun queued => available queued && queued.text.isEmpty
    | _ => false

/-! ## Latest texts -/

section Latest

variable {α : Type} [DecidableEq α] {xs : List α} {x : α} {n : Nat}

theorem dedup_concat (xs : List α) (x : α) : (xs ++ [x]).dedup = xs.dedup.erase x ++ [x] := by
  induction xs with
  | nil => simp
  | cons y ys ih =>
    rw [List.cons_append]
    by_cases hmem : y ∈ ys
    · rw [List.dedup_cons_of_mem hmem, List.dedup_cons_of_mem (by simp [hmem]), ih]
    · rw [List.dedup_cons_of_notMem hmem]
      by_cases hsame : y = x
      · subst hsame
        rw [List.dedup_cons_of_mem (by simp), ih, List.erase_cons_head,
          List.erase_of_not_mem (by simpa using hmem)]
      · rw [List.dedup_cons_of_notMem (by simp [hmem, hsame]), ih,
          List.erase_cons_tail (by simpa using hsame)]
        rfl

theorem take_erase_of_mem (h : x ∈ xs.take (n + 1)) :
    (xs.erase x).take n = (xs.take (n + 1)).erase x := by
  induction xs generalizing n with
  | nil => simp at h
  | cons y ys ih =>
    by_cases hsame : y = x
    · subst hsame
      simp
    · have htail : (y == x) = false := by simpa using hsame
      cases n with
      | zero => exact absurd (List.mem_singleton.mp h).symm hsame
      | succ n =>
        rw [List.take_succ_cons, List.mem_cons] at h
        rw [List.erase_cons_tail (by simp [htail]), List.take_succ_cons, List.take_succ_cons,
          List.erase_cons_tail (by simp [htail]), ih (h.resolve_left (Ne.symm hsame))]

theorem take_erase_of_not_mem (h : x ∉ xs.take n) : (xs.erase x).take n = xs.take n := by
  induction xs generalizing n with
  | nil => rfl
  | cons y ys ih =>
    cases n with
    | zero => rfl
    | succ n =>
      rw [List.take_succ_cons, List.mem_cons, not_or] at h
      rw [List.erase_cons_tail (by simpa using Ne.symm h.1), List.take_succ_cons,
        List.take_succ_cons, ih h.2]

end Latest

theorem recent_concat_empty (accepted : List String) :
    recent (accepted ++ [""]) = recent accepted := by
  simp [recent]

theorem recent_concat {text : String} (htext : text ≠ "") (accepted : List String) :
    recent (accepted ++ [text]) =
      if text ∈ recent accepted then text :: (recent accepted).erase text
      else (text :: recent accepted).take HISTORY_LIMIT := by
  have hfilter : (accepted ++ [text]).filter (· ≠ "") = accepted.filter (· ≠ "") ++ [text] := by
    simp [List.filter_append, htext]
  have hnodup : (accepted.filter (· ≠ "")).dedup.Nodup := List.nodup_dedup _
  have herase : ((accepted.filter (· ≠ "")).dedup.erase text).reverse =
      (accepted.filter (· ≠ "")).dedup.reverse.erase text := by
    rw [hnodup.erase_eq_filter, (List.nodup_reverse.mpr hnodup).erase_eq_filter,
      List.filter_reverse]
  unfold recent
  rw [hfilter, dedup_concat, List.reverse_append, List.reverse_singleton, List.singleton_append,
    herase]
  generalize (accepted.filter (· ≠ "")).dedup.reverse = latest
  split
  · rename_i hmem
    exact congrArg (text :: ·) (take_erase_of_mem hmem)
  · rename_i hmem
    have hmem' : text ∉ latest.take 49 := fun h =>
      hmem (List.take_subset_take_left latest (by decide) h)
    show text :: (latest.erase text).take 49 = text :: (latest.take 50).take 49
    rw [take_erase_of_not_mem hmem', List.take_take]
    rfl

/-- **Recording a text** moves it to the front of the latest texts. -/
theorem texts_record {history : ComposerHistory} {incoming : ComposerHistoryEntryRecord} :
    texts (record history incoming) =
      if incoming.text ∈ texts history then incoming.text :: (texts history).erase incoming.text
      else (incoming.text :: texts history).take HISTORY_LIMIT := by
  cases hfound : history.find? (·.text = incoming.text) with
  | none =>
    have hnot : incoming.text ∉ texts history := by
      intro hmem
      obtain ⟨entry, hentry, htext⟩ := List.mem_map.mp hmem
      exact absurd htext (by simpa using List.find?_eq_none.mp hfound entry hentry)
    rw [record, hfound, if_neg hnot]
    exact List.map_take
  | some existing =>
    have htext : existing.text = incoming.text := by simpa using List.find?_some hfound
    have hmem : incoming.text ∈ texts history :=
      List.mem_map.mpr ⟨existing, List.mem_of_find?_eq_some hfound, htext⟩
    have herase : (texts history).erase incoming.text =
        texts (history.eraseP (·.text = incoming.text)) := by
      rw [List.erase_eq_eraseP, texts, List.eraseP_map]
      congr 2
      funext entry
      exact Bool.beq_eq_decide_eq .. |>.trans (by simp [eq_comm])
    rw [record, hfound, if_pos hmem, herase]
    show existing.text :: _ = _
    rw [htext]
    rfl

/-! ## Runs -/

theorem deliversEmpty_iff (imaging : Imaging) (event : TurnEvent) (p : TaskProjection) :
    deliversEmpty imaging event p ↔ ∃ accepted, acceptance imaging event p = some accepted ∧
    accepted.checked = false ∧ accepted.text = "" := by
  unfold deliversEmpty acceptance
  cases commits imaging event p with
  | false => simp
  | true =>
    rw [Bool.true_and, if_pos rfl]
    cases event with
    | turnFinished turnId result successor available rowId now =>
      cases successor with
      | none => cases result with
        | error e => simp
        | ok outcome => cases outcome <;> simp
      | some next =>
        simp only [settleTurn, settleOutcome, task, TaskMutationContext.task_finishRunningActivity,
          TaskMutationContext.task_closeTurnOnFinalAnswer]
        by_cases hstatus : p.task.status = .stopping
        · cases result with
          | error e => simp [hstatus]
          | ok outcome => cases outcome <;> simp [hstatus]
        · cases result with
          | error e => simp [hstatus]
          | ok outcome =>
            cases outcome with
            | endTurn =>
              cases hhead : dueHead p.task now with
              | none => simp [hstatus, hhead]
              | some queued =>
                by_cases havailable : available queued <;> simp [hstatus, hhead, havailable]
            | _ => simp [hstatus]
    | queueAppend client item now => by_cases h : item.notBefore.isNone <;> simp [h]
    | _ => simp

theorem wellFormed_of_recent {state : Composed} (h : texts state.history = recent state.accepted) :
    WellFormed state where
  distinct := h ▸ (List.nodup_reverse.mpr (List.nodup_dedup _)).sublist (List.take_sublist _ _)
  nonempty hmem := by
    rw [h] at hmem
    have hmem := List.mem_filter.mp
      (List.mem_dedup.mp (List.mem_reverse.mp (List.mem_of_mem_take hmem)))
    simp at hmem
  bounded := by
    rw [← List.length_map (·.text), show state.history.map (·.text) = _ from h]
    exact List.length_take_le _ _
  recent := h

/-- **One commit** keeps a history well formed, unless it records that a message without text was
delivered. -/
theorem wellFormed_step {state : Composed} (h : WellFormed state) (imaging : Imaging)
    (projectId : String) (event : TurnEvent) :
    WellFormed (state.step imaging projectId event) ↔ deliversEmpty imaging event state.task =
      false := by
  rw [← Bool.not_eq_true, deliversEmpty_iff]
  unfold Composed.step
  cases hacceptance : acceptance imaging event state.task with
  | none => exact ⟨fun _ => by simp, fun _ => wellFormed_of_recent h.recent⟩
  | some accepted =>
    by_cases htext : accepted.text = ""
    · cases hchecked : accepted.checked with
      | true =>
        refine ⟨fun _ => by simp [hchecked], fun _ => wellFormed_of_recent ?_⟩
        simp only [hchecked, if_true, recordComposerHistory, htext, recent_concat_empty]
        exact h.recent
      | false =>
        refine ⟨fun hnew => ?_, fun hnot => absurd ⟨accepted, rfl, hchecked, htext⟩ hnot⟩
        have hempty := hnew.nonempty
        dsimp only at hempty
        rw [hchecked, if_neg Bool.false_ne_true, texts_record, htext] at hempty
        split at hempty <;> simp [HISTORY_LIMIT] at hempty
    · refine ⟨fun _ => by simp [htext], fun _ => wellFormed_of_recent ?_⟩
      have hsame (entry : ComposerHistoryEntryRecord) (hentry : entry.text = accepted.text) :
          recordComposerHistory state.history entry = record state.history entry := by
        rw [recordComposerHistory, if_neg (by simpa [hentry] using htext)]
      simp only [hsame, ite_self]
      rw [texts_record, h.recent, recent_concat htext]

/-- **Composer history stays well formed** in every state of a run exactly if no settlement goes on
with a queued message that has attachments only. -/
theorem history_well_formed_iff (imaging : Imaging) (projectId : String) (p : TaskProjection)
    (events : List TurnEvent) :
    (∀ seen, seen <+: events → WellFormed (Composed.run imaging projectId ⟨p, [], []⟩ seen)) ↔
      ∀ seen event, seen ++ [event] <+: events →
        deliversEmpty imaging event (Composed.run imaging projectId ⟨p, [], []⟩ seen).task =
          false := by
  have hrun (seen : List TurnEvent) (event : TurnEvent) :
      Composed.run imaging projectId ⟨p, [], []⟩ (seen ++ [event]) =
        (Composed.run imaging projectId ⟨p, [], []⟩ seen).step imaging projectId event :=
        List.foldl_append
  constructor
  · intro h seen event hseen
    have hbefore := h seen ((List.prefix_append seen [event]).trans hseen)
    rw [← wellFormed_step hbefore imaging projectId event, ← hrun]
    exact h _ hseen
  · intro h seen
    induction seen using List.reverseRecOn with
    | nil => exact fun _ => wellFormed_of_recent rfl
    | append_singleton seen event ih =>
      intro hseen
      have hbefore := ih ((List.prefix_append seen [event]).trans hseen)
      rw [hrun, wellFormed_step hbefore]
      exact h seen event hseen

/-- A message with an image and no text is queued, and the turn ends. -/
def imageDelivered : List TurnEvent :=
  [.queueAppend "client"
      { queuedMessageId := "q", text := "", createdAt := "1"
        chatAttachments := [ChatImages.Example.image "inline"] } 1,
    .turnFinished "turn" (.ok .endTurn) (some ⟨"next", "message", "row"⟩) (fun _ => true) "end" 2]

/-- Its empty text is in the history then. -/
theorem empty_text_recorded :
    ¬WellFormed (Composed.run ChatImages.Example.imaging "p" ⟨workingTask, [], []⟩
      imageDelivered) := by
  intro h
  exact h.nonempty (by decide +kernel)

end OpenAide.Composer

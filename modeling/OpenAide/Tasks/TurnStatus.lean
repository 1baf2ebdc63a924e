import OpenAide.Tasks.QueueDelivery

/-!
# Turn and status over a whole run

Stop is a status that the settlement of the turn reads.  Two commits write over it: a question marks
the Task Waiting whatever its status (`questions.rs:52-71`), and so does a permission request whose
turn has not been told of the cancellation yet (`permissions.rs:190`).  In a run without them Stop
stays.  Over every run the fields of a turn agree with each other (`Coherent`).
-/

namespace OpenAide

namespace Turns

open Mutation ObservedTiming Projection ChatImages
open TurnEvent

variable {imaging : Imaging} {p : TaskProjection} {turnId : String} {now : Nat}

/-! ## Stop -/

/-- The queued message that the settlement of a turn accepts as its successor: what
`finish_turn_and_accept_queue` returns (`active_turn.rs:98`). -/
def acceptedSuccessor (p : TaskProjection) (turnId : String)
    (result : Except RuntimeError AgentPromptOutcome) (next : Successor)
    (available : QueuedMessageRecord → Bool) (rowId : String) (now : Nat) :
    Option QueuedMessageRecord :=
  if p.task.activeTurnId = some turnId then
    (settleTurn { projection := p } turnId result (some next) available rowId now).accepted
  else none

/-- The event does not mark a stopping Task Waiting. -/
def KeepsStop (event : TurnEvent) (task : TaskRecord) : Prop :=
  task.status = .stopping →
    match event with
    | .questionWaiting sessionId _ => task.agentSessionId ≠ some sessionId
    | .permissionWaiting turnId cancelled _ => task.activeTurnId = some turnId → cancelled = true
    | _ => True

theorem stopping_of_accepted (h : stopAccepted p.task turnId)
    (hlive : p.task.status = .stopping ∨ archivedEdit p.task p.task = false) :
    (step imaging (.turnStopping turnId now) p).task.status = .stopping := by
  have hactive : p.task.activeTurnId = some turnId := by simpa [stopAccepted] using h
  by_cases hstatus : p.task.status = .stopping
  · simp [step, commitExistingTask, draft, markTurnStopping, task, hstatus]
  · have hdraft : (turnStopping turnId now).draft { projection := p } =
        .ok (.changed (editTask { projection := p } fun task =>
          { task with status := .stopping, updatedAt := toString now })) :=
      if_pos ⟨hactive, hstatus⟩
    have harchived : archivedEdit p.task { p.task with
        status := .stopping, updatedAt := toString now } = false := hlive.resolve_left hstatus
    have hstores : stores imaging p (editTask { projection := p } fun task =>
        { task with status := .stopping, updatedAt := toString now }).projection := by
      simp only [stores, task_editTask, harchived, Bool.not_false, Bool.true_and, Bool.and_eq_true]
      exact ⟨by simp [validTask], List.all_eq_true.mpr fun row hrow => decide_eq_true (.inl hrow)⟩
    rw [step, commit_of_changed _ hdraft hstores]
    rfl

theorem stopping_step {event : TurnEvent} (hfresh : event.starts ≠ some turnId)
    (hkeeps : KeepsStop event p.task)
    (hstop : p.task.activeTurnId = some turnId → p.task.status = .stopping)
    (hactive : (event.step imaging p).task.activeTurnId = some turnId) :
    (event.step imaging p).task.status = .stopping := by
  cases (commitStep imaging event p).turn with
  | kept h =>
    simp only [turnOf, Prod.mk.injEq] at h
    rw [h.1]
    exact hstop (h.2.1 ▸ hactive)
  | started next time hevent hfree h =>
    simp only [turnOf, Prod.mk.injEq] at h
    rw [hactive] at h
    exact absurd (hevent.trans h.2.1.symm) hfresh
  | ended h =>
    simp only [turnOf, Prod.mk.injEq] at h
    rw [hactive] at h
    cases h.2.1
  | changed status hchange h =>
    simp only [turnOf, Prod.mk.injEq] at h
    rw [h.2.1] at hactive
    have hstatus := hstop hactive
    rw [h.1]
    cases hchange with
    | running _ hother => rw [hstatus] at hother; cases hother
    | stopping => rfl
    | question sessionId now hevent hsession =>
      subst hevent
      exact absurd hsession (hkeeps hstatus)
    | permission other now hevent hother =>
      subst hevent
      cases hkeeps hstatus hother
    | answered row now hevent hother => rw [hstatus] at hother; cases hother
    | permitted tool attention now hevent hother => rw [hstatus] at hother; cases hother

theorem acceptedSuccessor_eq_none
    (hstop : p.task.activeTurnId = some turnId → p.task.status = .stopping)
    (result : Except RuntimeError AgentPromptOutcome) (next : Successor)
    (available : QueuedMessageRecord → Bool) (rowId : String) (now : Nat) :
    acceptedSuccessor p turnId result next available rowId now = none := by
  unfold acceptedSuccessor
  split
  · rename_i hactive
    simp only [settleTurn, task, hstop hactive, if_true]
  · rfl

/-- **Stop is sticky** in a run in which nothing marks the stopping Task Waiting: once
`mark_turn_stopping` has returned true on a Task that stops already or is not archived, the Task
stops for as long as the turn is the active one, and the turn's settlement accepts no successor. 
Turn ids are used once. -/
theorem stop_is_sticky (imaging : Imaging) (p : TaskProjection) (events : List TurnEvent) (k : Nat)
    (turnId : String) (now : Nat) (hk : events[k]? = some (.turnStopping turnId now))
    (haccepted : stopAccepted (stateAt imaging p events k).task turnId)
    (hlive : (stateAt imaging p events k).task.status = .stopping ∨
      archivedEdit (stateAt imaging p events k).task (stateAt imaging p events k).task = false)
    (hfresh : ∀ j event, k < j → events[j]? = some event → event.starts ≠ some turnId)
    (hkeeps : ∀ j event, k < j → events[j]? = some event →
      KeepsStop event (stateAt imaging p events j).task)
    (n : Nat) (hn : k < n) :
    ((stateAt imaging p events n).task.activeTurnId = some turnId →
        (stateAt imaging p events n).task.status = .stopping) ∧
      ∀ result next available rowId now,
        acceptedSuccessor (stateAt imaging p events n) turnId result next available rowId now =
          none := by
  have hstop : (stateAt imaging p events n).task.activeTurnId = some turnId →
      (stateAt imaging p events n).task.status = .stopping := by
    induction n, hn using Nat.le_induction with
    | base =>
      rw [stateAt_succ hk]
      exact fun _ => stopping_of_accepted haccepted hlive
    | succ n hkn ih =>
      cases hevent : events[n]? with
      | none =>
        rw [stateAt_succ_none hevent]
        exact ih
      | some event =>
        rw [stateAt_succ hevent]
        exact stopping_step (hfresh n event hkn hevent) (hkeeps n event hkn hevent) ih
  exact ⟨hstop, acceptedSuccessor_eq_none hstop⟩

/-- A Task with a session and a turn under way. -/
def attachedTask : TaskProjection :=
  { workingTask with task := { workingTask.task with agentSessionId := some "session" } }

/-- Stop during a turn with a message queued; a question of another session comes to nothing. -/
theorem stop_survives_foreign_question :
    let events := [queuing "a" "first", .turnStopping "turn" 2, .questionWaiting "other" 3]
    (stateAt Example.imaging attachedTask events 3).task.activeTurnId = some "turn" ∧
      (stateAt Example.imaging attachedTask events 3).task.status = .stopping ∧
      acceptedSuccessor (stateAt Example.imaging attachedTask events 3) "turn" (.ok .endTurn)
      ⟨"next", "m", "r"⟩ (fun _ => true) "row" 4 = none := by
  have hactive : (stateAt Example.imaging attachedTask
      [queuing "a" "first", .turnStopping "turn" 2, .questionWaiting "other" 3]
      3).task.activeTurnId = some "turn" := by decide +kernel
  obtain ⟨hstatus, hsettled⟩ := stop_is_sticky Example.imaging attachedTask
    [queuing "a" "first", .turnStopping "turn" 2, .questionWaiting "other" 3] 1 "turn" 2 rfl
    (by decide +kernel) (.inr (by decide +kernel))
    (fun j event hj hevent => by
      match j with
      | 2 =>
        cases hevent
        exact nofun
      | j + 3 => cases hevent)
    (fun j event hj hevent => by
      match j with
      | 2 =>
        cases hevent
        intro _
        decide +kernel
      | j + 3 => cases hevent) 3 (by decide)
  exact ⟨hactive, hstatus hactive, hsettled _ _ _ _ _⟩

/-- A question after Stop: the Task waits although its turn goes on, and if the Agent then ends the
turn as usual, the queued message starts the next one. -/
theorem question_overwrites_stop :
    let events := [queuing "a" "first", .turnStopping "turn" 2, .questionWaiting "session" 3]
    stopAccepted (stateAt Example.imaging attachedTask events 1).task "turn" = true ∧
      (stateAt Example.imaging attachedTask events 2).task.status = .stopping ∧
      (stateAt Example.imaging attachedTask events 3).task.activeTurnId = some "turn" ∧
      (stateAt Example.imaging attachedTask events 3).task.status = .waiting ∧
      (acceptedSuccessor (stateAt Example.imaging attachedTask events 3) "turn" (.ok .endTurn)
        ⟨"next", "m", "r"⟩ (fun _ => true) "row" 4).map (·.text) = some "first" := by
  decide +kernel

/-! ## The fields of a turn -/

/-- A turn has an identity and a start or neither; a Task starts or stops only with a turn. -/
structure Coherent (turn : TaskStatus × Option String × Option String) : Prop where
  started : turn.2.2.isSome = turn.2.1.isSome
  active : turn.1 = .starting ∨ turn.1 = .stopping → turn.2.1.isSome

theorem coherent_step (h : Coherent (turnOf p.task)) (event : TurnEvent) :
    Coherent (turnOf (event.step imaging p).task) ∧
      ∀ turnId, (turnOf (event.step imaging p).task).2.1 = some turnId →
        p.task.activeTurnId = some turnId ∨ event.starts = some turnId := by
  cases (commitStep imaging event p).turn with
  | kept hturn => exact hturn ▸ ⟨h, fun _ => .inl⟩
  | started _ _ hevent _ hturn =>
    exact hturn ▸ ⟨⟨rfl, fun _ => rfl⟩, fun _ hactive => .inr (hevent.trans hactive)⟩
  | changed _ hchange hturn =>
    refine hturn ▸ ⟨⟨h.started, fun hworks => ?_⟩, fun _ => .inl⟩
    -- of these changes only Stop leads to one of the two, and it needs a turn
    cases hchange with
    | stopping hactive => exact hactive
    | answered => split at hworks <;> simp at hworks
    | _ => simp at hworks
  | ended hturn => exact hturn ▸ ⟨⟨rfl, by simp⟩, fun _ hactive => by cases hactive⟩

/-- **Whatever is committed, the fields of the turn agree**, and the turn under way is the one from
before or one that an event of the run started. -/
theorem turn_coherent_run (imaging : Imaging) (p : TaskProjection) (h : Coherent (turnOf p.task))
    (events : List TurnEvent) :
    Coherent (turnOf (run imaging p events).task) ∧
      ∀ turnId, (run imaging p events).task.activeTurnId = some turnId →
        p.task.activeTurnId = some turnId ∨ ∃ event ∈ events, event.starts = some turnId := by
  induction events generalizing p with
  | nil => exact ⟨h, fun _ => .inl⟩
  | cons event rest ih =>
    obtain ⟨hstep, horigin⟩ := coherent_step h event
    obtain ⟨hrun, hlast⟩ := ih (event.step imaging p) hstep
    refine ⟨hrun, fun turnId hactive => ?_⟩
    rcases hlast turnId hactive with hbefore | ⟨e, he, hstarts⟩
    · exact (horigin turnId hbefore).imp_right fun hstarts => ⟨event, .head _, hstarts⟩
    · exact .inr ⟨e, .tail _ he, hstarts⟩

/-- A turn with a question in it ends, the queued message starts the next one, and that is
stopped. -/
def succeeded : List TurnEvent :=
  [queuing "a" "first", .questionWaiting "session" 2,
    .turnFinished "turn" (.ok .endTurn) (some ⟨"next", "m", "r"⟩) (fun _ => true) "row" 3,
    .turnRunning "next" 4, .turnStopping "next" 5]

theorem turn_coherent_stopping :
    let task := (run Example.imaging attachedTask succeeded).task
    task.activeTurnId = some "next" ∧ task.status = .stopping ∧ Coherent (turnOf task) ∧
      ∃ event ∈ succeeded, event.starts = some "next" := by
  have hactive : (run Example.imaging attachedTask succeeded).task.activeTurnId =
      some "next" := by decide +kernel
  obtain ⟨hcoherent, horigin⟩ :=
    turn_coherent_run Example.imaging attachedTask ⟨rfl, by decide⟩ succeeded
  exact ⟨hactive, by decide +kernel, hcoherent, (horigin "next" hactive).resolve_left (by decide)⟩

end Turns

end OpenAide

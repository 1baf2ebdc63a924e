import OpenAide.Protocol.Model

/-!
# Background work that holds a turn

`agent/acp_background_work.rs`: a prompt's response may leave commands running, and the model
answers a command's end in a cycle of its own.  `BackgroundState` is what one Native Session tracks
of this, and `holds_turn` says whether an answered turn must stay open: while a command lives, while
the Agent works, or while a follow-up cycle is awaited.

The deadline of that wait is set when a command ends, dropped by the poll that finds it expired,
and started over when the Agent goes idle, provided it is still there then.

- `followupDeadline_step`: what one event does to the deadline while the Agent's state stays;
- `deadline_of_awaited`, `awaited_of_deadline`: over a whole cycle, a deadline is left at its end
  exactly when some command's end was not followed by a poll that found its grace over;
- `followup_wait_iff`: **the turn is held for a full grace after the cycle exactly in that case**.
  A poll inside a cycle longer than the grace loses the wait (`long_cycle_loses_followup`).
-/

namespace OpenAide

/-! ## The tracked state -/

/-- `AsyncTaskState` (`acp_background_work.rs:140`). -/
inductive AsyncTaskState where
  | running | paused | completed | failed | stopped
  deriving DecidableEq

/-- `AsyncTaskStateNotification` (`acp_background_work.rs:121`).  A report without a state only
refines what is known of a command. -/
structure AsyncTaskStateNotification where
  asyncTaskId : String
  state : Option AsyncTaskState
  description : Option String := none
  kindLabel : Option String := none
  toolCallId : Option String := none
  canStop : Option Bool := none
  deriving DecidableEq

/-- `AgentBackgroundCommand` (`agent/events.rs:73`). -/
structure AgentBackgroundCommand where
  commandId : String
  description : String
  kindLabel : Option String
  paused : Bool
  canStop : Bool
  toolCallId : Option String
  deriving DecidableEq

/-- `FinishedCommand` (`acp_background_work.rs:198`). -/
structure FinishedCommand where
  toolCallId : String
  outcome : BackgroundCommandOutcome
  deriving DecidableEq

/-- `State` (`acp_background_work.rs:204`); instants are numbers. -/
structure BackgroundState where
  liveTasks : List AgentBackgroundCommand := []
  finished : List FinishedCommand := []
  holdStarted : Option Nat := none
  followupDeadline : Option Nat := none
  agentRunning : Bool := false
  unownedCycleStarted : Option Nat := none
  deriving DecidableEq

/-- The outcome a report ends its command with (`acp_background_work.rs:249-254`). -/
def AsyncTaskStateNotification.outcome (update : AsyncTaskStateNotification) :
    Option BackgroundCommandOutcome :=
  match update.state with
  | some .completed => some .completed
  | some .failed => some .failed
  | some .stopped => some .stopped
  | some .running | some .paused | none => none

/-- What a report that ends nothing changes of a tracked command (`acp_background_work.rs:258-269`).
-/
def AgentBackgroundCommand.refine (task : AgentBackgroundCommand)
    (update : AsyncTaskStateNotification) : AgentBackgroundCommand :=
  { task with
    description := update.description.getD task.description
    toolCallId := update.toolCallId <|> task.toolCallId
    paused := (update.state.map (· == .paused)).getD task.paused }

/-- A command as its first report describes it (`acp_background_work.rs:272-279`). -/
def AgentBackgroundCommand.spawned (update : AsyncTaskStateNotification) :
    AgentBackgroundCommand where
  commandId := update.asyncTaskId
  description := update.description.getD ""
  kindLabel := update.kindLabel
  paused := (update.state.map (· == .paused)).getD false
  canStop := update.canStop.getD false
  toolCallId := update.toolCallId

namespace BackgroundState

/-- The position of a command among the live ones. -/
def position (s : BackgroundState) (asyncTaskId : String) : Option Nat :=
  s.liveTasks.findIdx? (·.commandId == asyncTaskId)

/-- `task_state_changed` (`acp_background_work.rs:243`) at the instant `now`. -/
def taskStateChanged (grace now : Nat) (update : AsyncTaskStateNotification) (s : BackgroundState) :
    BackgroundState :=
  match update.outcome, s.position update.asyncTaskId with
  | none, some position => { s with liveTasks := s.liveTasks.modify position (·.refine update) }
  | none, none =>
    -- A refinement of a command that already ended tracks nothing.
    if update.state.isNone then s
    else { s with liveTasks := s.liveTasks ++ [.spawned update] }
  | some _, none => s
  | some outcome, some position =>
    let ended := s.liveTasks[position]?
    let toolCallId := update.toolCallId <|> ended.bind (·.toolCallId)
    { s with
      liveTasks := s.liveTasks.eraseIdx position
      finished := s.finished ++ (toolCallId.map (⟨·, outcome⟩)).toList
      followupDeadline :=
        if s.holdStarted.isSome ∧ outcome ≠ .stopped then some (now + grace)
        else s.followupDeadline }

/-- `session_state_changed` (`acp_background_work.rs:317`). -/
def sessionStateChanged (grace now : Nat) (state : String) (s : BackgroundState) :
    BackgroundState :=
  let running := state != "idle"
  if s.agentRunning = running ∨ s.holdStarted.isNone then { s with agentRunning := running }
  else
    { s with
      agentRunning := running
      followupDeadline :=
        if running then none else s.followupDeadline.map fun _ => now + grace }

/-- `unowned_session_state_changed` (`acp_background_work.rs:351`). -/
def unownedSessionStateChanged (now : Nat) (state : String) (s : BackgroundState) :
    BackgroundState :=
  let running := state != "idle"
  if s.agentRunning = running then s
  else { s with
    agentRunning := running
    unownedCycleStarted := if running then some now else none }

/-- `prompt_answered` (`acp_background_work.rs:381`). -/
def promptAnswered (s : BackgroundState) : BackgroundState :=
  { s with agentRunning := false, unownedCycleStarted := none }

/-- `finish_hold` (`acp_background_work.rs:463`). -/
def finishHold (s : BackgroundState) : BackgroundState :=
  { s with followupDeadline := none, holdStarted := none }

/-- `prompt_continued` (`acp_background_work.rs:390`). -/
def promptContinued (s : BackgroundState) : BackgroundState := s.finishHold

/-- `holds_turn` (`acp_background_work.rs:397`): the answer, and the state it leaves. -/
def holdsTurn (now : Nat) (s : BackgroundState) : Bool × BackgroundState :=
  let deadline := s.followupDeadline.filter (now < ·)
  let holds := !s.liveTasks.isEmpty || s.agentRunning || deadline.isSome
  (holds, { s with
    followupDeadline := deadline
    holdStarted := if holds && s.holdStarted.isNone then some now else s.holdStarted })

/-- `take_finished` (`acp_background_work.rs:449`). -/
def takeFinished (s : BackgroundState) : List FinishedCommand × BackgroundState :=
  (s.finished, { s with finished := [] })

end BackgroundState

/-! ## Runs -/

/-- A call on the shared `BackgroundWork`. -/
inductive BackgroundEvent where
  | taskStateChanged (update : AsyncTaskStateNotification)
  | sessionStateChanged (state : String)
  | unownedSessionStateChanged (state : String)
  | promptAnswered
  | promptContinued
  | holdsTurn
  | report (turnHeld : Bool)
  | takeFinished
  | finishHold
  deriving DecidableEq

/-- A call and the clock it reads. -/
structure TimedEvent where
  time : Nat
  event : BackgroundEvent
  deriving DecidableEq

namespace BackgroundState

def step (grace : Nat) (s : BackgroundState) (e : TimedEvent) : BackgroundState :=
  match e.event with
  | .taskStateChanged update => s.taskStateChanged grace e.time update
  | .sessionStateChanged state => s.sessionStateChanged grace e.time state
  | .unownedSessionStateChanged state => s.unownedSessionStateChanged e.time state
  | .promptAnswered => s.promptAnswered
  | .promptContinued => s.promptContinued
  | .holdsTurn => (s.holdsTurn e.time).2
  | .report _ => s
  | .takeFinished => s.takeFinished.2
  | .finishHold => s.finishHold

def run (grace : Nat) (s : BackgroundState) (events : List TimedEvent) : BackgroundState :=
  events.foldl (step grace) s

@[simp] theorem run_nil (grace : Nat) (s : BackgroundState) : s.run grace [] = s := rfl

@[simp] theorem run_cons (grace : Nat) (s : BackgroundState) (e : TimedEvent)
    (events : List TimedEvent) :
    s.run grace (e :: events) = (s.step grace e).run grace events := rfl

@[simp] theorem run_append (grace : Nat) (s : BackgroundState) (xs ys : List TimedEvent) :
    s.run grace (xs ++ ys) = (s.run grace xs).run grace ys := List.foldl_append

/-- The Agent works in a cycle of its own while the answered turn is held. -/
def InCycle (s : BackgroundState) : Prop := s.holdStarted.isSome ∧ s.agentRunning = true

instance (s : BackgroundState) : Decidable s.InCycle := by unfold InCycle; infer_instance

/-- The report ends a live command whose end the model will be told of. -/
def Ends (s : BackgroundState) : BackgroundEvent → Prop
  | .taskStateChanged update =>
    (∃ outcome, update.outcome = some outcome ∧ outcome ≠ .stopped) ∧
      (s.position update.asyncTaskId).isSome
  | _ => False

end BackgroundState

/-- The clock never goes back. -/
def Ordered (events : List TimedEvent) : Prop := events.Pairwise (·.time ≤ ·.time)

instance (events : List TimedEvent) : Decidable (Ordered events) := by
  unfold Ordered; infer_instance

/-- The event leaves the hold open and the Agent's state at `working`: no report of the other state,
no prompt that answers or takes over, no end of the hold. -/
def BackgroundEvent.Within (working : Bool) : BackgroundEvent → Prop
  | sessionStateChanged state | unownedSessionStateChanged state => (state != "idle") = working
  | promptAnswered => working = false
  | promptContinued | finishHold => False
  | taskStateChanged _ | holdsTurn | report _ | takeFinished => True

instance (working : Bool) (event : BackgroundEvent) : Decidable (event.Within working) := by
  cases event <;> unfold BackgroundEvent.Within <;> infer_instance

namespace BackgroundState

/-! ## Without a hold nothing is awaited -/

/-- A deadline belongs to a hold. -/
def HoldOwnsDeadline (s : BackgroundState) :
    Prop := s.holdStarted = none → s.followupDeadline = none

theorem holdOwnsDeadline_step (grace : Nat) {s : BackgroundState} (h : s.HoldOwnsDeadline)
    (e : TimedEvent) : (s.step grace e).HoldOwnsDeadline := by
  unfold HoldOwnsDeadline step at *
  cases e.event with
  | taskStateChanged update =>
    simp only [taskStateChanged]
    split
    · exact h
    · split <;> exact h
    · exact h
    · intro hhold
      simp only at hhold ⊢
      simp only [hhold, Option.isSome_none, Bool.false_eq_true, false_and, if_false]
      exact h hhold
  | sessionStateChanged state =>
    simp only [sessionStateChanged]
    split
    · exact h
    · intro hhold
      simp only at hhold
      simp only [h hhold, Option.map_none, ite_self]
  | unownedSessionStateChanged state =>
    simp only [unownedSessionStateChanged]
    split <;> exact h
  | promptAnswered => exact h
  | promptContinued => exact fun _ => rfl
  | holdsTurn =>
    simp only [holdsTurn]
    intro hhold
    split at hhold
    · cases hhold
    · simp only [h hhold, Option.filter_none]
  | report _ => exact h
  | takeFinished => exact h
  | finishHold => exact fun _ => rfl

theorem holdOwnsDeadline_run (grace : Nat) (events : List TimedEvent) {s : BackgroundState}
    (h : s.HoldOwnsDeadline) : (s.run grace events).HoldOwnsDeadline := by
  induction events generalizing s with
  | nil => exact h
  | cons e events ih => exact ih (holdOwnsDeadline_step grace h e)

theorem followupDeadline_cycle_start {grace : Nat} {s : BackgroundState} {e : TimedEvent}
    (howns : s.HoldOwnsDeadline) (hbefore : ¬s.InCycle)
    (hevent : (∃ state, e.event = .sessionStateChanged state) ∨ e.event = .holdsTurn)
    (hafter : (s.step grace e).InCycle) : (s.step grace e).followupDeadline = none := by
  unfold InCycle at hbefore hafter
  rcases hevent with ⟨state, hevent⟩ | hevent
  · simp only [step, hevent, sessionStateChanged] at hafter ⊢
    split at hafter
    · rename_i hquiet
      simp only at hafter
      rcases hquiet with hsame | hhold
      · exact absurd ⟨hafter.1, hsame.trans hafter.2⟩ hbefore
      · simp only [Option.isNone_iff_eq_none] at hhold
        simp [hhold] at hafter
    · rename_i hloud
      have hrunning : (state != "idle") = true := hafter.2
      simp only [if_neg hloud, if_pos hrunning]
  · simp only [step, hevent, holdsTurn] at hafter ⊢
    cases hhold : s.holdStarted with
    | none => simp only [howns hhold, Option.filter_none]
    | some started => exact absurd ⟨by simp [hhold], hafter.2⟩ hbefore

/-! ## The deadline while the Agent's state stays -/

variable {grace : Nat} {s : BackgroundState} {e : TimedEvent} {working : Bool}

/-- What a hold in progress looks like: it is open, and the Agent's state is the given one. -/
structure Holding (working : Bool) (s : BackgroundState) : Prop where
  held : s.holdStarted.isSome
  agent : s.agentRunning = working

theorem holding_step (h : s.Holding working) (hwithin : e.event.Within working) :
    (s.step grace e).Holding working := by
  obtain ⟨hheld, hagent⟩ := h
  unfold step
  cases hevent : e.event with
  | taskStateChanged update =>
    simp only [taskStateChanged]
    split
    · exact ⟨hheld, hagent⟩
    · split <;> exact ⟨hheld, hagent⟩
    · exact ⟨hheld, hagent⟩
    · exact ⟨hheld, hagent⟩
  | sessionStateChanged state =>
    rw [hevent] at hwithin
    simp only [sessionStateChanged, if_pos (Or.inl (hagent.trans hwithin.symm) :
      s.agentRunning = (state != "idle") ∨ s.holdStarted.isNone)]
    exact ⟨hheld, hwithin⟩
  | unownedSessionStateChanged state =>
    rw [hevent] at hwithin
    simp only [unownedSessionStateChanged, if_pos (hagent.trans hwithin.symm)]
    exact ⟨hheld, hagent⟩
  | promptAnswered =>
    rw [hevent] at hwithin
    exact ⟨hheld, hwithin.symm⟩
  | promptContinued => rw [hevent] at hwithin; exact hwithin.elim
  | holdsTurn =>
    obtain ⟨started, hstarted⟩ := Option.isSome_iff_exists.mp hheld
    exact ⟨by simp [holdsTurn, hstarted], hagent⟩
  | report _ => exact ⟨hheld, hagent⟩
  | takeFinished => exact ⟨hheld, hagent⟩
  | finishHold => rw [hevent] at hwithin; exact hwithin.elim

variable {events : List TimedEvent}

theorem holding_run (grace : Nat) (h : s.Holding working)
    (hwithin : ∀ e ∈ events, e.event.Within working) : (s.run grace events).Holding working := by
  induction events generalizing s with
  | nil => exact h
  | cons e events ih =>
    exact ih (holding_step h (hwithin e List.mem_cons_self))
      fun e' he' => hwithin e' (List.mem_cons_of_mem _ he')

theorem followupDeadline_of_ends (h : s.Holding working) (hends : s.Ends e.event) :
    (s.step grace e).followupDeadline = some (e.time + grace) := by
  cases hevent : e.event with
  | taskStateChanged update =>
    rw [hevent] at hends
    obtain ⟨⟨outcome, houtcome, hkind⟩, hlive⟩ := hends
    obtain ⟨position, hposition⟩ := Option.isSome_iff_exists.mp hlive
    simp only [step, hevent, taskStateChanged, houtcome, hposition,
      if_pos (And.intro h.held hkind)]
  | _ => rw [hevent] at hends; exact hends.elim

theorem followupDeadline_of_poll (hevent : e.event = .holdsTurn) :
    (s.step grace e).followupDeadline = s.followupDeadline.filter (e.time < ·) := by
  simp only [step, hevent, holdsTurn]

theorem followupDeadline_step (h : s.Holding working) (hwithin : e.event.Within working)
    (hends : ¬s.Ends e.event) (hpoll : e.event ≠ .holdsTurn) :
    (s.step grace e).followupDeadline = s.followupDeadline := by
  unfold step
  cases hevent : e.event with
  | taskStateChanged update =>
    rw [hevent] at hends
    simp only [taskStateChanged]
    split
    · rfl
    · split <;> rfl
    · rfl
    · rename_i outcome position houtcome hposition
      have hstopped : outcome = .stopped := by
        by_contra hkind
        exact hends ⟨⟨outcome, houtcome, hkind⟩, by simp [hposition]⟩
      simp [hstopped]
  | sessionStateChanged state =>
    rw [hevent] at hwithin
    simp only [sessionStateChanged, if_pos (Or.inl (h.agent.trans hwithin.symm) :
      s.agentRunning = (state != "idle") ∨ s.holdStarted.isNone)]
  | unownedSessionStateChanged state =>
    simp only [unownedSessionStateChanged]
    split <;> rfl
  | promptAnswered => rfl
  | promptContinued => rw [hevent] at hwithin; exact hwithin.elim
  | holdsTurn => exact absurd hevent hpoll
  | report _ => rfl
  | takeFinished => rfl
  | finishHold => rw [hevent] at hwithin; exact hwithin.elim

/-! ## The deadline over a run of events -/

/-- Some command's end among `events` is not followed by a poll that finds its grace over. -/
def Awaited (grace : Nat) (s : BackgroundState) (events : List TimedEvent) : Prop :=
  ∃ before ended after, events = before ++ ended :: after ∧
    (s.run grace before).Ends ended.event ∧
    ∀ e ∈ after, e.event = .holdsTurn → e.time < ended.time + grace

theorem deadline_kept (grace : Nat) {bound : Nat} (h : s.Holding working)
    (hwithin : ∀ e ∈ events, e.event.Within working) (hlate : ∀ e ∈ events, bound ≤ e.time + grace)
    (hpolls : ∀ e ∈ events, e.event = .holdsTurn → e.time < bound)
    (hdeadline : ∃ d, s.followupDeadline = some d ∧ bound ≤ d) :
    ∃ d, (s.run grace events).followupDeadline = some d ∧ bound ≤ d := by
  induction events generalizing s with
  | nil => exact hdeadline
  | cons e events ih =>
    refine ih (holding_step h (hwithin e List.mem_cons_self))
      (fun e' he' => hwithin e' (List.mem_cons_of_mem _ he'))
      (fun e' he' => hlate e' (List.mem_cons_of_mem _ he'))
      (fun e' he' => hpolls e' (List.mem_cons_of_mem _ he')) ?_
    obtain ⟨d, hd, hbound⟩ := hdeadline
    by_cases hends : s.Ends e.event
    · exact ⟨_, followupDeadline_of_ends h hends, hlate e List.mem_cons_self⟩
    · by_cases hpoll : e.event = .holdsTurn
      · have hearly : e.time < d := (hpolls e List.mem_cons_self hpoll).trans_le hbound
        exact ⟨d, by rw [followupDeadline_of_poll hpoll, hd]; simp [hearly], hbound⟩
      · exact ⟨d, (followupDeadline_step h (hwithin e List.mem_cons_self) hends hpoll).trans hd,
          hbound⟩

theorem deadline_of_awaited (h : s.Holding working) (hwithin : ∀ e ∈ events, e.event.Within working)
    (hordered : Ordered events) (hawaited : s.Awaited grace events) :
    ∃ d, (s.run grace events).followupDeadline = some d := by
  obtain ⟨before, ended, after, rfl, hends, hpolls⟩ := hawaited
  have hbefore : (s.run grace before).Holding working :=
    holding_run grace h fun e he => hwithin e (List.mem_append_left _ he)
  have hended := hwithin ended (List.mem_append_right _ List.mem_cons_self)
  have hafter : ∀ e ∈ after, ended.time ≤ e.time :=
    (List.pairwise_cons.mp (List.pairwise_append.mp hordered).2.1).1
  obtain ⟨d, hd, -⟩ := deadline_kept grace (holding_step hbefore hended)
    (fun e he => hwithin e (List.mem_append_right _ (List.mem_cons_of_mem _ he)))
    (fun e he => Nat.add_le_add_right (hafter e he) grace) hpolls
    ⟨_, followupDeadline_of_ends hbefore hends, le_rfl⟩
  exact ⟨d, by simpa using hd⟩

theorem awaited_of_deadline {d : Nat} (h : s.Holding working)
    (hwithin : ∀ e ∈ events, e.event.Within working) (hnone : s.followupDeadline = none)
    (hd : (s.run grace events).followupDeadline = some d) :
    ∃ before ended after, events = before ++ ended :: after ∧
      (s.run grace before).Ends ended.event ∧ d = ended.time + grace ∧
      ∀ e ∈ after, e.event = .holdsTurn → e.time < d := by
  -- from the last event backwards: it set the deadline, or the one before it is still there
  induction events using List.reverseRecOn generalizing d with
  | nil => rw [run_nil, hnone] at hd; cases hd
  | append_singleton events e ih =>
    have hevents : ∀ e ∈ events, e.event.Within working :=
      fun e' he' => hwithin e' (List.mem_append_left _ he')
    have hholding : (s.run grace events).Holding working := holding_run grace h hevents
    have hlast : e.event.Within working := hwithin e (List.mem_append_right _ List.mem_cons_self)
    rw [run_append, run_cons, run_nil] at hd
    have hextend (hold : (s.run grace events).followupDeadline = some d)
        (hpoll : e.event = .holdsTurn → e.time < d) :
        ∃ before ended after, events ++ [e] = before ++ ended :: after ∧
          (s.run grace before).Ends ended.event ∧ d = ended.time + grace ∧
          ∀ e ∈ after, e.event = .holdsTurn → e.time < d := by
      obtain ⟨before, ended, after, heq, hends, htime, hpolls⟩ := ih hevents hold
      refine ⟨before, ended, after ++ [e], by simp [heq], hends, htime, fun e' he' => ?_⟩
      rcases List.mem_append.mp he' with he' | he'
      · exact hpolls e' he'
      · rw [List.mem_singleton.mp he']
        exact hpoll
    by_cases hends : (s.run grace events).Ends e.event
    · rw [followupDeadline_of_ends hholding hends] at hd
      exact ⟨events, e, [], rfl, hends, (Option.some.inj hd).symm, by simp⟩
    · by_cases hpoll : e.event = .holdsTurn
      · rw [followupDeadline_of_poll hpoll, Option.filter_eq_some_iff] at hd
        exact hextend hd.1 fun _ => of_decide_eq_true hd.2
      · rw [followupDeadline_step hholding hlast hends hpoll] at hd
        exact hextend hd fun hp => absurd hp hpoll

/-! ## Stopping what still runs -/

/-- A report that a command was stopped. -/
def stopped (now : Nat) (task : AgentBackgroundCommand) : TimedEvent :=
  ⟨now, .taskStateChanged { asyncTaskId := task.commandId, state := some .stopped }⟩

theorem run_stopped (grace now : Nat) (tasks : List AgentBackgroundCommand)
    (hlive : s.liveTasks = tasks) : let s' := s.run grace (tasks.map (stopped now))
    s'.liveTasks = [] ∧ s'.agentRunning = s.agentRunning ∧
      s'.followupDeadline = s.followupDeadline := by
  induction tasks generalizing s with
  | nil => exact ⟨hlive, rfl, rfl⟩
  | cons task tasks ih =>
    have hposition : s.position task.commandId = some 0 := by
      simp [position, hlive, List.findIdx?_cons]
    have hstep : (s.step grace (stopped now task)).liveTasks = tasks ∧
        (s.step grace (stopped now task)).agentRunning = s.agentRunning ∧
        (s.step grace (stopped now task)).followupDeadline = s.followupDeadline := by
      simp [step, stopped, taskStateChanged, AsyncTaskStateNotification.outcome, hposition, hlive]
    obtain ⟨htasks, hagent, hdeadline⟩ := ih hstep.1
    simp only [List.map_cons, run_cons]
    exact ⟨htasks, hagent.trans hstep.2.1, hdeadline.trans hstep.2.2⟩

/-! ## The follow-up wait -/

/-- The turn is held for `grace` after the instant `idle`: whatever happens, short of the Agent
working again or the hold being ended, `holds_turn` answers yes before `idle + grace`. -/
def FollowupWait (grace idle : Nat) (s : BackgroundState) : Prop :=
  ∀ (window : List TimedEvent) (now : Nat), Ordered (window ++ [⟨now, .holdsTurn⟩]) →
    (∀ e ∈ window, idle ≤ e.time ∧ e.event.Within false) → idle ≤ now → now < idle + grace →
    ((s.run grace window).holdsTurn now).1 = true

theorem followupWait_of_deadline {idle d : Nat} (h : s.InCycle) (hd : s.followupDeadline = some d) :
    (s.step grace ⟨idle, .sessionStateChanged "idle"⟩).FollowupWait grace idle := by
  intro window now hordered hwindow _ hnow
  have hchanged : ¬(s.agentRunning = ("idle" != "idle") ∨ s.holdStarted.isNone) := by
    obtain ⟨started, hstarted⟩ := Option.isSome_iff_exists.mp h.1
    simp [h.2, hstarted]
  have hholding : (s.step grace ⟨idle, .sessionStateChanged "idle"⟩).Holding false := by
    simp only [step, sessionStateChanged, if_neg hchanged]
    exact ⟨h.1, rfl⟩
  have hdeadline : (s.step grace ⟨idle, .sessionStateChanged "idle"⟩).followupDeadline =
      some (idle + grace) := by
    simp [step, sessionStateChanged, h.2, Option.isSome_iff_ne_none.mp h.1, hd]
  obtain ⟨d', hd', hbound⟩ := deadline_kept grace hholding (fun e he => (hwindow e he).2)
    (fun e he => Nat.add_le_add_right (hwindow e he).1 grace)
    (fun e he _ => ((List.pairwise_append.mp hordered).2.2 e he _ List.mem_cons_self).trans_lt hnow)
    ⟨_, hdeadline, le_rfl⟩
  simp only [holdsTurn, hd', Option.filter_some, hnow.trans_le hbound, decide_true, if_true,
    Option.isSome_some, Bool.or_true]

theorem not_followupWait_of_no_deadline {idle : Nat} (hgrace : 0 < grace) (h : s.InCycle)
    (hnone : s.followupDeadline = none) :
    ¬(s.step grace ⟨idle, .sessionStateChanged "idle"⟩).FollowupWait grace idle := by
  intro hwait
  have hidle : (s.step grace ⟨idle, .sessionStateChanged "idle"⟩).agentRunning = false ∧
      (s.step grace ⟨idle, .sessionStateChanged "idle"⟩).followupDeadline = none := by
    simp [step, sessionStateChanged, h.2, Option.isSome_iff_ne_none.mp h.1, hnone]
  generalize s.step grace ⟨idle, .sessionStateChanged "idle"⟩ = s' at hwait hidle
  obtain ⟨hlive, hagent, hdeadline⟩ := run_stopped grace (s := s') idle s'.liveTasks rfl
  have htimes : ∀ e ∈ s'.liveTasks.map (stopped idle) ++ [⟨idle, .holdsTurn⟩], e.time = idle := by
    intro e he
    rcases List.mem_append.mp he with he | he
    · obtain ⟨task, -, rfl⟩ := List.mem_map.mp he
      rfl
    · rw [List.mem_singleton.mp he]
  have hholds := hwait (s'.liveTasks.map (stopped idle)) idle
    (List.pairwise_of_forall_mem_list fun a ha b hb => by rw [htimes a ha, htimes b hb])
    (fun e he => ⟨(htimes e (List.mem_append_left _ he)).ge, by
      obtain ⟨task, -, rfl⟩ := List.mem_map.mp he
      trivial⟩) le_rfl (by omega)
  simp [holdsTurn, hlive, hagent, hdeadline, hidle.1, hidle.2] at hholds

end BackgroundState

open BackgroundState

/-- A cycle the Agent starts by itself while an answered turn is held: `start` opens it, either as
the Agent's report that it works or as the poll that starts the hold while it does, and `cycle` is
what happens until the Agent reports `idle`. -/
structure OwnCycle (grace : Nat) (opening : List TimedEvent) (start : TimedEvent)
    (cycle : List TimedEvent) (idle : Nat) : Prop where
  ordered : Ordered (opening ++ start :: cycle ++ [⟨idle, .sessionStateChanged "idle"⟩])
  notYet : ¬(({} : BackgroundState).run grace opening).InCycle
  opens : (∃ state, start.event = .sessionStateChanged state) ∨ start.event = .holdsTurn
  started : (({} : BackgroundState).run grace (opening ++ [start])).InCycle
  within : ∀ e ∈ cycle, e.event.Within true

/-- **When a finished command gets its follow-up wait.**  Of a cycle during which some command ended
(not by a stop), the turn is held for a full grace after it exactly when one of those ends was not
followed, within the cycle, by a poll that found its grace over. -/
theorem followup_wait_iff {grace : Nat} {opening : List TimedEvent} {start : TimedEvent}
    {cycle : List TimedEvent} {idle : Nat} (h : OwnCycle grace opening start cycle idle)
    (_hended : ∃ before ended after, cycle = before ++ ended :: after ∧
      (({} : BackgroundState).run grace (opening ++ start :: before)).Ends ended.event) :
    (({} : BackgroundState).run grace
        (opening ++ start :: cycle ++ [⟨idle, .sessionStateChanged "idle"⟩])).FollowupWait
        grace idle ↔
      grace = 0 ∨
      (({} : BackgroundState).run grace (opening ++ [start])).Awaited grace cycle := by
  have hrun : ({} : BackgroundState).run grace
        (opening ++ start :: cycle ++ [⟨idle, .sessionStateChanged "idle"⟩]) =
      ((({} : BackgroundState).run grace (opening ++ [start])).run grace cycle).step grace
        ⟨idle, .sessionStateChanged "idle"⟩ := by
    simp only [run_append, run_cons, run_nil]
  have hnone : (({} : BackgroundState).run grace (opening ++ [start])).followupDeadline = none := by
    have hstarted := h.started
    rw [run_append, run_cons, run_nil] at hstarted ⊢
    exact followupDeadline_cycle_start (holdOwnsDeadline_run grace opening fun _ => rfl)
      h.notYet h.opens hstarted
  have hstart : (({} : BackgroundState).run grace (opening ++ [start])).Holding true :=
    ⟨h.started.1, h.started.2⟩
  have hordered : Ordered cycle :=
    (List.pairwise_cons.mp (List.pairwise_append.mp
      (List.pairwise_append.mp h.ordered).1).2.1).2
  rw [hrun]
  generalize ({} : BackgroundState).run grace (opening ++ [start]) = s at hnone hstart
  have hend := holding_run grace hstart h.within
  rcases Nat.eq_zero_or_pos grace with hzero | hpos
  · -- no instant lies within a grace of nothing
    refine ⟨fun _ => .inl hzero, fun _ window now _ _ hle hlt => ?_⟩
    omega
  constructor
  · intro hwait
    cases hdeadline : (s.run grace cycle).followupDeadline with
    | none =>
      exact absurd hwait (not_followupWait_of_no_deadline hpos ⟨hend.held, hend.agent⟩ hdeadline)
    | some d =>
      obtain ⟨before, ended, after, heq, hends, rfl, hpolls⟩ :=
        awaited_of_deadline hstart h.within hnone hdeadline
      exact .inr ⟨before, ended, after, heq, hends, hpolls⟩
  · rintro (hzero | hawaited)
    · omega
    · obtain ⟨d, hd⟩ := deadline_of_awaited hstart h.within hordered hawaited
      exact followupWait_of_deadline ⟨hend.held, hend.agent⟩ hd

/-- A command is started, the prompt answered, the turn held, and the Agent reports that it works.
-/
def heldCommand : List TimedEvent :=
  [⟨0, .taskStateChanged { asyncTaskId := "build", state := some .running }⟩,
   ⟨1, .promptAnswered⟩, ⟨2, .holdsTurn⟩]

def buildCompleted : TimedEvent :=
  ⟨4, .taskStateChanged { asyncTaskId := "build", state := some .completed }⟩

/-- A short cycle, during which the command ends, is followed by the wait. -/
theorem short_cycle_keeps_followup :
    OwnCycle 10 heldCommand ⟨3, .sessionStateChanged "running"⟩ [buildCompleted] 6 ∧
    (({} : BackgroundState).run 10 (heldCommand ++ ⟨3, .sessionStateChanged "running"⟩ ::
      [buildCompleted] ++ [⟨6, .sessionStateChanged "idle"⟩])).FollowupWait 10 6 := by
  have hcycle : OwnCycle 10 heldCommand ⟨3, .sessionStateChanged "running"⟩ [buildCompleted] 6 :=
    ⟨by decide +kernel, by decide +kernel, .inl ⟨_, rfl⟩, by decide +kernel, by decide +kernel⟩
  have hends : (({} : BackgroundState).run 10
      (heldCommand ++ [⟨3, .sessionStateChanged "running"⟩])).Ends buildCompleted.event :=
    ⟨⟨.completed, rfl, by decide⟩, by decide +kernel⟩
  exact ⟨hcycle, (followup_wait_iff hcycle ⟨[], buildCompleted, [], rfl, hends⟩).mpr
    (.inr ⟨[], buildCompleted, [], rfl, hends, by simp⟩)⟩

/-- The command ends at 4, the runner polls at 14 while the Agent still works, and the Agent reports
`idle` at 20: the turn is let go at once. -/
theorem long_cycle_loses_followup :
    OwnCycle 10 heldCommand ⟨3, .sessionStateChanged "running"⟩
    [buildCompleted, ⟨14, .holdsTurn⟩] 20 ∧
    (({} : BackgroundState).run 10
      (heldCommand ++ [⟨3, .sessionStateChanged "running"⟩])).Ends buildCompleted.event ∧
    ¬(({} : BackgroundState).run 10 (heldCommand ++ ⟨3, .sessionStateChanged "running"⟩ ::
      [buildCompleted, ⟨14, .holdsTurn⟩] ++ [⟨20, .sessionStateChanged "idle"⟩])).FollowupWait
      10 20 :=
  ⟨⟨by decide +kernel, by decide +kernel, .inl ⟨_, rfl⟩, by decide +kernel, by decide +kernel⟩,
    ⟨⟨.completed, rfl, by decide⟩, by decide +kernel⟩,
    fun hwait => absurd (hwait [] 20 (by decide) (by simp) (by decide) (by decide))
      (by decide +kernel)⟩

end OpenAide

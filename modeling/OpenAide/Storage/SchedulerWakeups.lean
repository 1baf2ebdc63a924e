import OpenAide.Storage.SchedulerAccounting

/-!
# Waiting on the write scheduler

The scheduler has one condition variable, `changed`, for two kinds of waiters: callers whose write
has no room (`admit`, `wait_for_capacity`) and the writer inside `next` (`scheduler.rs:89-150`,
`271-318`).  Admission wakes one of them with `notify_one`, everything else wakes all.

Here every stretch of code under the lock is one event, and a notification picks whom it wakes: with
`notify_one` any waiter, chosen by the event (`Wakeup`).  A woken thread has left the wait but has
to take the lock again (`resume`, `next`); a wait can also end by itself (`rouse`), and the writer's
wait for a larger batch by its time (`expire`).  As in `stream_text.rs:141` and `mutation.rs:629`, a
caller waits for capacity with a write that `try_admit` gave back.

- `Vigilant` is the invariant: who sleeps has nothing to do;
- `parked_alone`: while the writer sleeps without a time limit no caller sleeps, so the one
  notification of an admission can only go to the writer;
- `no_lost_wakeup`: **no waiter sleeps on work or room it was not told of**, in every run.
-/

namespace OpenAide.Scheduler

open Library

variable (sizes : JsonSizes)

/-! ## Threads -/

/-- The call in which a caller sleeps. -/
inductive Blocking where
  | admitWrite | waitForCapacity
  deriving DecidableEq

/-- A caller in `changed.wait`. -/
structure Sleeper where
  blocking : Blocking
  write : TaskWrite
  deriving DecidableEq

/-- What the writer has to finish before it calls `next` again (`worker.rs:39-48`). -/
inductive Exclusive where
  | reset | purge
  deriving DecidableEq

/-- Where the writer is. -/
inductive Worker where
  /-- At work on what `next` gave it. -/
  | outside (owes : Option Exclusive)
  /-- In `next`, notified, on its way to the lock. -/
  | inside
  /-- In `changed.wait`. -/
  | parked
  /-- In `changed.wait_timeout`. -/
  | parkedFor
  /-- Out of `changed.wait_timeout` by its time, on its way to the lock. -/
  | expired
  | stopped
  deriving DecidableEq

namespace Worker

def isParked : Worker → Bool
  | parked | parkedFor => true
  | _ => false

/-- After a notification. -/
def wake : Worker → Worker
  | parked | parkedFor => inside
  | worker => worker

/-- After `next` returned with some work. -/
def handed : NextWork → Worker
  | .batch _ _ => outside none
  | .reset _ => outside (some .reset)
  | .purge _ _ => outside (some .purge)
  | .shutdown _ => stopped
  | .closed => stopped

theorem wake_ne_parked (worker : Worker) : worker.wake ≠ parked := by
  cases worker <;> simp [wake]

@[simp] theorem wake_eq_outside {worker : Worker} {owes : Option Exclusive} :
    worker.wake = outside owes ↔ worker = outside owes := by
  cases worker <;> simp [wake]

end Worker

/-- The scheduler with everyone who uses it. -/
structure Users where
  state : SchedulerState := {}
  replies : Nat := 0
  worker : Worker := .outside none
  /-- Callers that sleep and were not notified. -/
  parked : List Sleeper := []
  /-- Callers that were notified, on their way to the lock. -/
  woken : List Sleeper := []
  /-- Writes that `try_admit` gave back. -/
  returned : List TaskWrite := []

/-- Whom `notify_one` wakes. -/
inductive Wakeup where
  | nobody
  | worker
  | caller (index : Nat)

namespace Users

def notifyAll (u : Users) : Users :=
  { u with worker := u.worker.wake, parked := [], woken := u.parked ++ u.woken }

/-- `notify_one` wakes a waiter if there is one. -/
def notifyOne (u : Users) : Wakeup → Option Users
  | .nobody => if u.parked.isEmpty && !u.worker.isParked then some u else none
  | .worker => if u.worker.isParked then some { u with worker := u.worker.wake } else none
  | .caller index => do
    let sleeper ← u.parked[index]?
    return { u with parked := u.parked.eraseIdx index, woken := sleeper :: u.woken }

/-- A write is in, and its admission left the scheduler in `state`. -/
def admitted (u : Users) (state : SchedulerState) : Users :=
  { u with state, replies := u.replies + 1 }

/-- The condition under which `admit` and `wait_for_capacity` go to sleep. -/
def blocks (u : Users) (write : TaskWrite) : Bool :=
  !u.state.closed && u.state.shutdownReply.isNone &&
    (hasPendingExclusiveControl u.state || !hasCapacity sizes u.state write)

/-- A caller at the head of its loop, with the lock. -/
def attempt (u : Users) (sleeper : Sleeper) (wakes : Wakeup) : Option Users :=
  match sleeper.blocking with
  | .admitWrite =>
    match admitWrite sizes u.state sleeper.write u.replies with
    | .waits => some { u with parked := sleeper :: u.parked }
    | .failed _ => some u
    | .admitted state => (u.admitted state).notifyOne wakes
  | .waitForCapacity =>
    if u.blocks sizes sleeper.write then some { u with parked := sleeper :: u.parked } else some u

end Users

/-- `should_wait_for_batch` (`scheduler.rs:393`). -/
def shouldWaitForBatch (s : SchedulerState) (taskId : String) : Bool :=
  match s.pending taskId with
  | some task => s.ready.length == 1 && s.shutdownReply.isNone && task.controlWrites == 0 &&
      decide (task.queuedBytes < MAX_BATCH_BYTES) &&
      decide (task.queuedOperations < MAX_BATCH_OPERATIONS)
  | none => false

namespace Users

/-- `next` returns: a batch and a shutdown wake everyone. -/
def handOut (u : Users) (work : NextWork) (state : SchedulerState) : Users :=
  let u := { u with state := state, worker := .handed work }
  match work with
  | .batch _ _ => u.notifyAll
  | .shutdown _ => u.notifyAll
  | _ => u

/-- One round of the loop of `next` (`scheduler.rs:273`).  `elapsed` says that the first write of
the batch has waited long enough. -/
def round (u : Users) (elapsed : Bool) : Users :=
  if u.state.ready.head?.any (shouldWaitForBatch u.state) && !elapsed then
    { u with worker := .parkedFor }
  else
    match next sizes u.state with
    | some (work, state) => u.handOut work state
    | none => { u with worker := .parked }

end Users

/-! ## Events -/

inductive Event where
  | admitWrite (write : TaskWrite) (wakes : Wakeup)
  | tryAdmit (write : TaskWrite) (wakes : Wakeup)
  /-- A caller waits for capacity for the write that `try_admit` gave back. -/
  | waitForCapacity (index : Nat)
  /-- A notified caller has the lock again. -/
  | resume (index : Nat) (wakes : Wakeup)
  /-- A sleeping caller wakes without a notification. -/
  | rouse (index : Nat)
  /-- The writer calls `next`, or goes on in it with the lock. -/
  | next (elapsed : Bool)
  | expire
  | rouseWorker
  /-- The writer calls `finish_reset` or `finish_purge`. -/
  | finish
  | requestReset (reply : Nat)
  | requestPurge (taskId : String) (reply : Nat)
  | requestShutdown (reply : Nat)
  | close
  | failAll

namespace Users

/-- A request that may be refused; one that is not wakes everyone. -/
def requested (u : Users) : Except RuntimeError SchedulerState → Users
  | .ok state => { u with state }.notifyAll
  | .error _ => u

/-- What an event does; `none` if it cannot happen. -/
def step (u : Users) : Event → Option Users
  | .admitWrite write wakes => u.attempt sizes ⟨.admitWrite, write⟩ wakes
  | .tryAdmit write wakes =>
    match Scheduler.tryAdmit sizes u.state write u.replies with
    | (.error _, state) => some { u with state }
    | (.ok (some write), state) => some { u with state, returned := write :: u.returned }
    | (.ok none, state) => (u.admitted state).notifyOne wakes
  | .waitForCapacity index => do
    let write ← u.returned[index]?
    { u with returned := u.returned.eraseIdx index }.attempt sizes ⟨.waitForCapacity, write⟩ .nobody
  | .resume index wakes => do
    let sleeper ← u.woken[index]?
    { u with woken := u.woken.eraseIdx index }.attempt sizes sleeper wakes
  | .rouse index => do
    let sleeper ← u.parked[index]?
    return { u with parked := u.parked.eraseIdx index, woken := sleeper :: u.woken }
  | .next elapsed =>
    match u.worker with
    | .outside none => some (u.round sizes elapsed)
    | .inside => some (u.round sizes elapsed)
    | .expired =>
      -- the front was there before the wait; without one the writer panics
      if u.state.ready.isEmpty then some { u with worker := .stopped }
      else some (u.round sizes true)
    | _ => none
  | .expire => if u.worker = .parkedFor then some { u with worker := .expired } else none
  | .rouseWorker => if u.worker.isParked then some { u with worker := .inside } else none
  | .finish =>
    match u.worker with
    | .outside (some .reset) =>
      some { u with state := finishReset u.state, worker := .outside none }.notifyAll
    | .outside (some .purge) =>
      some { u with state := finishPurge u.state, worker := .outside none }.notifyAll
    | _ => none
  | .requestReset reply => some (u.requested (Scheduler.requestReset u.state reply))
  | .requestPurge taskId reply => some (u.requested (Scheduler.requestPurge u.state taskId reply))
  | .requestShutdown reply => some (u.requested (Scheduler.requestShutdown u.state reply))
  | .close => some { u with state := Scheduler.close u.state }.notifyAll
  | .failAll => some { u with state := Scheduler.failAll u.state }.notifyAll

/-- A whole run. -/
def run (events : List Event) : Option Users := events.foldlM (step sizes) {}

end Users

/-! ## Who sleeps has nothing to do -/

/-- Nothing for the writer. -/
structure Idle (s : SchedulerState) : Prop where
  ready : s.ready = []
  resetReply : s.resetReply = none
  purgeReply : s.purgeReply = none
  shutdownReply : s.shutdownReply = none

/-- No room for the write, or none is given at the moment. -/
def Blocked (s : SchedulerState) (write : TaskWrite) : Prop :=
  hasPendingExclusiveControl s = true ∨ hasCapacity sizes s write = false

def ValidSize (write : TaskWrite) : Prop := validateWriteSize sizes write = .ok ()

structure Vigilant (u : Users) : Prop where
  balanced : Balanced sizes u.state
  worker : u.worker = .parked → Idle u.state
  resetting : u.state.resetting = true → u.worker = .outside (some .reset)
  purging : u.state.purging = true → u.worker = .outside (some .purge)
  blocked : ∀ sleeper ∈ u.parked, Blocked sizes u.state sleeper.write
  sizedParked : ∀ sleeper ∈ u.parked, ValidSize sizes sleeper.write
  sizedWoken : ∀ sleeper ∈ u.woken, ValidSize sizes sleeper.write
  sizedReturned : ∀ write ∈ u.returned, ValidSize sizes write

variable {s : SchedulerState} {write : TaskWrite}

/-- **With nothing queued and no exclusive control there is room for every write of valid size.** -/
theorem not_blocked_of_idle (h : Balanced sizes s) (hidle : Idle s)
    (hresetting : s.resetting = false) (hpurging : s.purging = false)
    (hsize : ValidSize sizes write) : ¬ Blocked sizes s write := by
  have hexclusive : hasPendingExclusiveControl s = false := by
    simp [hasPendingExclusiveControl, hidle.resetReply, hidle.purgeReply, hresetting, hpurging]
  have hstream : s.globalStreamBytes = 0 := by
    rw [h.globalStreamBytes, SchedulerState.total, hidle.ready]
    rfl
  have hcontrol : s.globalControlWrites = 0 := by
    rw [h.globalControlWrites, SchedulerState.total, hidle.ready]
    rfl
  have hnone : s.pending write.taskId = none := by
    have hiff := h.ready_iff write.taskId
    rw [hidle.ready] at hiff
    simpa using hiff
  have hcapacity : hasCapacity sizes s write = true := by
    rw [hasCapacity_iff sizes h, hstream, hcontrol, hnone]
    split
    · exact Nat.zero_lt_succ _
    · rename_i hstreamWrite
      have hle : write.estimatedBytes sizes ≤ PER_TASK_STREAM_BYTE_CAPACITY := by
        by_contra hlt
        have hsize' := hsize
        simp [ValidSize, validateWriteSize, hstreamWrite, not_le.mp hlt] at hsize'
      have hcaps : PER_TASK_STREAM_BYTE_CAPACITY ≤ GLOBAL_STREAM_BYTE_CAPACITY := by decide
      exact ⟨by omega, by simpa using hle⟩
  rintro (hblocked | hblocked)
  · simp [hexclusive] at hblocked
  · simp [hcapacity] at hblocked

variable {u : Users}

theorem Vigilant.parked_alone (h : Vigilant sizes u) (hworker : u.worker = .parked) :
    u.parked = [] := by
  have hresetting : u.state.resetting = false := by
    by_contra hne
    have := h.resetting (by simpa using hne)
    simp [hworker] at this
  have hpurging : u.state.purging = false := by
    by_contra hne
    have := h.purging (by simpa using hne)
    simp [hworker] at this
  refine List.eq_nil_iff_forall_not_mem.mpr fun sleeper hmem => ?_
  exact not_blocked_of_idle sizes h.balanced (h.worker hworker) hresetting hpurging
    (h.sizedParked sleeper hmem) (h.blocked sleeper hmem)

/-! ### Notifications -/

theorem vigilant_notifyAll (hbalanced : Balanced sizes u.state)
    (hresetting : u.state.resetting = true → u.worker = .outside (some .reset))
    (hpurging : u.state.purging = true → u.worker = .outside (some .purge))
    (hparked : ∀ sleeper ∈ u.parked, ValidSize sizes sleeper.write)
    (hwoken : ∀ sleeper ∈ u.woken, ValidSize sizes sleeper.write)
    (hreturned : ∀ write ∈ u.returned, ValidSize sizes write) : Vigilant sizes u.notifyAll where
  balanced := hbalanced
  worker h := absurd h (Worker.wake_ne_parked _)
  resetting h := Worker.wake_eq_outside.mpr (hresetting h)
  purging h := Worker.wake_eq_outside.mpr (hpurging h)
  blocked := by simp [Users.notifyAll]
  sizedParked := by simp [Users.notifyAll]
  sizedWoken sleeper hmem := (List.mem_append.mp hmem).elim (hparked sleeper) (hwoken sleeper)
  sizedReturned := hreturned

theorem Vigilant.notifyAll (h : Vigilant sizes u) {state : SchedulerState}
    (hbalanced : Balanced sizes state)
    (hresetting : state.resetting = true → u.state.resetting = true)
    (hpurging : state.purging = true → u.state.purging = true) :
    Vigilant sizes { u with state }.notifyAll :=
  vigilant_notifyAll sizes hbalanced (fun hr => h.resetting (hresetting hr))
    (fun hp => h.purging (hpurging hp)) h.sizedParked h.sizedWoken h.sizedReturned

variable {sleeper : Sleeper}

/-- Waking one caller. -/
theorem Vigilant.wakeCaller (h : Vigilant sizes u) {index : Nat}
    (hsleeper : u.parked[index]? = some sleeper) :
    Vigilant sizes { u with
      parked := u.parked.eraseIdx index, woken := sleeper :: u.woken } where
  balanced := h.balanced
  worker := h.worker
  resetting := h.resetting
  purging := h.purging
  blocked other hother := h.blocked other (List.mem_of_mem_eraseIdx hother)
  sizedParked other hother := h.sizedParked other (List.mem_of_mem_eraseIdx hother)
  sizedWoken other hother := by
    rcases List.mem_cons.mp hother with rfl | hother
    · exact h.sizedParked _ (List.mem_of_getElem? hsleeper)
    · exact h.sizedWoken other hother
  sizedReturned := h.sizedReturned

theorem Vigilant.moveWorker (h : Vigilant sizes u) {worker : Worker} (hne : worker ≠ .parked)
    (hfrom : ∀ owes, u.worker ≠ .outside (some owes)) : Vigilant sizes { u with worker } where
  balanced := h.balanced
  worker hparked := absurd hparked hne
  resetting hr := absurd (h.resetting hr) (hfrom _)
  purging hp := absurd (h.purging hp) (hfrom _)
  blocked := h.blocked
  sizedParked := h.sizedParked
  sizedWoken := h.sizedWoken
  sizedReturned := h.sizedReturned

theorem Worker.isParked_ne_outside {worker : Worker} (h : worker.isParked = true)
    (owes : Option Exclusive) : worker ≠ .outside owes := by
  rintro rfl
  cases h

/-! ### Admission -/

theorem blocked_enqueue (h : Balanced sizes s) {other : TaskWrite} (reply : Nat)
    (hcapacity : hasCapacity sizes s write = true) (hblocked : Blocked sizes s other) :
    Blocked sizes (enqueue sizes s write reply) other := by
  refine hblocked.imp_right fun hfull => ?_
  by_contra hroom
  rw [Bool.not_eq_false, hasCapacity_iff sizes (balanced_enqueue sizes h reply hcapacity)] at hroom
  rw [← Bool.not_eq_true, hasCapacity_iff sizes h] at hfull
  have hcontrol : s.globalControlWrites ≤ (enqueue sizes s write reply).globalControlWrites := by
    simp only [enqueue]
    split <;> omega
  have hstream : s.globalStreamBytes ≤ (enqueue sizes s write reply).globalStreamBytes := by
    simp only [enqueue]
    split <;> omega
  have htask : ((s.pending other.taskId).getD {}).streamBytes ≤
      (((enqueue sizes s write reply).pending other.taskId).getD {}).streamBytes := by
    by_cases hid : other.taskId = write.taskId
    · simp only [enqueue, hid, Function.update_self, Option.getD_some]
      split <;> omega
    · simp only [enqueue, Function.update_of_ne hid, le_refl]
  split_ifs at hroom hfull
  · omega
  · omega

variable {u' : Users}

/-- **The one notification of an admission reaches the writer if it sleeps without a time limit.**
-/
theorem vigilant_admitted (h : Vigilant sizes u)
    (hcapacity : hasCapacity sizes u.state write = true) {wakes : Wakeup}
    (hnotify : (u.admitted (enqueue sizes u.state write u.replies)).notifyOne wakes = some u') :
    Vigilant sizes u' := by
  have hblocked : ∀ sleeper ∈ u.parked,
      Blocked sizes (enqueue sizes u.state write u.replies) sleeper.write := fun sleeper hmem =>
    blocked_enqueue sizes h.balanced _ hcapacity (h.blocked sleeper hmem)
  by_cases hworker : u.worker = .parked
  · have hnobody : u.parked = [] := h.parked_alone sizes hworker
    cases wakes with
    | nobody => simp [Users.notifyOne, Users.admitted, hworker, Worker.isParked] at hnotify
    | caller index => simp [Users.notifyOne, Users.admitted, hnobody] at hnotify
    | worker =>
      simp only [Users.notifyOne, Users.admitted, hworker, Worker.isParked, if_true,
        Option.some.injEq] at hnotify
      subst hnotify
      constructor
      · exact balanced_enqueue sizes h.balanced _ hcapacity
      · intro hparked
        cases hparked
      · intro hr
        have := h.resetting hr
        simp [hworker] at this
      · intro hp
        have := h.purging hp
        simp [hworker] at this
      · exact hblocked
      · exact h.sizedParked
      · exact h.sizedWoken
      · exact h.sizedReturned
  · have hadmitted : Vigilant sizes (u.admitted (enqueue sizes u.state write u.replies)) := {
      balanced := balanced_enqueue sizes h.balanced _ hcapacity
      worker := fun hparked => absurd hparked hworker
      resetting := h.resetting
      purging := h.purging
      blocked := hblocked
      sizedParked := h.sizedParked
      sizedWoken := h.sizedWoken
      sizedReturned := h.sizedReturned }
    cases wakes with
    | nobody =>
      simp only [Users.notifyOne, Option.ite_none_right_eq_some] at hnotify
      cases hnotify.2
      exact hadmitted
    | worker =>
      simp only [Users.notifyOne, Option.ite_none_right_eq_some] at hnotify
      cases hnotify.2
      exact hadmitted.moveWorker sizes (Worker.wake_ne_parked _)
        fun owes => Worker.isParked_ne_outside hnotify.1 _
    | caller index =>
      simp only [Users.notifyOne, Option.bind_eq_bind, Option.bind_eq_some_iff] at hnotify
      obtain ⟨sleeper, hsleeper, heq⟩ := hnotify
      cases heq
      exact hadmitted.wakeCaller sizes hsleeper

/-- Going to sleep. -/
theorem Vigilant.park (h : Vigilant sizes u) (hblocked : Blocked sizes u.state sleeper.write)
    (hsize : ValidSize sizes sleeper.write) :
    Vigilant sizes { u with parked := sleeper :: u.parked } where
  balanced := h.balanced
  worker := h.worker
  resetting := h.resetting
  purging := h.purging
  blocked other hother := by
    rcases List.mem_cons.mp hother with rfl | hother
    · exact hblocked
    · exact h.blocked other hother
  sizedParked other hother := by
    rcases List.mem_cons.mp hother with rfl | hother
    · exact hsize
    · exact h.sizedParked other hother
  sizedWoken := h.sizedWoken
  sizedReturned := h.sizedReturned

theorem blocked_of_waits {reply : Nat} (h : admitWrite sizes s write reply = .waits) :
    Blocked sizes s write ∧ ValidSize sizes write := by
  unfold admitWrite at h
  split at h
  · cases h
  · rename_i hsize
    split_ifs at h with hclosed hfull
    exact ⟨by simpa [Blocked] using hfull, hsize⟩

variable {s' : SchedulerState}

theorem validSize_of_tryAdmit {returned : TaskWrite} {reply : Nat}
    (h : tryAdmit sizes s write reply = (.ok (some returned), s')) : ValidSize sizes returned := by
  unfold tryAdmit at h
  split at h
  · cases h
  · rename_i hsize
    split_ifs at h with hclosed hfull
    · cases h
    · cases h
      exact hsize
    · cases h

theorem vigilant_attempt (h : Vigilant sizes u) {wakes : Wakeup}
    (hsize : sleeper.blocking = .waitForCapacity → ValidSize sizes sleeper.write)
    (hattempt : u.attempt sizes sleeper wakes = some u') : Vigilant sizes u' := by
  cases hblocking : sleeper.blocking with
  | admitWrite =>
    simp only [Users.attempt, hblocking] at hattempt
    split at hattempt
    · rename_i hwaits
      cases hattempt
      obtain ⟨hblocked, hvalid⟩ := blocked_of_waits sizes hwaits
      exact h.park sizes hblocked hvalid
    · cases hattempt
      exact h
    · rename_i hadmitted
      obtain ⟨hcapacity, rfl⟩ := admitWrite_admitted sizes hadmitted
      exact vigilant_admitted sizes h hcapacity hattempt
  | waitForCapacity =>
    simp only [Users.attempt, hblocking] at hattempt
    split_ifs at hattempt with hblocks
    · cases hattempt
      refine h.park sizes ?_ (hsize hblocking)
      simp only [Users.blocks, Bool.and_eq_true, Bool.or_eq_true, Bool.not_eq_true'] at hblocks
      exact hblocks.2
    · cases hattempt
      exact h

/-! ### The writer -/

theorem idle_of_next_eq_none (hresetting : s.resetting = false) (hpurging : s.purging = false)
    (h : next sizes s = none) : Idle s := by
  cases hready : s.ready with
  | cons id ready => simp [next, hready] at h
  | nil =>
    simp only [next, hready, hresetting, hpurging] at h
    split at h
    · cases h
    · cases h
    · rename_i hreset hpurge
      cases hshutdown : s.shutdownReply with
      | some reply => simp [hshutdown] at h
      | none => exact ⟨hready, hreset, hpurge, hshutdown⟩

theorem takeBatch_flags (s : SchedulerState) (id : String) :
    (takeBatch sizes s id).2.resetting = s.resetting ∧
      (takeBatch sizes s id).2.purging = s.purging := by
  unfold takeBatch
  split
  · exact ⟨rfl, rfl⟩
  · simp only [foldl_discharge_state]
    split <;> exact ⟨rfl, rfl⟩

theorem next_flags {work : NextWork} (h : next sizes s = some (work, s')) :
    (s'.resetting = true → s.resetting = true ∨ Worker.handed work = .outside (some .reset)) ∧
      (s'.purging = true → s.purging = true ∨ Worker.handed work = .outside (some .purge)) := by
  cases hready : s.ready with
  | cons id ready =>
    cases (next_cons sizes hready).symm.trans h
    obtain ⟨hresetting, hpurging⟩ := takeBatch_flags sizes { s with ready := ready } id
    exact ⟨fun hr => .inl (hresetting ▸ hr), fun hp => .inl (hpurging ▸ hp)⟩
  | nil =>
    simp only [next, hready] at h
    split at h
    · cases h
      exact ⟨fun _ => .inr rfl, .inl⟩
    · cases h
      exact ⟨.inl, fun _ => .inr rfl⟩
    · split at h
      · split_ifs at h
        · cases h
          exact ⟨.inl, .inl⟩
        · cases h
          exact ⟨.inl, .inl⟩
      · split_ifs at h
        cases h
        exact ⟨.inl, .inl⟩

theorem blocked_next {work : NextWork} (h : next sizes s = some (work, s'))
    (hbatch : ∀ id writes, work ≠ .batch id writes) (hshutdown : ∀ reply, work ≠ .shutdown reply)
    (hblocked : Blocked sizes s write) : Blocked sizes s' write := by
  cases hready : s.ready with
  | cons id ready =>
    cases (next_cons sizes hready).symm.trans h
    exact absurd rfl (hbatch _ _)
  | nil =>
    simp only [next, hready] at h
    split at h
    · cases h
      exact .inl (by simp [hasPendingExclusiveControl])
    · cases h
      exact .inl (by simp [hasPendingExclusiveControl])
    · split at h
      · split_ifs at h
        · cases h
          exact absurd rfl (hshutdown _)
        · cases h
          exact hblocked
      · split_ifs at h
        cases h
        exact hblocked

theorem Worker.handed_ne_parked (work : NextWork) : Worker.handed work ≠ .parked := by
  cases work <;> simp [Worker.handed]

theorem vigilant_handOut (h : Vigilant sizes u) (hfrom : ∀ owes, u.worker ≠ .outside (some owes))
    {work : NextWork} {state : SchedulerState} (hnext : next sizes u.state = some (work, state)) :
    Vigilant sizes (u.handOut work state) := by
  obtain ⟨hresetting, hpurging⟩ := next_flags sizes hnext
  have hresetting' : state.resetting = true → Worker.handed work = .outside (some .reset) :=
    fun hr => (hresetting hr).resolve_left fun hold => hfrom _ (h.resetting hold)
  have hpurging' : state.purging = true → Worker.handed work = .outside (some .purge) :=
    fun hp => (hpurging hp).resolve_left fun hold => hfrom _ (h.purging hold)
  have hbalanced := balanced_next sizes h.balanced hnext
  have hwake : Vigilant sizes { u with state, worker := .handed work }.notifyAll :=
    vigilant_notifyAll sizes hbalanced hresetting' hpurging' h.sizedParked h.sizedWoken
      h.sizedReturned
  have hsilent (hbatch : ∀ id writes, work ≠ .batch id writes)
      (hshutdown : ∀ reply, work ≠ .shutdown reply) :
      Vigilant sizes { u with state, worker := .handed work } := {
    balanced := hbalanced
    worker := fun hparked => absurd hparked (Worker.handed_ne_parked work)
    resetting := hresetting'
    purging := hpurging'
    blocked := fun sleeper hmem =>
      blocked_next sizes hnext hbatch hshutdown (h.blocked sleeper hmem)
    sizedParked := h.sizedParked
    sizedWoken := h.sizedWoken
    sizedReturned := h.sizedReturned }
  cases work with
  | batch id writes => exact hwake
  | shutdown reply => exact hwake
  | reset reply => exact hsilent (by simp) (by simp)
  | purge id reply => exact hsilent (by simp) (by simp)
  | closed => exact hsilent (by simp) (by simp)

/-- **The writer goes to sleep only with nothing to do.** -/
theorem vigilant_round (h : Vigilant sizes u) (hfrom : ∀ owes, u.worker ≠ .outside (some owes))
    (elapsed : Bool) : Vigilant sizes (u.round sizes elapsed) := by
  unfold Users.round
  split
  · exact h.moveWorker sizes (by simp) hfrom
  · split
    · rename_i hnext
      exact vigilant_handOut sizes h hfrom hnext
    · rename_i hnext
      have hresetting : u.state.resetting = false := by
        by_contra hne
        exact hfrom _ (h.resetting (by simpa using hne))
      have hpurging : u.state.purging = false := by
        by_contra hne
        exact hfrom _ (h.purging (by simpa using hne))
      constructor
      · exact h.balanced
      · exact fun _ => idle_of_next_eq_none sizes hresetting hpurging hnext
      · exact fun hr => absurd (h.resetting hr) (hfrom _)
      · exact fun hp => absurd (h.purging hp) (hfrom _)
      · exact h.blocked
      · exact h.sizedParked
      · exact h.sizedWoken
      · exact h.sizedReturned

/-! ### Every event -/

theorem vigilant_init : Vigilant sizes {} where
  balanced := balanced_init sizes
  worker h := by cases h
  resetting h := by cases h
  purging h := by cases h
  blocked := by simp
  sizedParked := by simp
  sizedWoken := by simp
  sizedReturned := by simp

theorem Vigilant.requested (h : Vigilant sizes u) {answer : Except RuntimeError SchedulerState}
    (hanswer : ∀ state, answer = .ok state → SameQueues u.state state ∧
      state.resetting = u.state.resetting ∧ state.purging = u.state.purging) :
    Vigilant sizes (u.requested answer) := by
  cases answer with
  | error e => exact h
  | ok state =>
    obtain ⟨hsame, hresetting, hpurging⟩ := hanswer state rfl
    exact h.notifyAll sizes (h.balanced.of_same sizes hsame) (fun hr => hresetting ▸ hr)
      (fun hp => hpurging ▸ hp)

/-- **Every event keeps the invariant.** -/
theorem vigilant_step (h : Vigilant sizes u) {event : Event}
    (hstep : u.step sizes event = some u') : Vigilant sizes u' := by
  cases event with
  | admitWrite write wakes =>
    have hattempt : u.attempt sizes ⟨.admitWrite, write⟩ wakes = some u' := hstep
    exact vigilant_attempt sizes h (by simp) hattempt
  | tryAdmit write wakes =>
    rcases hanswer : tryAdmit sizes u.state write u.replies with ⟨answer, s⟩
    simp only [Users.step, hanswer] at hstep
    obtain ⟨rfl, hcapacity, rfl⟩ | ⟨hne, rfl⟩ := tryAdmit_cases sizes hanswer
    · exact vigilant_admitted sizes h hcapacity hstep
    · match answer with
      | .error _ =>
        cases hstep
        exact h
      | .ok (some returned) =>
        cases hstep
        refine { h with sizedReturned := fun other hother => ?_ }
        rcases List.mem_cons.mp hother with rfl | hother
        · exact validSize_of_tryAdmit sizes hanswer
        · exact h.sizedReturned other hother
      | .ok none => exact absurd rfl hne
  | waitForCapacity index =>
    simp only [Users.step, Option.bind_eq_bind, Option.bind_eq_some_iff] at hstep
    obtain ⟨write, hwrite, hattempt⟩ := hstep
    have hvigilant : Vigilant sizes { u with returned := u.returned.eraseIdx index } :=
      { h with sizedReturned := fun other hother =>
          h.sizedReturned other (List.mem_of_mem_eraseIdx hother) }
    exact vigilant_attempt sizes hvigilant
      (fun _ => h.sizedReturned write (List.mem_of_getElem? hwrite)) hattempt
  | resume index wakes =>
    simp only [Users.step, Option.bind_eq_bind, Option.bind_eq_some_iff] at hstep
    obtain ⟨sleeper, hsleeper, hattempt⟩ := hstep
    have hvigilant : Vigilant sizes { u with woken := u.woken.eraseIdx index } :=
      { h with sizedWoken := fun other hother =>
          h.sizedWoken other (List.mem_of_mem_eraseIdx hother) }
    exact vigilant_attempt sizes hvigilant
      (fun _ => h.sizedWoken sleeper (List.mem_of_getElem? hsleeper)) hattempt
  | rouse index =>
    simp only [Users.step, Option.bind_eq_bind, Option.bind_eq_some_iff] at hstep
    obtain ⟨sleeper, hsleeper, heq⟩ := hstep
    cases heq
    exact h.wakeCaller sizes hsleeper
  | next elapsed =>
    simp only [Users.step] at hstep
    split at hstep
    · rename_i hworker
      cases hstep
      exact vigilant_round sizes h (by simp [hworker]) elapsed
    · rename_i hworker
      cases hstep
      exact vigilant_round sizes h (by simp [hworker]) elapsed
    · rename_i hworker
      split_ifs at hstep
      · cases hstep
        exact h.moveWorker sizes (by simp) (by simp [hworker])
      · cases hstep
        exact vigilant_round sizes h (by simp [hworker]) true
    · cases hstep
  | expire =>
    simp only [Users.step, Option.ite_none_right_eq_some] at hstep
    cases hstep.2
    exact h.moveWorker sizes (by simp) (by simp [hstep.1])
  | rouseWorker =>
    simp only [Users.step, Option.ite_none_right_eq_some] at hstep
    cases hstep.2
    exact h.moveWorker sizes (by simp) fun owes => Worker.isParked_ne_outside hstep.1 _
  | finish =>
    simp only [Users.step] at hstep
    split at hstep
    · rename_i hworker
      cases hstep
      refine vigilant_notifyAll sizes (h.balanced.of_same sizes ⟨rfl, rfl, rfl, rfl⟩) ?_ ?_
        h.sizedParked h.sizedWoken h.sizedReturned
      · intro hr
        cases hr
      · intro hp
        have := h.purging hp
        simp [hworker] at this
    · rename_i hworker
      cases hstep
      refine vigilant_notifyAll sizes (h.balanced.of_same sizes ⟨rfl, rfl, rfl, rfl⟩) ?_ ?_
        h.sizedParked h.sizedWoken h.sizedReturned
      · intro hr
        have := h.resetting hr
        simp [hworker] at this
      · intro hp
        cases hp
    · cases hstep
  | requestReset reply =>
    cases hstep
    refine h.requested sizes fun state hstate => ?_
    unfold requestReset at hstate
    split_ifs at hstate
    cases hstate
    exact ⟨⟨rfl, rfl, rfl, rfl⟩, rfl, rfl⟩
  | requestPurge id reply =>
    cases hstep
    refine h.requested sizes fun state hstate => ?_
    unfold requestPurge at hstate
    split_ifs at hstate
    cases hstate
    exact ⟨⟨rfl, rfl, rfl, rfl⟩, rfl, rfl⟩
  | requestShutdown reply =>
    cases hstep
    refine h.requested sizes fun state hstate => ?_
    unfold requestShutdown at hstate
    split_ifs at hstate
    cases hstate
    exact ⟨⟨rfl, rfl, rfl, rfl⟩, rfl, rfl⟩
  | close =>
    cases hstep
    exact h.notifyAll sizes (h.balanced.of_same sizes ⟨rfl, rfl, rfl, rfl⟩) id id
  | failAll =>
    cases hstep
    exact h.notifyAll sizes (exact_failAll sizes u.state).toBalanced id id

theorem vigilant_foldlM (h : Vigilant sizes u) {events : List Event}
    (hrun : events.foldlM (Users.step sizes) u = some u') : Vigilant sizes u' := by
  induction events generalizing u with
  | nil =>
    cases hrun
    exact h
  | cons event rest ih =>
    rw [List.foldlM_cons, Option.bind_eq_bind, Option.bind_eq_some_iff] at hrun
    obtain ⟨middle, hmiddle, hrest⟩ := hrun
    exact ih (vigilant_step sizes h hmiddle) hrest

/-- **No wakeup is lost.**  In every run of callers, requests and the writer, whoever `notify_one`
wakes: the writer does not sleep without a time limit and unnotified while a Task is ready or a
reset, a purge or a shutdown is asked for, and no caller sleeps unnotified while its write has room
and no exclusive control is pending. -/
theorem no_lost_wakeup {events : List Event} {u : Users} (hrun : Users.run sizes events = some u) :
    (u.worker = .parked → u.state.ready = [] ∧ u.state.resetReply = none ∧
      u.state.purgeReply = none ∧ u.state.shutdownReply = none) ∧
    ∀ sleeper ∈ u.parked,
      ¬(hasCapacity sizes u.state sleeper.write = true ∧
        hasPendingExclusiveControl u.state = false) := by
  have h := vigilant_foldlM sizes (vigilant_init sizes) hrun
  constructor
  · intro hworker
    have hidle := h.worker hworker
    exact ⟨hidle.ready, hidle.resetReply, hidle.purgeReply, hidle.shutdownReply⟩
  · rintro sleeper hmem ⟨hcapacity, hexclusive⟩
    obtain hblocked | hblocked := h.blocked sleeper hmem
    · simp [hexclusive] at hblocked
    · simp [hcapacity] at hblocked

/-- The writer sleeps, a reset is asked for and a caller goes to sleep behind it; the writer then
takes the reset with the caller still asleep. -/
theorem no_lost_wakeup_reset :
    ∃ u, Users.run Example.noSizes [.next false, .requestReset 0, .admitWrite Example.text .nobody,
        .next false] = some u ∧
      (u.worker = .outside (some .reset) ∧ u.parked.length = 1) ∧
      ((u.worker = .parked → u.state.ready = [] ∧ u.state.resetReply = none ∧
        u.state.purgeReply = none ∧ u.state.shutdownReply = none) ∧
      ∀ sleeper ∈ u.parked, ¬(hasCapacity Example.noSizes u.state sleeper.write = true ∧
        hasPendingExclusiveControl u.state = false)) := by
  have hrun : (Users.run Example.noSizes [.next false, .requestReset 0,
      .admitWrite Example.text .nobody, .next false]).any
      (fun u => decide (u.worker = .outside (some .reset) ∧ u.parked.length = 1)) = true := by
    decide +kernel
  obtain ⟨u, hu, hcheck⟩ := (Option.any_eq_true _ _).mp hrun
  exact ⟨u, hu, of_decide_eq_true hcheck, no_lost_wakeup Example.noSizes hu⟩

end OpenAide.Scheduler

import OpenAide.Tasks.Turns

/-!
# The message queue over a whole run

Ten commits edit a Task's message queue, some of them twice in one mutation.  `QueueStep` lists what
one commit can do to it, `TurnStep` what it can do to the status and the active turn, and
`commitStep` says that there is nothing else: every edit of the items or of the pause carries
exactly one new revision.
-/

namespace OpenAide

namespace Turns

open Mutation ObservedTiming Projection ChatImages
open TurnEvent (draft queueMove queueRemove run step)
open Library (bind_eq_ok)

variable {imaging : Imaging}

/-! ## What a commit does -/

/-- What the user said in a row. -/
def userRow (stored : StoredMessage) : Option (String × List Attachment) :=
  match stored.chat.message with
  | .user m => some (m.text, m.attachments)
  | _ => none

/-- What the user said, row by row. -/
def userRows (messages : List StoredMessage) : List (String × List Attachment) :=
  messages.filterMap userRow

/-- The queue revision an operation was decided on, and the item it selects. -/
def TurnEvent.observed : TurnEvent → Option Nat
  | queueRemove _ _ queueRevision _ => some queueRevision
  | queueTake _ _ queueRevision _ => some queueRevision
  | queueResume queueRevision => some queueRevision
  | send message .. => message.selection.map (·.queueRevision)
  | steer message .. => message.selection.map (·.queueRevision)
  | _ => none

/-- The message a Send carries. -/
def TurnEvent.sent : TurnEvent → Option Send
  | send message .. => some message
  | steer message .. => some message
  | _ => none

/-- The item a client takes out of the queue. -/
def TurnEvent.removes : TurnEvent → Option String
  | queueRemove _ id .. => some id
  | queueTake _ id .. => some id
  | _ => none

/-- One commit, seen from the queue. -/
inductive QueueStep (imaging : Imaging) (event : TurnEvent) (p p' : TaskProjection) : Prop
  | kept (h : p'.task.messageQueue = p.task.messageQueue)
  | paused (pause : Option TaskMessageQueuePauseRecord)
      (hitems : pause.isSome → p.task.messageQueue.items ≠ [])
      (h : p'.task.messageQueue = bumped { p.task.messageQueue with pause })
  | appended (client : String) (item : QueuedMessageRecord) (now : Nat)
      (hevent : event = .queueAppend client item now)
      (h : p'.task.messageQueue =
        bumped { p.task.messageQueue with items := p.task.messageQueue.items ++ [item] })
  | removed (index : Nat) (item : QueuedMessageRecord)
      (hitem : p.task.messageQueue.items[index]? = some item)
      (hevent : event.removes = some item.queuedMessageId)
      (h : p'.task.messageQueue = bumped (unpauseIfEmpty
        { p.task.messageQueue with items := p.task.messageQueue.items.eraseIdx index }))
      (hrows : userRows p'.messages = userRows p.messages)
  | moved (items : List QueuedMessageRecord) (hitems : items.Perm p.task.messageQueue.items)
      (h : p'.task.messageQueue = bumped { p.task.messageQueue with items })
  | delivered (index : Nat) (item : QueuedMessageRecord)
      (hitem : p.task.messageQueue.items[index]? = some item)
      (hevent : event.removes = none)
      (hselected : ∀ message, event.sent = some message → ∃ selection,
        message.selection = some selection ∧ selection.queuedMessageId = item.queuedMessageId ∧
          selection.queueRevision = p.task.messageQueue.revision)
      (h : p'.task.messageQueue = bumped { p.task.messageQueue with
        items := p.task.messageQueue.items.eraseIdx index, pause := none })
      (hrows : userRows p'.messages = userRows p.messages ++ [storedUser imaging item.text
        ((event.sent.map (·.chatAttachments)).getD item.chatAttachments)])

/-- The status and the turn of a Task. -/
def turnOf (task : TaskRecord) : TaskStatus × Option String × Option String :=
  (task.status, task.activeTurnId, task.activeTurnStartedAt)

/-- The turn an event may start. -/
def TurnEvent.starts : TurnEvent → Option String
  | send _ turnId .. => some turnId
  | turnFinished _ _ successor .. => successor.map (·.turnId)
  | _ => none

/-- Why a commit changes the status of a Task whose turn goes on, or that has none. -/
inductive StatusChange (event : TurnEvent) (task : TaskRecord) : TaskStatus → Prop
  | running (hactive : task.activeTurnId.isSome) (hstatus : task.status = .starting) :
      StatusChange event task .active
  | stopping (hactive : task.activeTurnId.isSome) : StatusChange event task .stopping
  | question (sessionId : String) (now : Nat) (hevent : event = .questionWaiting sessionId now)
      (hsession : task.agentSessionId = some sessionId) : StatusChange event task .waiting
  | permission (turnId : String) (now : Nat) (hevent : event = .permissionWaiting turnId false now)
      (hactive : task.activeTurnId = some turnId) : StatusChange event task .waiting
  | answered (row : QuestionMessage) (now : Nat)
      (hevent : event = .questionResolved row false false now) (hstatus : task.status = .waiting) :
      StatusChange event task (if task.activeTurnId.isSome then .active else .inactive)
  | permitted (tool : Option LinkedTool) (attention : Bool) (now : Nat)
      (hevent : event = .permissionResolved tool false false attention now)
      (hstatus : task.status = .waiting) : StatusChange event task .active

/-- One commit, seen from the turn. -/
inductive TurnStep (event : TurnEvent) (p p' : TaskProjection) : Prop
  | kept (h : turnOf p'.task = turnOf p.task)
  | started (turnId time : String) (hevent : event.starts = some turnId)
      (hfree : p.task.activeTurnId = none ∨ p.task.status ≠ .stopping)
      (h : turnOf p'.task = (.starting, some turnId, some time))
  | changed (status : TaskStatus) (hchange : StatusChange event p.task status)
      (h : turnOf p'.task = (status, p.task.activeTurnId, p.task.activeTurnStartedAt))
  | ended (h : turnOf p'.task = (.inactive, none, none))

/-- One commit. -/
structure CommitStep (imaging : Imaging) (event : TurnEvent) (p p' : TaskProjection) : Prop where
  queue : QueueStep imaging event p p'
  turn : TurnStep event p p'

theorem CommitStep.kept {event : TurnEvent} {p p' : TaskProjection}
    (hqueue : p'.task.messageQueue = p.task.messageQueue) (hturn : turnOf p'.task = turnOf p.task) :
    CommitStep imaging event p p' := ⟨.kept hqueue, .kept hturn⟩

variable {queue : TaskMessageQueueRecord}

variable {id : String}

theorem position_eq_ok {index : Nat} (h : position queue id = .ok index) :
    ∃ item, queue.items[index]? = some item ∧ item.queuedMessageId = id := by
  unfold position at h
  split at h
  · rename_i found hfound
    cases h
    obtain ⟨hlt, hid, -⟩ := List.findIdx?_eq_some_iff_getElem.mp hfound
    exact ⟨_, List.getElem?_eq_getElem hlt, of_decide_eq_true hid⟩
  · cases h

/-! ## The user's rows -/

/-- Rows changed in place, none of which says what the user said. -/
def Quiet (rows rows' : List StoredMessage) : Prop :=
  List.Forall₂ (fun a b => b = a ∨ userRow a = none ∧ userRow b = none) rows rows'

theorem Quiet.refl (rows : List StoredMessage) : Quiet rows rows :=
  List.forall₂_same.mpr fun _ _ => .inl rfl

theorem Quiet.trans {rows₁ rows₂ rows₃ : List StoredMessage} (h₁ : Quiet rows₁ rows₂)
    (h₂ : Quiet rows₂ rows₃) : Quiet rows₁ rows₃ := by
  induction h₁ generalizing rows₃ with
  | nil => exact h₂
  | cons hab _ ih =>
    cases h₂ with
    | cons hbc hrest =>
      refine .cons ?_ (ih hrest)
      rcases hbc with rfl | hbc
      · exact hab
      · rcases hab with rfl | hab
        · exact .inr hbc
        · exact .inr ⟨hab.1, hbc.2⟩

theorem userRow_storedRow (row : StoredMessage) : userRow (storedRow imaging row) =
    (userRow row).map fun said => storedUser imaging said.1 said.2 := by
  unfold userRow storedRow
  cases row.chat.message <;> rfl

/-- **What the user said in the rows a commit stores**: what was said before, and what the new rows
say with their images stored. -/
theorem userRows_written {rows kept : List StoredMessage} (h : Quiet rows kept)
    (new : List StoredMessage) :
    userRows (writtenRows imaging rows (kept ++ new)) =
      userRows rows ++ (userRows new).map fun said => storedUser imaging said.1 said.2 := by
  induction h with
  | nil =>
    simp only [List.nil_append, writtenRows, userRows, List.filterMap_map, List.filterMap_nil,
      List.map_filterMap]
    exact List.filterMap_congr fun row _ => userRow_storedRow row
  | @cons a b _ _ hab _ ih =>
    have hrow : userRow (if b = a then a else storedRow imaging b) = userRow a := by
      split
      · rfl
      · rename_i hne
        obtain ⟨ha, hb⟩ := hab.resolve_left hne
        rw [userRow_storedRow, ha, hb, Option.map_none]
    simp only [userRows] at ih
    simp only [List.cons_append, writtenRows, userRows, List.filterMap_cons, hrow, ih]
    cases userRow a <;> rfl

theorem userRows_accepted {rows kept draft new : List StoredMessage} {row : StoredMessage}
    {text : String} {attachments : List Attachment} (h : Quiet rows kept)
    (hdraft : draft = kept ++ row :: new) (hrow : userRow row = some (text, attachments))
    (hnew : userRows new = []) :
    userRows (writtenRows imaging rows draft) =
      userRows rows ++ [storedUser imaging text attachments] := by
  have hsaid : userRows (row :: new) = [(text, attachments)] := by
    rw [userRows, List.filterMap_cons_some hrow]
    exact congrArg _ hnew
  rw [hdraft, userRows_written h, hsaid, List.map_singleton]

theorem quiet_updateFirst {messages : List StoredMessage} {identity : String}
    {stored changed : StoredMessage}
    (found : messages.find? (·.chat.identity = identity) = some stored)
    (hrow : userRow stored = none ∧ userRow changed = none) :
    Quiet messages (updateFirst identity (fun _ => changed) messages) := by
  induction messages with
  | nil => exact .nil
  | cons row rest ih =>
    by_cases hidentity : row.chat.identity = identity
    · simp only [List.find?_cons, hidentity, decide_true] at found
      cases found
      rw [updateFirst, if_pos hidentity]
      exact .cons (.inr hrow) (Quiet.refl rest)
    · simp only [List.find?_cons, hidentity, decide_false] at found
      rw [updateFirst, if_neg hidentity]
      exact .cons (.inl rfl) (ih found)

theorem userRow_finishRow {status : ActivityStatus} {now : String} {stored changed : StoredMessage}
    (h : finishRow status now stored = some changed) :
    userRow stored = none ∧ userRow changed = none := by
  obtain ⟨chat, hchat, rfl⟩ := Option.map_eq_some_iff.mp h
  unfold ObservedTiming.finishRunningActivity at hchat
  split at hchat
  · rename_i hmessage
    split at hchat
    · cases hchat
    · cases hchat
      simp only [userRow, hmessage, and_self]
  · cases hchat

theorem quiet_closeFinalAnswer {span : ObservedSpan} {messages rows : List StoredMessage}
    {closed : StoredMessage} (h : closeFinalAnswer span messages = some (rows, closed)) :
    Quiet messages rows := by
  induction messages generalizing rows with
  | nil => cases h
  | cons stored rest ih =>
    unfold closeFinalAnswer at h
    split at h
    · cases h
    · rename_i hmessage
      cases h
      exact .cons (.inr ⟨by simp only [userRow, hmessage],
        by simp only [userRow, closeTurn, hmessage]⟩) (Quiet.refl rest)
    · obtain ⟨⟨rows', closed'⟩, hrest, heq⟩ := Option.map_eq_some_iff.mp h
      cases heq
      exact .cons (.inl rfl) (ih hrest)

theorem quiet_finishRunningActivity (ctx : TaskMutationContext) (identity : String)
    (status : ActivityStatus) (observedAt now : Nat) :
    Quiet ctx.projection.messages
      (ctx.finishRunningActivity identity status observedAt now).projection.messages := by
  show Quiet _ (ctx.recordChanged (changeFirst ctx.projection.messages identity
    (finishRow status (toString observedAt))).1 (changeFirst ctx.projection.messages identity
    (finishRow status (toString observedAt))).2 now).projection.messages
  unfold changeFirst
  split
  · exact .refl _
  · rename_i stored found
    split
    · exact .refl _
    · rename_i changed hchanged
      exact quiet_updateFirst found (userRow_finishRow hchanged)

theorem quiet_closeTurnOnFinalAnswer (ctx : TaskMutationContext) (endedAt : String) (now : Nat) :
    Quiet ctx.projection.messages
      (ctx.closeTurnOnFinalAnswer endedAt now).projection.messages := by
  unfold TaskMutationContext.closeTurnOnFinalAnswer
  split
  · exact .refl _
  · split
    · exact .refl _
    · rename_i rows closed hclosed
      have hrows := List.forall₂_reverse_iff.mpr (quiet_closeFinalAnswer hclosed)
      rwa [List.reverse_reverse] at hrows

/-! ## One lemma per mutation -/

theorem messageQueue_clearQueuePause (task : TaskRecord) :
    (clearQueuePause task task.messageQueue.revision).messageQueue =
      if task.messageQueue.pause.isSome then bumped { task.messageQueue with pause := none }
      else task.messageQueue := by
  simp only [clearQueuePause, and_true]
  split
  · rfl
  · rename_i hpause
    have hnone : task.messageQueue.pause = none := by simpa using hpause
    rw [← hnone]

theorem messageQueue_clearQueuePause_consumed (task : TaskRecord)
    (f : TaskMessageQueueRecord → TaskMessageQueueRecord)
    (hrevision : (f task.messageQueue).revision = task.messageQueue.revision) :
    (clearQueuePause (editQueue f task) task.messageQueue.revision).messageQueue =
      bumped { f task.messageQueue with pause := none } := by
  unfold clearQueuePause
  dsimp only
  split
  · rename_i hbumped
    have hqueue : (editQueue f task).messageQueue.revision = (f task.messageQueue).revision :=
      hbumped.2.trans hrevision.symm
    simp only [bumped, hqueue]
    rfl
  · rfl

variable {p : TaskProjection} {ctx : TaskMutationContext} {event : TurnEvent} {message : Send}
  {refresh : Bool}

theorem queueStep_acceptMessage (hsent : event.sent = some message)
    (hremoves : event.removes = none) (h : acceptMessage { projection := p } message = .ok ctx) :
    ∀ draft new, draft.task.messageQueue = ctx.projection.task.messageQueue → userRows new = [] →
      draft.messages = ctx.projection.messages ++ new →
      QueueStep imaging event p (persisted imaging refresh p draft) := by
  intro draft new hqueue hnew hmessages
  simp only [acceptMessage, bind_eq_ok] at h
  obtain ⟨consumed, hconsumed, h⟩ := h
  cases h
  cases hselection : message.selection with
  | none =>
    simp only [hselection, consumeSelectedQueueMessage] at hconsumed
    cases hconsumed
    replace hqueue : (persisted imaging refresh p draft).task.messageQueue = _ :=
      hqueue.trans (messageQueue_clearQueuePause p.task)
    split at hqueue
    · exact .paused none (fun h => by cases h) hqueue
    · exact .kept hqueue
  | some selection =>
    simp only [hselection, consumeSelectedQueueMessage, bind_eq_ok,
      ensure_eq_ok] at hconsumed
    obtain ⟨-, hrevision, index, hindex, -, htext, hconsumed⟩ := hconsumed
    cases hconsumed
    obtain ⟨item, hitem, hid⟩ := position_eq_ok hindex
    replace hqueue := hqueue.trans (messageQueue_clearQueuePause_consumed p.task _ rfl)
    refine .delivered index item hitem hremoves ?_ hqueue ?_
    · intro sent hsent'
      cases hsent.symm.trans hsent'
      exact ⟨selection, hselection, hid.symm, hrevision.symm⟩
    · have htext : item.text = message.promptText := by simpa [hitem] using htext
      rw [htext, hsent]
      exact userRows_accepted (.refl _) (hmessages.trans (List.append_assoc _ _ _)) rfl hnew

variable {rowId : String}

theorem commitStep_send {turnId : String} {ready : Bool}
    (h : sendMessage message turnId rowId ready { projection := p } = .ok (.changed ctx)) :
    CommitStep imaging (.send message turnId rowId ready) p
      (persisted imaging refresh p ctx.projection) := by
  unfold sendMessage at h
  split at h
  · cases h
  · rename_i hguard
    obtain ⟨accepted, haccepted, h⟩ := bind_eq_ok.mp h
    cases h
    have hactive : ¬p.task.activeTurnId.isSome = true := fun h => hguard (.inr (.inr (.inl h)))
    exact ⟨queueStep_acceptMessage rfl rfl haccepted _ _ rfl rfl rfl,
      .started turnId _ rfl (.inl (by simpa using hactive)) rfl⟩

theorem turnOf_acceptMessage (h : acceptMessage { projection := p } message = .ok ctx) :
    turnOf ctx.projection.task = turnOf p.task := by
  simp only [acceptMessage, bind_eq_ok] at h
  obtain ⟨consumed, hconsumed, h⟩ := h
  cases h
  unfold consumeSelectedQueueMessage at hconsumed
  split at hconsumed
  · cases hconsumed
    rfl
  · simp only [bind_eq_ok] at hconsumed
    obtain ⟨-, -, index, -, -, -, hconsumed⟩ := hconsumed
    cases hconsumed
    rfl

theorem commitStep_steer {activeTurnId : String} {expectedSessionId : Option String}
    (h : acceptSteeringMessage message activeTurnId expectedSessionId { projection := p } =
      .ok (.changed ctx)) :
    CommitStep imaging (.steer message activeTurnId expectedSessionId) p
      (persisted imaging refresh p ctx.projection) := by
  unfold acceptSteeringMessage at h
  split at h
  · cases h
  · obtain ⟨accepted, haccepted, h⟩ := bind_eq_ok.mp h
    cases h
    have hturn := turnOf_acceptMessage haccepted
    exact ⟨queueStep_acceptMessage rfl rfl haccepted _ [] rfl rfl (List.append_nil _).symm,
      .kept hturn⟩

variable {now : Nat} {client : String}

theorem commitStep_append {item : QueuedMessageRecord}
    (h : queueAppendMessage client item now { projection := p } = .ok (.changed ctx)) :
    CommitStep imaging (.queueAppend client item now) p
      (persisted imaging refresh p ctx.projection) := by
  simp only [queueAppendMessage, keepEdited, bind_eq_ok] at h
  obtain ⟨-, -, -, -, -, -, -, -, -, -, h⟩ := h
  cases h
  exact ⟨.appended client item now rfl rfl, .kept rfl⟩

variable {queueRevision : Nat}

theorem commitStep_remove (hevent : event.removes = some id)
    (h : removeObserved client id queueRevision now { projection := p } = .ok (.changed ctx)) :
    CommitStep imaging event p (persisted imaging refresh p ctx.projection) := by
  simp only [removeObserved, keepEdited, bind_eq_ok] at h
  obtain ⟨-, -, -, -, index, hindex, h⟩ := h
  cases h
  obtain ⟨item, hitem, hid⟩ := position_eq_ok hindex
  exact ⟨.removed index item hitem (hid ▸ hevent) rfl
    (congrArg userRows (writtenRows_self imaging p.messages)), .kept rfl⟩

theorem commitStep_move {targetIndex : Nat}
    (h : queueMoveMessage client id targetIndex queueRevision now { projection := p } =
      .ok (.changed ctx)) :
    CommitStep imaging (.queueMove client id targetIndex queueRevision now) p
      (persisted imaging refresh p ctx.projection) := by
  simp only [queueMoveMessage, bind_eq_ok] at h
  obtain ⟨-, -, source, -, h⟩ := h
  split at h
  · cases h
  · rename_i item hitem
    cases h
    refine ⟨.moved _ ?_ rfl, .kept rfl⟩
    obtain ⟨hlt, heq⟩ := List.getElem?_eq_some_iff.mp hitem
    refine (List.perm_insertIdx item _ (Nat.min_le_right _ _)).trans ?_
    subst heq
    exact List.getElem_cons_eraseIdx_perm hlt

theorem commitStep_resume
    (h : resumeScheduledQueue queueRevision { projection := p } = .ok (.changed ctx)) :
    CommitStep imaging (.queueResume queueRevision) p
      (persisted imaging refresh p ctx.projection) := by
  simp only [resumeScheduledQueue, bind_eq_ok] at h
  obtain ⟨-, -, -, -, h⟩ := h
  split at h
  · cases h
  · cases h
    exact ⟨.paused none (fun h => by cases h) rfl, .kept rfl⟩

theorem commitStep_deliveryFailed {pause : TaskMessageQueuePauseRecord}
    (h : pauseFailedDelivery id pause { projection := p } = .ok (.changed ctx)) :
    CommitStep imaging (.deliveryFailed id pause) p
      (persisted imaging refresh p ctx.projection) := by
  unfold pauseFailedDelivery at h
  split at h
  · rename_i hguard
    cases h
    refine ⟨.paused (some pause) (fun _ hempty => ?_) rfl, .kept rfl⟩
    have hany : p.task.messageQueue.items.any (·.queuedMessageId = id) = true := hguard.1
    rw [hempty] at hany
    cases hany
  · cases h

variable {p' : TaskProjection} {task : TaskRecord}

theorem queueStep_pauseQueue (pause : TaskMessageQueuePauseRecord)
    (htask : task.messageQueue = p.task.messageQueue)
    (h : p'.task.messageQueue = (pauseQueue pause task).messageQueue) :
    QueueStep imaging event p p' := by
  unfold pauseQueue at h
  split at h
  · exact .kept (h.trans htask)
  · rename_i hitems
    refine .paused (some pause) (fun _ hempty => hitems ?_) (h.trans ?_)
    · rw [htask, hempty]
      rfl
    · simp only [editQueue, htask]

theorem messageQueue_applyActiveWorkEnd (ctx : TaskMutationContext) (cause : ActiveWorkEnd)
    (rowId : String) (now : Nat) :
    (applyActiveWorkEnd ctx cause rowId now).projection.task.messageQueue =
      (pauseQueue cause.pause ctx.projection.task).messageQueue := by
  simp [applyActiveWorkEnd]

theorem commitStep_applyActiveWorkEnd (p : TaskProjection) (cause : ActiveWorkEnd) (rowId : String)
    (now : Nat) :
    CommitStep imaging event p (persisted imaging refresh p
      (applyActiveWorkEnd { projection := p } cause rowId now).projection) :=
  ⟨queueStep_pauseQueue cause.pause rfl (messageQueue_applyActiveWorkEnd _ cause rowId now),
    .ended rfl⟩

theorem dueHead_eq_some {queued : QueuedMessageRecord} (h : dueHead task now = some queued) :
    task.messageQueue.pause = none ∧ task.messageQueue.items[0]? = some queued := by
  unfold dueHead at h
  split at h
  · rename_i hpause
    obtain ⟨hhead, -⟩ := Option.filter_eq_some_iff.mp h
    exact ⟨Option.isNone_iff_eq_none.mp hpause, by rwa [List.head?_eq_getElem?] at hhead⟩
  · cases h

theorem task_appendPromptOutcomeActivity (ctx : TaskMutationContext) (outcome : AgentPromptOutcome)
    (rowId : String) (now : Nat) :
    (appendPromptOutcomeActivity ctx outcome rowId now).projection.task = ctx.projection.task := by
  cases outcome <;> rfl

theorem commitStep_settleOutcome {successor : Option Successor}
    (htask : ctx.projection.task = p.task) (hrows : Quiet p.messages ctx.projection.messages)
    (hsent : event.sent = none) (hremoves : event.removes = none)
    (hstarts : event.starts = successor.map (·.turnId)) (hstatus : p.task.status ≠ .stopping)
    (outcome : AgentPromptOutcome) (available : QueuedMessageRecord → Bool) (rowId : String)
    (now : Nat) :
    CommitStep imaging event p (persisted imaging refresh p
      (settleOutcome ctx outcome successor available rowId now).ctx.projection) := by
  have hqueue : ctx.projection.task.messageQueue = p.task.messageQueue := congrArg _ htask
  unfold settleOutcome
  split
  · split
    · rename_i next queued hhead
      obtain ⟨hpause, hitem⟩ := dueHead_eq_some hhead
      rw [task, hqueue] at hpause hitem
      split
      · refine ⟨.delivered 0 queued hitem hremoves (fun message h => ?_) ?_ ?_,
          .started next.turnId _ hstarts (.inr hstatus) rfl⟩
        · rw [hsent] at h
          cases h
        · show bumped { ctx.projection.task.messageQueue with
            items := ctx.projection.task.messageQueue.items.eraseIdx 0 } = _
          simp only [hqueue, hpause]
        · rw [hsent]
          exact userRows_accepted hrows (List.append_assoc _ _ _) rfl rfl
      · refine ⟨.paused (some .attachmentUnavailable) (fun _ hempty => ?_) ?_, .ended rfl⟩
        · rw [hempty] at hitem
          cases hitem
        · show bumped { ctx.projection.task.messageQueue with pause := _ } = _
          rw [hqueue]
    · exact ⟨.kept hqueue, .ended rfl⟩
  · exact ⟨queueStep_pauseQueue .unsuccessfulTurn hqueue rfl, .ended rfl⟩
  · refine ⟨queueStep_pauseQueue .unsuccessfulTurn ?_ rfl, .ended rfl⟩
    rw [task_appendPromptOutcomeActivity, hqueue]

theorem commitStep_finish {turnId : String} {result : Except RuntimeError AgentPromptOutcome}
    {successor : Option Successor} {available : QueuedMessageRecord → Bool}
    (h : finishTurn turnId result successor available rowId now { projection := p } =
      .ok (.changed ctx)) :
    CommitStep imaging (.turnFinished turnId result successor available rowId now) p
      (persisted imaging refresh p ctx.projection) := by
  unfold finishTurn at h
  split at h
  · cases h
    unfold settleTurn
    split
    · exact commitStep_applyActiveWorkEnd p _ rowId now
    · rename_i hstatus
      cases result with
      | error error => exact commitStep_applyActiveWorkEnd p _ rowId now
      | ok outcome =>
        refine commitStep_settleOutcome ?_ ?_ rfl rfl rfl hstatus outcome available rowId now
        · rw [TaskMutationContext.task_finishRunningActivity,
            TaskMutationContext.task_closeTurnOnFinalAnswer]
        · exact (quiet_closeTurnOnFinalAnswer _ _ _).trans (quiet_finishRunningActivity _ _ _ _ _)
  · cases h

theorem commitStep_workEnded {expectedWorkId : Option String} {cause : ActiveWorkEnd}
    (h : endActiveWork expectedWorkId cause rowId now { projection := p } = .ok (.changed ctx)) :
    CommitStep imaging (.workEnded expectedWorkId cause rowId now) p
      (persisted imaging refresh p ctx.projection) := by
  unfold endActiveWork at h
  split at h
  · cases h
    exact commitStep_applyActiveWorkEnd p cause rowId now
  · cases h

theorem messageQueue_retireVolatile (plan : VolatileRecoveryPlan) (task : TaskRecord) :
    (retireVolatile plan task).messageQueue = task.messageQueue := by
  unfold retireVolatile
  dsimp only
  split <;> split <;> rfl

theorem messageQueue_pauseRestarted_of_paused {task' : TaskRecord}
    (h : task'.messageQueue = (pauseQueue .restarted task).messageQueue) :
    (pauseRestarted task').messageQueue = task'.messageQueue := by
  have hguard : ¬(¬task'.messageQueue.items.isEmpty ∧
      task'.messageQueue.pause ≠ some .restarted) := by
    rw [h, pauseQueue]
    split
    · rename_i hempty
      exact fun hguard => hguard.1 hempty
    · exact fun hguard => hguard.2 rfl
  rw [pauseRestarted, if_neg hguard]

theorem queueStep_pauseRestarted (h : p'.task.messageQueue = (pauseRestarted p.task).messageQueue) :
    QueueStep imaging event p p' := by
  unfold pauseRestarted at h
  split at h
  · rename_i hitems
    refine .paused (some .restarted) (fun _ hempty => hitems.1 ?_) h
    rw [hempty]
    rfl
  · exact .kept h

theorem commitStep_restart
    (h : recoverVolatileRuntimeState rowId now { projection := p } = .ok (.changed ctx)) :
    CommitStep imaging (.restart rowId now) p (persisted imaging refresh p ctx.projection) := by
  have hturn (plan : VolatileRecoveryPlan) (task : TaskRecord) :
      turnOf (retireVolatile plan (pauseRestarted task)) = turnOf task := by
    unfold retireVolatile pauseRestarted
    dsimp only
    split <;> split <;> split <;> rfl
  unfold recoverVolatileRuntimeState at h
  dsimp only at h
  split at h
  · cases h
  · cases h
    cases hactive : (volatileRecoveryPlan p.task).interruptActiveTurn with
    | true =>
      refine ⟨queueStep_pauseQueue .restarted rfl ((messageQueue_retireVolatile _ _).trans ?_),
        .ended ((hturn _ _).trans ?_)⟩
      · have hended := messageQueue_applyActiveWorkEnd { projection := p } .restarted rowId now
        simp only [task, hactive, if_true]
        rw [messageQueue_pauseRestarted_of_paused hended, hended]
        rfl
      · simp only [task, hactive, if_true]
        rfl
    | false =>
      refine ⟨queueStep_pauseRestarted ((messageQueue_retireVolatile _ _).trans ?_),
        .kept ((hturn _ _).trans ?_)⟩
      · simp only [task, hactive]
        rfl
      · simp only [task, hactive]
        rfl

theorem turnStep_resolved {status : TaskStatus} {waits : Prop} [Decidable waits]
    (hchange : waits → StatusChange event p.task status)
    (h : turnOf p'.task = (if waits then status else p.task.status, p.task.activeTurnId,
      p.task.activeTurnStartedAt)) : TurnStep event p p' := by
  split at h
  · rename_i hwaits
    exact .changed _ (hchange hwaits) h
  · exact .kept h

/-- **What a commit can do** to the queue (nothing, or one of five edits with one new revision) and
to the turn. -/
theorem commitStep (imaging : Imaging) (event : TurnEvent) (p : TaskProjection) :
    CommitStep imaging event p (event.step imaging p) := by
  obtain h | ⟨ctx, hctx, h⟩ := commit_cases imaging event.refreshes p event.draft
  · exact .kept (congrArg _ (congrArg _ h)) (congrArg turnOf (congrArg _ h))
  · rw [step, h]
    clear h
    cases event with
    | queueAppend client item now => exact commitStep_append hctx
    | queueRemove client id queueRevision now => exact commitStep_remove rfl hctx
    | queueTake client id queueRevision now => exact commitStep_remove rfl hctx
    | queueMove client id targetIndex queueRevision now => exact commitStep_move hctx
    | queueResume queueRevision => exact commitStep_resume hctx
    | deliveryFailed id pause => exact commitStep_deliveryFailed hctx
    | send message turnId rowId ready => exact commitStep_send hctx
    | steer message activeTurnId expectedSessionId => exact commitStep_steer hctx
    | turnRunning turnId now =>
      simp only [draft, markTurnRunning] at hctx
      split at hctx
      · rename_i hguard
        cases hctx
        exact ⟨.kept rfl, .changed .active
          (.running (by rw [show p.task.activeTurnId = _ from hguard.1]; rfl) hguard.2) rfl⟩
      · cases hctx
    | turnStopping turnId now =>
      simp only [draft, markTurnStopping] at hctx
      split at hctx
      · rename_i hguard
        cases hctx
        exact ⟨.kept rfl, .changed .stopping
          (.stopping (by rw [show p.task.activeTurnId = _ from hguard.1]; rfl)) rfl⟩
      · cases hctx
    | turnFinished turnId result successor available rowId now => exact commitStep_finish hctx
    | workEnded expectedWorkId cause rowId now => exact commitStep_workEnded hctx
    | questionWaiting sessionId now =>
      simp only [draft, questionWaiting] at hctx
      split at hctx
      · rename_i hsession
        cases hctx
        exact ⟨.kept rfl, .changed .waiting (.question sessionId now rfl hsession) rfl⟩
      · cases hctx
    | questionResolved row pending stopped now =>
      cases hctx
      refine ⟨.kept rfl, turnStep_resolved (fun hwaits => ?_) rfl⟩
      obtain ⟨rfl, rfl, hstatus⟩ : pending = false ∧ stopped = false ∧
        p.task.status = .waiting := by
        simpa using hwaits
      exact .answered row now rfl hstatus
    | permissionWaiting turnId cancelled now =>
      simp only [draft, permissionWaiting] at hctx
      split at hctx
      · rename_i hguard
        cases hctx
        have hcancelled : cancelled = false := by simpa using hguard.2
        subst hcancelled
        exact ⟨.kept rfl, .changed .waiting (.permission turnId now rfl hguard.1) rfl⟩
      · cases hctx
    | permissionResolved tool pending stopped attention now =>
      have hpermitted : (!pending ∧ !stopped ∧ p.task.status = .waiting) →
          StatusChange (.permissionResolved tool pending stopped attention now) p.task .active := by
        intro hwaits
        obtain ⟨rfl, rfl, hstatus⟩ : pending = false ∧ stopped = false ∧
          p.task.status = .waiting := by simpa using hwaits
        exact .permitted tool attention now rfl hstatus
      simp only [draft, permissionResolved] at hctx
      split at hctx
      · cases hctx
        exact ⟨.kept rfl, turnStep_resolved hpermitted rfl⟩
      · split at hctx <;> cases hctx
        refine ⟨.kept ?_, turnStep_resolved hpermitted ?_⟩
        · simp [persisted, committedRecord]
        · simp only [turnOf, persisted, committedRecord, task_editTask,
            TaskMutationContext.task_recordToolPermissionOutcome]
    | backgroundWork sessionId changed held now =>
      simp only [draft, updateBackgroundWork] at hctx
      split at hctx <;> cases hctx
      exact .kept rfl rfl
    | restart rowId now => exact commitStep_restart hctx

/-! ## Revisions -/

/-- The queue of a Task whose revision has not overflowed, paused only if it holds something. -/
structure QueueSound (queue : TaskMessageQueueRecord) : Prop where
  revision_le : queue.revision ≤ 2 ^ 64 - 1
  paused : queue.pause.isSome → queue.items ≠ []

theorem revision_le_bumped {queue' : TaskMessageQueueRecord}
    (hrevision : queue'.revision = queue.revision) (hle : queue.revision ≤ 2 ^ 64 - 1) :
    queue.revision ≤ (bumped queue').revision ∧ (bumped queue').revision ≤ 2 ^ 64 - 1 ∧
      (queue.revision < 2 ^ 64 - 1 → queue.revision < (bumped queue').revision) := by
  simp only [bumped, saturatingAdd, hrevision]
  omega

theorem revision_unpauseIfEmpty (queue : TaskMessageQueueRecord) :
    (unpauseIfEmpty queue).revision = queue.revision := by
  unfold unpauseIfEmpty
  split <;> rfl

theorem QueueStep.kept_or_bumped (h : QueueStep imaging event p p') :
    p'.task.messageQueue = p.task.messageQueue ∨
      ∃ queue, p'.task.messageQueue = bumped queue ∧
      queue.revision = p.task.messageQueue.revision := by
  cases h with
  | kept h => exact .inl h
  | paused pause hitems h => exact .inr ⟨_, h, rfl⟩
  | appended client item now hevent h => exact .inr ⟨_, h, rfl⟩
  | removed index item hitem hevent h hrows => exact .inr ⟨_, h, revision_unpauseIfEmpty _⟩
  | moved items hitems h => exact .inr ⟨_, h, rfl⟩
  | delivered index item hitem hevent hselected h hrows => exact .inr ⟨_, h, rfl⟩

theorem QueueStep.sound (h : QueueStep imaging event p p')
    (hsound : QueueSound p.task.messageQueue) : QueueSound p'.task.messageQueue := by
  constructor
  · obtain heq | ⟨queue, heq, hrevision⟩ := h.kept_or_bumped
    · rw [heq]
      exact hsound.revision_le
    · rw [heq]
      exact (revision_le_bumped hrevision hsound.revision_le).2.1
  · cases h with
    | kept h =>
      rw [h]
      exact hsound.paused
    | paused pause hitems h =>
      rw [h]
      exact hitems
    | appended client item now hevent h =>
      rw [h]
      exact fun _ => List.append_ne_nil_of_right_ne_nil _ (List.cons_ne_nil _ _)
    | removed index item hitem hevent h hrows =>
      rw [h]
      simp only [bumped, unpauseIfEmpty]
      split
      · intro hpause
        cases hpause
      · rename_i hitems
        exact fun _ hempty => hitems (List.isEmpty_iff.mpr hempty)
    | moved items hitems h =>
      rw [h]
      intro hpause hempty
      exact hsound.paused hpause (List.Perm.nil_eq (hempty ▸ hitems)).symm
    | delivered index item hitem hevent hselected h hrows =>
      rw [h]
      intro hpause
      cases hpause

theorem sound_run (imaging : Imaging) (hsound : QueueSound p.task.messageQueue)
    (events : List TurnEvent) : QueueSound (run imaging p events).task.messageQueue := by
  induction events generalizing p with
  | nil => exact hsound
  | cons event rest ih => exact ih ((commitStep imaging event p).queue.sound hsound)

theorem revision_lt_step (hlt : p.task.messageQueue.revision < 2 ^ 64 - 1) (event : TurnEvent)
    (h : (event.step imaging p).task.messageQueue ≠ p.task.messageQueue) :
    p.task.messageQueue.revision < (event.step imaging p).task.messageQueue.revision := by
  obtain heq | ⟨queue, heq, hrevision⟩ := (commitStep imaging event p).queue.kept_or_bumped
  · exact absurd heq h
  · rw [heq]
    exact (revision_le_bumped hrevision (Nat.le_of_lt hlt)).2.2 hlt

/-- **Revisions do not go back**, and one that stays is of one queue. -/
theorem revision_le_run (imaging : Imaging) (hsound : QueueSound p.task.messageQueue)
    (events : List TurnEvent) :
    p.task.messageQueue.revision ≤ (run imaging p events).task.messageQueue.revision ∧
      (p.task.messageQueue.revision < 2 ^ 64 - 1 →
        (run imaging p events).task.messageQueue.revision = p.task.messageQueue.revision →
        (run imaging p events).task.messageQueue = p.task.messageQueue) := by
  induction events generalizing p with
  | nil => exact ⟨Nat.le_refl _, fun _ _ => rfl⟩
  | cons event rest ih =>
    obtain ⟨hle, hsame⟩ := ih ((commitStep imaging event p).queue.sound hsound)
    show _ ≤ (run imaging (event.step imaging p) rest).task.messageQueue.revision ∧
      (_ → (run imaging (event.step imaging p) rest).task.messageQueue.revision = _ →
        (run imaging (event.step imaging p) rest).task.messageQueue = _)
    obtain heq | ⟨queue, heq, hrevision⟩ := (commitStep imaging event p).queue.kept_or_bumped
    · rw [heq] at hle hsame
      exact ⟨hle, hsame⟩
    · obtain ⟨hbumped, -, hlt⟩ := revision_le_bumped hrevision hsound.revision_le
      rw [← heq] at hbumped hlt
      refine ⟨Nat.le_trans hbumped hle, fun hbelow hequal => ?_⟩
      have := hlt hbelow
      omega

/-- The mutation of an event goes through. -/
def TurnEvent.accepted (event : TurnEvent) (p : TaskProjection) : Prop :=
  ∃ drafted, event.draft { projection := p } = .ok drafted ∧ drafted ≠ .rejected

theorem revision_of_removeObserved {drafted : Drafted}
    (h : removeObserved client id queueRevision now ctx = .ok drafted) :
    ctx.projection.task.messageQueue.revision = queueRevision := by
  simp only [removeObserved, bind_eq_ok, ensure_eq_ok] at h
  obtain ⟨-, -, -, hrevision, -⟩ := h
  exact hrevision

theorem revision_of_consumed {consumed : TaskRecord} {selection : TaskQueueSendSelection}
    {promptText : String}
    (h : consumeSelectedQueueMessage task (some selection) promptText = .ok consumed) :
    task.messageQueue.revision = selection.queueRevision := by
  simp only [consumeSelectedQueueMessage, bind_eq_ok, ensure_eq_ok] at h
  obtain ⟨-, hrevision, -⟩ := h
  exact hrevision

theorem revision_of_acceptMessage {ctx' : TaskMutationContext}
    (hselection : message.selection.map (·.queueRevision) = some queueRevision)
    (h : acceptMessage ctx message = .ok ctx') :
    ctx.projection.task.messageQueue.revision = queueRevision := by
  obtain ⟨selection, hselected, rfl⟩ := Option.map_eq_some_iff.mp hselection
  simp only [acceptMessage, bind_eq_ok, hselected] at h
  obtain ⟨consumed, hconsumed, -⟩ := h
  exact revision_of_consumed hconsumed

theorem revision_of_accepted (hobserved : event.observed = some queueRevision)
    (h : event.accepted p) : p.task.messageQueue.revision = queueRevision := by
  obtain ⟨drafted, hdraft, hrejected⟩ := h
  cases event with
  | queueRemove client id revision now =>
    cases hobserved
    exact revision_of_removeObserved hdraft
  | queueTake client id revision now =>
    cases hobserved
    exact revision_of_removeObserved hdraft
  | queueResume revision =>
    cases hobserved
    simp only [draft, resumeScheduledQueue, bind_eq_ok, ensure_eq_ok] at hdraft
    obtain ⟨-, hrevision, -⟩ := hdraft
    exact hrevision
  | send message turnId rowId ready =>
    simp only [draft, sendMessage] at hdraft
    split at hdraft
    · cases hdraft
      exact absurd rfl hrejected
    · obtain ⟨ctx, haccepted, -⟩ := bind_eq_ok.mp hdraft
      exact revision_of_acceptMessage hobserved haccepted
  | steer message activeTurnId expectedSessionId =>
    simp only [draft, acceptSteeringMessage] at hdraft
    split at hdraft
    · cases hdraft
      exact absurd rfl hrejected
    · obtain ⟨ctx, haccepted, -⟩ := bind_eq_ok.mp hdraft
      exact revision_of_acceptMessage hobserved haccepted
  | _ => cases hobserved

/-- **A queue revision identifies the queue.**  A commit that changes the items or the pause takes a
higher revision; an operation that was decided on a revision and goes through finds the queue that
every earlier state of the run with that revision had; and a queue is paused only if it holds
something.  A move is not decided on a revision. -/
theorem queue_revision_identifies (imaging : Imaging) (p : TaskProjection)
    (hcreated : p.task.messageQueue = {}) (events : List TurnEvent)
    (hbelow : (run imaging p events).task.messageQueue.revision < 2 ^ 64 - 1)
    (event : TurnEvent) : let before := (run imaging p events).task.messageQueue
    let after := (event.step imaging (run imaging p events)).task.messageQueue
    (after.items ≠ before.items ∨ after.pause ≠ before.pause → before.revision < after.revision) ∧
    (∀ queueRevision, event.observed = some queueRevision →
      event.accepted (run imaging p events) →
      before.revision = queueRevision ∧
      ∀ seen, seen <+: events →
        (run imaging p seen).task.messageQueue.revision = queueRevision →
        (run imaging p seen).task.messageQueue = before) ∧
    (before.pause.isSome → before.items ≠ []) := by
  have hsound : QueueSound p.task.messageQueue := by
    rw [hcreated]
    exact ⟨Nat.zero_le _, fun h => by cases h⟩
  refine ⟨fun hchanged => ?_, fun queueRevision hobserved haccepted => ?_, ?_⟩
  · refine revision_lt_step hbelow event fun hsame => ?_
    rw [hsame] at hchanged
    exact hchanged.elim (· rfl) (· rfl)
  · have hrevision := revision_of_accepted hobserved haccepted
    refine ⟨hrevision, fun seen hseen hequal => ?_⟩
    obtain ⟨rest, rfl⟩ := hseen
    have hrun : run imaging p (seen ++ rest) =
        run imaging (run imaging p seen) rest :=
      List.foldl_append
    rw [hrun] at hrevision hbelow ⊢
    have hsame := (revision_le_run imaging (sound_run imaging hsound seen) rest).2
    exact (hsame (by omega) (by omega)).symm
  · exact (sound_run imaging hsound events).paused

/-- A Task with a turn under way and nothing queued. -/
def workingTask : TaskProjection where
  task := {
    taskId := "task", status := .active, taskVersion := 1, messageHistoryVersion := 0
    unread := false, updatedAt := "0", lastActivity := "0", lifecycle := .open
    activeTurnId := some "turn", activeTurnStartedAt := some "0" }
  messages := []
  messageMeta := ⟨"task", 0, 0, "0", none, none⟩

/-- A follow-up that is queued. -/
def queuing (id text : String) : TurnEvent :=
  .queueAppend "client" { queuedMessageId := id, text, createdAt := "1" } 1

/-- Removing from the queue a client has seen, with the theorem's facts about it. -/
theorem removing_identifies :
    let events := [queuing "a" "first", queuing "b" "second"]
    let before := (run Example.imaging workingTask events).task.messageQueue
    before.revision = 2 ∧ before.items.length = 2 ∧
      (queueRemove "client" "a" 2 3).accepted
      (run Example.imaging workingTask events) ∧
      ∀ seen, seen <+: events →
        (run Example.imaging workingTask seen).task.messageQueue.revision = 2 →
        (run Example.imaging workingTask seen).task.messageQueue = before := by
  have haccepted : (queueRemove "client" "a" 2 3).accepted
      (run Example.imaging workingTask [queuing "a" "first", queuing "b" "second"]) :=
    ⟨_, rfl, nofun⟩
  have hidentifies := queue_revision_identifies Example.imaging workingTask rfl
    [queuing "a" "first", queuing "b" "second"] (by decide) (.queueRemove "client" "a" 2 3)
  exact ⟨rfl, rfl, haccepted, (hidentifies.2.1 2 rfl haccepted).2⟩

/-- A move that was decided on two messages acts on the three there are by then. -/
theorem move_acts_on_latest_queue :
    let seen := [queuing "a" "first", queuing "b" "second"]
    let events := seen ++ [queuing "c" "third"]
    let move := queueMove "client" "a" 2 2 5
    (run Example.imaging workingTask seen).task.messageQueue.revision = 2 ∧
      (run Example.imaging workingTask seen).task.messageQueue.items.map
      (·.queuedMessageId) = ["a", "b"] ∧
      move.accepted (run Example.imaging workingTask events) ∧
      (run Example.imaging workingTask events).task.messageQueue.items.map
      (·.queuedMessageId) = ["a", "b", "c"] ∧
      (move.step Example.imaging
        (run Example.imaging workingTask events)).task.messageQueue.items.map
        (·.queuedMessageId) = ["b", "c", "a"] := by
  exact ⟨by decide, by decide, ⟨_, rfl, nofun⟩, by decide, by decide⟩

end Turns

end OpenAide

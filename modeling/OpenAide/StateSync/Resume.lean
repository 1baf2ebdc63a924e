import OpenAide.StateSync.Stream

/-!
# Resuming a Task

A client that knows a revision of a Task subscribes again.  The answer is made of a durable revision
that publications may not have reached yet and of a log that may have dropped any of them; live
events follow.

- `logged_run`: what the log keeps of a run (`Logged`), from one step;
- `resume_changes`: what a resumed client is sent is what was published after the revision it knows;
- `live_eq_published`, `chained_run`: what a subscribed client then gets, event by event;
- `task_resume_loses_nothing`: **a resumed client sees every later revision once and in order**, and
  every event begins at the cursor where the one before it, or the reply, ended.
-/

namespace OpenAide

open Library TaskSnapshots StateStream

/-! ## The system -/

/-- The stream, with the revision that each Task has in storage and the last one published. -/
structure SyncState where
  stream : StateStream
  durable : String → Nat
  published : String → Nat

/-- What can be observed of a step. -/
inductive SyncEvent where
  | committed (taskId : String)
  | published (scope : EventScope) (payload : EventPayload) (deliveries : String → Option String)
      (events : List StateEventDelivery)
  | subscribed (client : String) (scope : SubscriptionScope) (knownRevision : Option Nat)
      (result : StateSubscribeResult)
  | refused (client : String) (scope : SubscriptionScope)
  | unsubscribed (client : String) (scope : SubscriptionScope)
  | dropped (client : String)

namespace SyncState

/-- What may be published: anything, but the changes of a Task in the Task's own scope and one
revision after another, each of them committed. -/
def Publishable (s : SyncState) (scope : EventScope) : EventPayload → Prop
  | .taskChanged taskId revision _ =>
    scope = .task s.stream.stateRootId taskId ∧ revision = s.published taskId + 1 ∧
      revision ≤ s.durable taskId
  | _ => True

/-- The last published revisions after a publication. -/
def publishedAfter (published : String → Nat) : EventPayload → String → Nat
  | .taskChanged taskId revision _ => Function.update published taskId revision
  | _ => published

/-- The provider answers with the revision in storage. -/
def Answers (s : SyncState) (provider : SnapshotProvider) : SubscriptionScope → Prop
  | .task taskId => ∀ basis, provider.taskResumeBasis = .ok (some basis) →
      basis.revision = s.durable taskId
  | _ => True

/-- One step. -/
inductive Step (encodedLength : TaskChanges → Option Nat) (s : SyncState) :
    SyncEvent → SyncState → Prop where
  | commit (taskId : String) :
      Step encodedLength s (.committed taskId)
        { s with durable := Function.update s.durable taskId (s.durable taskId + 1) }
  | publish (scope : EventScope) (payload : EventPayload) (deliveries : String → Option String)
      (publishable : s.Publishable scope payload) :
      Step encodedLength s
        (.published scope payload deliveries
          (publishCommitted encodedLength s.stream scope payload deliveries).2)
        { s with
          stream := (publishCommitted encodedLength s.stream scope payload deliveries).1
          published := publishedAfter s.published payload }
  | subscribe {client : String} {scope : SubscriptionScope} {knownRevision : Option Nat}
      {provider : SnapshotProvider} {result : StateSubscribeResult} {stream : StateStream}
      (answers : s.Answers provider scope)
      (subscribed : s.stream.subscribeWithMembership client scope knownRevision provider =
        (.ok result, stream)) :
      Step encodedLength s (.subscribed client scope knownRevision result) { s with stream }
  | refuse {client : String} {scope : SubscriptionScope} {knownRevision : Option Nat}
      {provider : SnapshotProvider} {error : RuntimeError} {stream : StateStream}
      (refused : s.stream.subscribeWithMembership client scope knownRevision provider =
        (.error error, stream)) :
      Step encodedLength s (.refused client scope) { s with stream }
  | unsubscribe (client : String) (scope : SubscriptionScope) :
      Step encodedLength s (.unsubscribed client scope)
        { s with stream := s.stream.unsubscribe client scope }
  | drop (client : String) :
      Step encodedLength s (.dropped client)
        { s with stream := s.stream.dropClientSubscriptions client }

/-- A run and what is observed of it. -/
inductive Run (encodedLength : TaskChanges → Option Nat) :
    SyncState → List SyncEvent → SyncState → Prop where
  | nil (s : SyncState) : Run encodedLength s [] s
  | cons {s s' s'' : SyncState} {event : SyncEvent} {rest : List SyncEvent}
      (first : Step encodedLength s event s') (others : Run encodedLength s' rest s'') :
      Run encodedLength s (event :: rest) s''

/-- The log is empty, and nothing is published before it is committed. -/
structure Fresh (s : SyncState) : Prop where
  tasks : s.stream.taskChanges.tasks = []
  bytes : s.stream.taskChanges.totalBytes = 0
  committed : ∀ taskId, s.published taskId ≤ s.durable taskId

end SyncState

/-! ## What is observed -/

namespace SyncEvent

/-- What an event publishes of a Task. -/
def publishedChange? (taskId : String) : SyncEvent → Option (Nat × TaskChanges)
  | published _ (.taskChanged changed revision changes) _ _ =>
    if changed = taskId then some (revision, changes) else none
  | _ => none

/-- The events that a subscription gets. -/
def eventsFor (record : SubscriptionRecord) : SyncEvent → List AppServerEvent
  | published _ _ _ events => StateStream.eventsFor record events
  | _ => []

/-- The Task change of a delivered event. -/
def taskChange? (event : AppServerEvent) : Option (Nat × TaskChanges) :=
  match event.payload with
  | .taskChanged _ revision changes => some (revision, changes)
  | _ => none

/-- A cursor that a client sees: of a reply, or before and after an event. -/
inductive Seen where
  | reply (cursor : String)
  | event (previousCursor cursor : String)

def seenBy (record : SubscriptionRecord) : SyncEvent → List Seen
  | subscribed client scope _ result =>
    if (⟨client, scope⟩ : SubscriptionRecord) = record then [.reply result.cursor] else []
  | published _ _ _ events =>
    (StateStream.eventsFor record events).map fun event => .event event.previousCursor event.cursor
  | _ => []

/-- The subscription lasts, and what is published can be delivered to its client. -/
def Keeps (record : SubscriptionRecord) : SyncEvent → Prop
  | published _ _ deliveries _ => (deliveries record.clientInstanceId).isSome
  | unsubscribed client scope => (⟨client, scope⟩ : SubscriptionRecord) ≠ record
  | dropped client => client ≠ record.clientInstanceId
  | _ => True

/-- The event is published for one client alone. -/
def ForOneClient : SyncEvent → Prop
  | published (.client _ _) _ _ _ => True
  | _ => False

end SyncEvent

open SyncEvent

/-- Everything a run publishes of a Task. -/
def publishedChanges (taskId : String) (trace : List SyncEvent) : List (Nat × TaskChanges) :=
  trace.filterMap (publishedChange? taskId)

/-- The Task changes that a client gets live. -/
def liveChanges (client taskId : String) (trace : List SyncEvent) : List (Nat × TaskChanges) :=
  (trace.flatMap (SyncEvent.eventsFor ⟨client, .task taskId⟩)).filterMap taskChange?

/-- Every event begins where the one before it, or the reply, ended. -/
def Chained : String → List Seen → Prop
  | _, [] => True
  | _, .reply cursor :: rest => Chained cursor rest
  | last, .event previousCursor cursor :: rest => previousCursor = last ∧ Chained cursor rest

@[simp] theorem publishedChanges_append (taskId : String) (xs ys : List SyncEvent) :
    publishedChanges taskId (xs ++ ys) = publishedChanges taskId xs ++ publishedChanges taskId ys :=
  List.filterMap_append

namespace SyncState

section Runs

variable {encodedLength : TaskChanges → Option Nat} {s s' : SyncState} {event : SyncEvent}
  {trace : List SyncEvent}

/-! ## What the log keeps -/

/-- What holds after a run that started at the revisions `base` and published `history`. -/
structure Logged (base : String → Nat) (history : String → List (Nat × TaskChanges))
    (s : SyncState) : Prop where
  accounted : s.stream.taskChanges.Accounted
  holds : TaskChangeLog.Holds base history s.stream.taskChanges
  numbered : ∀ taskId, Numbered (base taskId) (history taskId)
  last : ∀ taskId, s.published taskId = base taskId + (history taskId).length
  committed : ∀ taskId, s.published taskId ≤ s.durable taskId

theorem logged_fresh (h : Fresh s) : Logged s.published (fun _ => []) s where
  accounted := by
    refine ⟨?_, fun taskId task htask => ?_, ?_⟩
    · rw [h.tasks]
      exact List.nodup_nil
    · rw [h.tasks] at htask
      cases htask
    · rw [h.tasks, h.bytes]
      rfl
  holds := by
    intro taskId task htask
    rw [h.tasks] at htask
    cases htask
  numbered _ := .nil _
  last _ := rfl
  committed := h.committed

variable {client : String} {stream : StateStream} {knownRevision : Option Nat}
    {provider : SnapshotProvider}

theorem taskChanges_subscribe {stream' : StateStream} {scope : SubscriptionScope}
    {result : Except RuntimeError StateSubscribeResult}
    (h : stream.subscribeWithMembership client scope knownRevision provider = (result, stream')) :
    stream'.taskChanges = stream.taskChanges := by
  unfold subscribeWithMembership at h
  simp only at h
  split at h <;> cases h <;> rfl

theorem recordChange_of_ne {log : TaskChangeLog} {scope : EventScope} {payload : EventPayload}
    (h : ∀ taskId revision changes, payload ≠ .taskChanged taskId revision changes) :
    recordChange encodedLength log scope payload = log := by
  unfold recordChange
  split
  · exact absurd rfl (h _ _ _)
  · rfl

variable {base : String → Nat} {history : String → List (Nat × TaskChanges)}

theorem Logged.same (h : Logged base history s)
    (hlog : s'.stream.taskChanges = s.stream.taskChanges) (hpublished : s'.published = s.published)
    (hdurable : ∀ taskId, s.durable taskId ≤ s'.durable taskId)
    (hevent : ∀ taskId, publishedChange? taskId event = none) :
    Logged base (fun taskId => history taskId ++ (publishedChange? taskId event).toList) s' := by
  have hhistory : (fun taskId => history taskId ++ (publishedChange? taskId event).toList) =
      history := by
    funext taskId
    rw [hevent taskId, Option.toList_none, List.append_nil]
  rw [hhistory]
  refine ⟨hlog ▸ h.accounted, hlog ▸ h.holds, h.numbered, hpublished ▸ h.last, fun taskId => ?_⟩
  rw [hpublished]
  exact (h.committed taskId).trans (hdurable taskId)

variable {taskId : String}

theorem logged_change (h : Logged base history s) {revision : Nat} {changes : TaskChanges}
    (hnext : revision = s.published taskId + 1) (hdurable : revision ≤ s.durable taskId)
    {scope : EventScope} {deliveries : String → Option String} {events : List StateEventDelivery}
    (hlog : s'.stream.taskChanges =
      s.stream.taskChanges.record encodedLength taskId revision changes)
    (hpublished : s'.published = Function.update s.published taskId revision)
    (hsame : s'.durable = s.durable) :
    Logged base (fun id => history id ++ (publishedChange? id
      (.published scope (.taskChanged taskId revision changes) deliveries events)).toList) s' := by
  have hself : (publishedChange? taskId
      (.published scope (.taskChanged taskId revision changes) deliveries
      events)).toList = [(revision, changes)] := by simp [publishedChange?]
  have hothers : ∀ id ≠ taskId,
      (publishedChange? id (.published scope (.taskChanged taskId revision changes)
      deliveries events)).toList = [] := by
    intro id hid
    simp [publishedChange?, Ne.symm hid]
  have hrevision : revision = base taskId + (history taskId).length + 1 := by
    rw [hnext, h.last]
  refine ⟨?_, ?_, fun id => ?_, fun id => ?_, fun id => ?_⟩
  · rw [hlog]
    exact h.accounted.record encodedLength taskId revision changes
  · rw [hlog]
    refine TaskChangeLog.holds_record h.holds h.accounted encodedLength hrevision ?_ fun id hid =>
      ?_
    · rw [hself]
    · rw [hothers id hid, List.append_nil]
  · by_cases hid : id = taskId
    · subst hid
      rw [hself, hrevision]
      exact (h.numbered id).concat changes
    · rw [hothers id hid, List.append_nil]
      exact h.numbered id
  · rw [hpublished]
    by_cases hid : id = taskId
    · subst hid
      rw [hself, Function.update_self, hrevision, List.length_append, List.length_singleton]
      omega
    · rw [hothers id hid, List.append_nil, Function.update_of_ne hid, h.last]
  · rw [hpublished, hsame]
    by_cases hid : id = taskId
    · subst hid
      rw [Function.update_self]
      exact hdurable
    · rw [Function.update_of_ne hid]
      exact h.committed id

/-- **One step.** -/
theorem logged_step (h : Logged base history s) (hstep : Step encodedLength s event s') :
    Logged base (fun taskId => history taskId ++ (publishedChange? taskId event).toList) s' := by
  cases hstep with
  | commit taskId =>
    refine h.same rfl rfl (fun id => ?_) fun _ => rfl
    by_cases hid : id = taskId
    · subst hid
      simp
    · simp [hid]
  | publish scope payload deliveries publishable =>
    by_cases hchange : ∃ taskId revision changes, payload = .taskChanged taskId revision changes
    · obtain ⟨taskId, revision, changes, rfl⟩ := hchange
      obtain ⟨rfl, hnext, hdurable⟩ := publishable
      exact logged_change h hnext hdurable rfl rfl rfl
    · have hother : ∀ taskId revision changes, payload ≠ .taskChanged taskId revision changes :=
        fun taskId revision changes heq => hchange ⟨taskId, revision, changes, heq⟩
      refine h.same (recordChange_of_ne hother) ?_ (fun _ => Nat.le_refl _) fun taskId => ?_
      · show publishedAfter s.published payload = s.published
        unfold publishedAfter
        split
        · exact absurd rfl (hother _ _ _)
        · rfl
      · unfold publishedChange?
        split
        · rename_i heq
          cases heq
          exact absurd rfl (hother _ _ _)
        · rfl
  | subscribe answers subscribed =>
    exact h.same (taskChanges_subscribe subscribed) rfl (fun _ => Nat.le_refl _) fun _ => rfl
  | refuse refused =>
    exact h.same (taskChanges_subscribe refused) rfl (fun _ => Nat.le_refl _) fun _ => rfl
  | unsubscribe client scope => exact h.same rfl rfl (fun _ => Nat.le_refl _) fun _ => rfl
  | drop client => exact h.same rfl rfl (fun _ => Nat.le_refl _) fun _ => rfl

/-- **A whole run.** -/
theorem logged_run (h : Logged base history s) (hrun : Run encodedLength s trace s') :
    Logged base (fun taskId => history taskId ++ publishedChanges taskId trace) s' := by
  induction hrun generalizing history with
  | nil s =>
    have hhistory : (fun taskId => history taskId ++ publishedChanges taskId []) = history :=
      funext fun taskId => List.append_nil _
    rw [hhistory]
    exact h
  | @cons s s' s'' event rest first others ih =>
    have hcons : ∀ taskId, publishedChanges taskId (event :: rest) =
        (publishedChange? taskId event).toList ++ publishedChanges taskId rest := by
      intro taskId
      rw [publishedChanges, List.filterMap_cons]
      cases publishedChange? taskId event <;> rfl
    simp only [hcons, ← List.append_assoc]
    exact ih (logged_step h first)

theorem taskSnapshot_resume {taskId' : String} {known : Nat} {changes : List (Nat × TaskChanges)}
    {historySync subagents : JsonText} {workspaceAvailable : Bool}
    (h : stream.taskSnapshot taskId knownRevision provider =
      .ok (.taskResume taskId' known changes historySync subagents workspaceAvailable)) :
    knownRevision = some known ∧ ∃ basis, provider.taskResumeBasis = .ok (some basis) ∧
      ((known = basis.revision ∧ changes = []) ∨
        ∃ bytes, stream.taskChanges.changesSince taskId known = .changes changes bytes) := by
  have hbaseline : ∀ snapshot, provider.snapshot.map SubscriptionSnapshot.baseline ≠ .ok
      (.taskResume taskId' known changes historySync subagents snapshot) := by
    intro snapshot hbaseline
    cases hprovider : provider.snapshot <;> rw [hprovider] at hbaseline <;> cases hbaseline
  unfold taskSnapshot at h
  cases knownRevision with
  | none => exact absurd h (hbaseline _)
  | some revision =>
    obtain ⟨basis?, hbasis, h⟩ := bind_eq_ok.mp h
    cases basis? with
    | none => exact absurd h (hbaseline _)
    | some basis =>
      dsimp only at h
      split at h
      · exact absurd h (hbaseline _)
      · split at h
        · rename_i heq
          cases h
          exact ⟨rfl, basis, hbasis, .inl ⟨heq, rfl⟩⟩
        · split at h
          · rename_i bytes hsince
            cases h
            exact ⟨rfl, basis, hbasis, .inr ⟨bytes, hsince⟩⟩
          · exact absurd h (hbaseline _)
          · exact absurd h (hbaseline _)

theorem subscribe_eq_ok {stream' : StateStream} {scope : SubscriptionScope}
    {result : StateSubscribeResult}
    (h : stream.subscribeWithMembership client scope knownRevision provider =
      (.ok result, stream')) :
    result.cursor = cursorText (stream.scopeCursors scope) ∧
    stream' = { stream with
      subscriptions := upsertSubscription stream.subscriptions ⟨client, scope⟩ } ∧
    ∀ taskId, scope = .task taskId →
      stream.taskSnapshot taskId knownRevision provider = .ok result.snapshot := by
  unfold subscribeWithMembership at h
  simp only at h
  split at h
  · cases h
  · rename_i snapshot hsnapshot
    cases h
    refine ⟨rfl, rfl, ?_⟩
    rintro taskId rfl
    exact hsnapshot

/-- **What a resumed client is sent**: what was published after the revision it knows. -/
theorem resume_changes (h : Logged base history s) {taskId' : String} {known : Nat}
    {changes : List (Nat × TaskChanges)} {historySync subagents : JsonText}
    {workspaceAvailable : Bool} {result : StateSubscribeResult}
    (hstep : Step encodedLength s (.subscribed client (.task taskId) knownRevision result) s')
    (hresult : result.snapshot =
      .taskResume taskId' known changes historySync subagents workspaceAvailable) :
    knownRevision = some known ∧ base taskId ≤ known ∧ changes = after known (history taskId) := by
  cases hstep with
  | subscribe answers subscribed =>
    have hsnapshot := (subscribe_eq_ok subscribed).2.2 taskId rfl
    rw [hresult] at hsnapshot
    obtain ⟨hknown, basis, hbasis, hcases⟩ := taskSnapshot_resume hsnapshot
    refine ⟨hknown, ?_⟩
    rcases hcases with ⟨rfl, rfl⟩ | ⟨bytes, hsince⟩
    · -- nothing later than the stored revision has been published
      have hlast := h.last taskId
      have hcommitted := h.committed taskId
      have hrevision : basis.revision = s.durable taskId := answers basis hbasis
      refine ⟨by omega, ((h.numbered taskId).after_eq_nil ?_).symm⟩
      omega
    · exact TaskChangeLog.changesSince_eq h.holds (h.numbered taskId) hsince

/-! ## What a subscribed client gets -/

variable {record : SubscriptionRecord}

theorem subscribed_step (h : record ∈ s.stream.subscriptions)
    (hstep : Step encodedLength s event s') (hkeeps : event.Keeps record) :
    record ∈ s'.stream.subscriptions := by
  cases hstep with
  | commit taskId => exact h
  | publish scope payload deliveries publishable => exact h
  | subscribe answers subscribed =>
    obtain ⟨-, rfl, -⟩ := subscribe_eq_ok subscribed
    show record ∈ upsertSubscription _ _
    unfold upsertSubscription
    split
    · exact h
    · exact List.mem_append_left _ h
  | refuse refused =>
    unfold subscribeWithMembership at refused
    simp only at refused
    split at refused <;> cases refused
    exact h
  | unsubscribe client scope =>
    exact List.mem_filter.mpr ⟨h, decide_eq_true (Ne.symm hkeeps)⟩
  | drop client => exact List.mem_filter.mpr ⟨h, decide_eq_true (Ne.symm hkeeps)⟩

theorem reaches_taskChanged {revision : Nat} {changes : TaskChanges} {changed : String}
    (h : record ∈ stream.subscriptions) (hrecord : record.scope = .task taskId) :
    reaches stream (.task stream.stateRootId changed) (.taskChanged changed revision changes)
    record = decide (taskId = changed) := by
  simp only [reaches, h, decide_true, Bool.true_and, eventMatchesSubscription, isProjectCollection,
    Bool.false_eq_true, if_false, scopeMatches, hrecord, payloadMatchesSubscription, Bool.and_true]

/-- **One event**: a subscribed client gets the changes of the Task that are published. -/
theorem live_step (h : (⟨client, .task taskId⟩ : SubscriptionRecord) ∈ s.stream.subscriptions)
    (hstep : Step encodedLength s event s') (hkeeps : event.Keeps ⟨client, .task taskId⟩) :
    (event.eventsFor ⟨client, .task taskId⟩).filterMap taskChange? =
      (publishedChange? taskId event).toList := by
  cases hstep with
  | publish scope payload deliveries publishable =>
    simp only [SyncEvent.eventsFor, eventsFor_publish]
    have hdelivered : (deliveries client).isSome := hkeeps
    by_cases hchange : ∃ changed revision changes, payload = .taskChanged changed revision changes
    · obtain ⟨changed, revision, changes, rfl⟩ := hchange
      obtain ⟨rfl, -, -⟩ := publishable
      simp only [reaches_taskChanged h rfl, hdelivered, and_true, publishedChange?]
      by_cases heq : taskId = changed
      · subst heq
        simp [taskChange?, eventAt]
      · simp [heq, Ne.symm heq]
    · -- an event of another kind carries no Task change
      have hnone : publishedChange? taskId (.published scope payload deliveries
          (publishCommitted encodedLength s.stream scope payload deliveries).2) = none := by
        unfold publishedChange?
        split
        · rename_i heq
          cases heq
          exact absurd ⟨_, _, _, rfl⟩ hchange
        · rfl
      have hother : taskChange? (eventAt scope payload (.task taskId)
          (s.stream.scopeCursors (.task taskId))) = none := by
        unfold taskChange?
        split
        · rename_i heq
          exact absurd ⟨_, _, _, heq⟩ hchange
        · rfl
      rw [hnone]
      split
      · simp [hother]
      · rfl
  | _ => rfl

/-- **What a subscribed client gets live** is what is published. -/
theorem live_eq_published
    (h : (⟨client, .task taskId⟩ : SubscriptionRecord) ∈ s.stream.subscriptions)
    (hrun : Run encodedLength s trace s')
    (hkeeps : ∀ event ∈ trace, event.Keeps ⟨client, .task taskId⟩) :
    liveChanges client taskId trace = publishedChanges taskId trace := by
  induction hrun with
  | nil s => rfl
  | @cons s s' s'' event rest first others ih =>
    have hfirst := hkeeps event List.mem_cons_self
    have hrest := ih (subscribed_step h first hfirst) fun e he =>
      hkeeps e (List.mem_cons_of_mem _ he)
    have hlive := live_step h first hfirst
    simp only [liveChanges, List.flatMap_cons, List.filterMap_append] at hrest ⊢
    rw [hrest, hlive, publishedChanges, publishedChanges, List.filterMap_cons]
    cases publishedChange? taskId event <;> rfl

/-- **One event**: where it begins and where the cursor of the scope is then. -/
theorem chained_step (h : record ∈ s.stream.subscriptions) (hstep : Step encodedLength s event s')
    (hkeeps : event.Keeps record) (hshared : ofTaskOnly record.scope = true ∨ ¬ event.ForOneClient)
    {rest : List Seen} (hrest : Chained (cursorText (s'.stream.scopeCursors record.scope)) rest) :
    Chained (cursorText (s.stream.scopeCursors record.scope)) (event.seenBy record ++ rest) := by
  cases hstep with
  | commit taskId => exact hrest
  | publish scope payload deliveries publishable =>
    have hdelivered : (deliveries record.clientInstanceId).isSome := hkeeps
    obtain ⟨hmoves, hstays⟩ := cursor_publish encodedLength s.stream scope payload deliveries
      record.scope
    simp only [seenBy, eventsFor_publish, hdelivered, and_true]
    cases hreached : reaches s.stream scope payload record with
    | true =>
      rw [hmoves ⟨record.clientInstanceId, hreached⟩] at hrest
      exact ⟨rfl, hrest⟩
    | false =>
      -- then no one else in the scope is reached either
      have hnone : ∀ client, reaches s.stream scope payload ⟨client, record.scope⟩ = false := by
        intro client
        have hscope : (∀ root one, scope ≠ .client root one) ∨ ofTaskOnly record.scope = true := by
          refine hshared.symm.imp (fun hall root one heq => ?_) id
          subst heq
          exact hall trivial
        have hmatches : eventMatchesSubscription s.stream.stateRootId scope payload
            ⟨client, record.scope⟩ = eventMatchesSubscription s.stream.stateRootId scope payload
              ⟨record.clientInstanceId, record.scope⟩ :=
          matches_congr hscope payload client record.clientInstanceId
        simp only [reaches, h, decide_true, Bool.true_and] at hreached
        simp only [reaches, hmatches, hreached, Bool.and_false]
      rw [hstays hnone] at hrest
      exact hrest
  | subscribe answers subscribed =>
    obtain ⟨hcursor, rfl, -⟩ := subscribe_eq_ok subscribed
    simp only [seenBy]
    split
    · rename_i hself
      subst hself
      show Chained _ rest
      rw [hcursor]
      exact hrest
    · exact hrest
  | refuse refused =>
    unfold subscribeWithMembership at refused
    simp only at refused
    split at refused <;> cases refused
    exact hrest
  | unsubscribe client scope => exact hrest
  | drop client => exact hrest

/-- **A whole run**: every event begins where the one before it ended. -/
theorem chained_run (h : record ∈ s.stream.subscriptions) (hrun : Run encodedLength s trace s')
    (hkeeps : ∀ event ∈ trace, event.Keeps record)
    (hshared : ofTaskOnly record.scope = true ∨ ∀ event ∈ trace, ¬ event.ForOneClient) :
    Chained (cursorText (s.stream.scopeCursors record.scope))
    (trace.flatMap (·.seenBy record)) := by
  induction hrun with
  | nil s => trivial
  | @cons s s' s'' event rest first others ih =>
    have hfirst := hkeeps event List.mem_cons_self
    have hothers := hshared.imp id fun hall e he => hall e (List.mem_cons_of_mem _ he)
    refine chained_step h first hfirst (hshared.imp id fun hall => hall event List.mem_cons_self) ?_
    exact ih (subscribed_step h first hfirst) (fun e he => hkeeps e (List.mem_cons_of_mem _ he))
      hothers

theorem after_after (n : Nat) (xs : List (Nat × TaskChanges)) :
    after n (after n xs) = after n xs := by
  rw [after, after, List.filter_filter]
  simp

/-- **Task resume loses nothing.**  A client is subscribed anywhere in a run; then, as long as the
subscription lasts and there is a delivery to the client:

- if the reply is a resume, it resumes from the revision that the client named, and the changes of
  the reply and those of the live events are, after that revision, everything published of the Task,
  one revision after another up to the last one published;
- every event begins at the cursor at which the event or the reply before it ended, if the scope is
  one of a single Task or nothing is published for one client alone. -/
theorem task_resume_loses_nothing (encodedLength : TaskChanges → Option Nat)
    (s₀ s₁ s₂ s₃ : SyncState) (before later : List SyncEvent) (hfresh : Fresh s₀)
    (hbefore : Run encodedLength s₀ before s₁) (client : String) (scope : SubscriptionScope)
    (knownRevision : Option Nat) (result : StateSubscribeResult)
    (hsubscribed : Step encodedLength s₁ (.subscribed client scope knownRevision result) s₂)
    (hlater : Run encodedLength s₂ later s₃)
    (hkeeps : ∀ event ∈ later, event.Keeps ⟨client, scope⟩) :
    (∀ taskId known changes historySync subagents workspaceAvailable, scope = .task taskId →
      result.snapshot =
        .taskResume taskId known changes historySync subagents workspaceAvailable →
      knownRevision = some known ∧
      after known (changes ++ liveChanges client taskId later) =
        after known (publishedChanges taskId (before ++ later)) ∧
      (after known (changes ++ liveChanges client taskId later)).map Prod.fst =
        List.range' (known + 1) (s₃.published taskId - known)) ∧
    ((ofTaskOnly scope = true ∨ ∀ event ∈ later, ¬ event.ForOneClient) →
      Chained result.cursor (later.flatMap (·.seenBy ⟨client, scope⟩))) := by
  have hlogged := logged_run (logged_fresh hfresh) hbefore
  have hnow : (⟨client, scope⟩ : SubscriptionRecord) ∈ s₂.stream.subscriptions ∧
      result.cursor = cursorText (s₂.stream.scopeCursors scope) := by
    cases hsubscribed with
    | subscribe answers subscribed =>
      obtain ⟨hcursor, rfl, -⟩ := subscribe_eq_ok subscribed
      refine ⟨?_, hcursor⟩
      show _ ∈ upsertSubscription _ _
      unfold upsertSubscription
      split
      · assumption
      · exact List.mem_append_right _ (List.mem_singleton_self _)
  refine ⟨?_, fun hshared => ?_⟩
  · rintro taskId known changes historySync subagents workspaceAvailable rfl hresult
    obtain ⟨hknown, hbase, rfl⟩ := resume_changes hlogged hsubscribed hresult
    have hlive := live_eq_published hnow.1 hlater hkeeps
    have hall := logged_run (logged_step hlogged hsubscribed) hlater
    have heq : after known (after known ([] ++ publishedChanges taskId before) ++
        liveChanges client taskId later) =
        after known (publishedChanges taskId (before ++ later)) := by
      rw [List.nil_append, hlive, after_append, after_after, publishedChanges_append, after_append]
    refine ⟨hknown, heq, ?_⟩
    have hnumbered := hall.numbered taskId
    have hlast := hall.last taskId
    simp only [publishedChange?, Option.toList_none, List.append_nil, List.nil_append,
      ← publishedChanges_append] at hnumbered hlast
    rw [heq, hnumbered.numbers_after hbase, hlast]
  · rw [hnow.2]
    exact chained_run hnow.1 hlater hkeeps hshared

end Runs

namespace Example

def encodedLength (_ : TaskChanges) : Option Nat := some 2

/-- The Task has revision 3 in storage; revision 1 was published before. -/
def start : SyncState where
  stream := { stateRootId := "root" }
  durable _ := 3
  published _ := 1

def change (revision : Nat) : EventPayload := .taskChanged "t" revision { removed := false }

def publication (s : SyncState) (revision : Nat) : StateStream × List StateEventDelivery :=
  publishCommitted encodedLength s.stream (.task "root" "t") (change revision) some

/-- Revision 2 is published to no one. -/
def published : SyncState :=
  ⟨(publication start 2).1, start.durable, publishedAfter start.published (change 2)⟩

def provider : SnapshotProvider where
  snapshot := .ok ⟨"baseline"⟩
  taskResumeBasis := .ok (some ⟨3, ⟨"idle"⟩, ⟨"none"⟩, true⟩)

/-- A client that knows revision 1 is sent revision 2. -/
def reply : StateSubscribeResult where
  cursor := "cursor-0"
  scope := .task "t"
  snapshot := .taskResume "t" 1 [(2, { removed := false })] ⟨"idle"⟩ ⟨"none"⟩ true

def subscribedState : SyncState :=
  { published with stream :=
    (published.stream.subscribeWithMembership "c" (.task "t") (some 1) provider).2 }

/-- Revision 3 is published. -/
def finish : SyncState :=
  ⟨(publication subscribedState 3).1, subscribedState.durable,
    publishedAfter subscribedState.published (change 3)⟩

def before : List SyncEvent :=
  [.published (.task "root" "t") (change 2) some (publication start 2).2]

def later : List SyncEvent :=
  [.published (.task "root" "t") (change 3) some (publication subscribedState 3).2]

theorem fresh_start : Fresh start := ⟨rfl, rfl, fun _ => show 1 ≤ 3 by decide⟩

theorem run_before : Run encodedLength start before published :=
  .cons (.publish (.task "root" "t") (change 2) some ⟨rfl, rfl, by decide⟩) (.nil _)

theorem subscribed_reply : Step encodedLength published
    (.subscribed "c" (.task "t") (some 1) reply) subscribedState := by
  have hreply : published.stream.subscribeWithMembership "c" (.task "t") (some 1) provider =
      (.ok reply, (published.stream.subscribeWithMembership "c" (.task "t") (some 1) provider).2) :=
    Prod.ext (by decide +kernel) rfl
  refine .subscribe (fun basis hbasis => ?_) hreply
  cases hbasis
  rfl

theorem run_later : Run encodedLength subscribedState later finish :=
  .cons (.publish (.task "root" "t") (change 3) some ⟨rfl, rfl, by decide⟩) (.nil _)

end Example

open Example

/-- The client that knows revision 1 sees revisions 2 and 3, and the event begins at the cursor of
the reply. -/
theorem task_resume_two_revisions :
    (after 1 ([(2, { removed := false })] ++ liveChanges "c" "t" later)).map Prod.fst =
      [2, 3] ∧
    Chained "cursor-0" (later.flatMap (·.seenBy ⟨"c", .task "t"⟩)) := by
  obtain ⟨hseen, hchain⟩ := task_resume_loses_nothing encodedLength start
    Example.published subscribedState finish before later
    fresh_start run_before "c" (.task "t") (some 1) reply
    subscribed_reply run_later (by
      intro event hevent
      rw [List.mem_singleton.mp hevent]
      rfl)
  exact ⟨(hseen "t" 1 _ _ _ _ rfl rfl).2.2, hchain (.inl rfl)⟩

end SyncState

end OpenAide

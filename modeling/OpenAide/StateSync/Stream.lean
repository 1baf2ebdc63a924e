import OpenAide.StateSync.ChangeLog

/-!
# The state stream

`state_sync.rs`: who is subscribed to what, and what every published event becomes for each of them.
A subscription scope has a cursor of its own that moves with every event that matches it; an event
goes to each subscribed client once for each scope, with the scope's cursor before and after it.

- `eventsFor_publish`: **the one event that a subscription gets** from a publication, or none;
- `cursor_publish`: how far the cursor of a scope moves;
- `matches_congr`: an event that is not for one client alone reaches all who are subscribed to a
  scope, or none.
-/

namespace OpenAide

open Library TaskSnapshots

/-! ## Scopes and events -/

inductive SettingsSection where
  | agents | mcpServers | skills | commonSettings
  deriving DecidableEq

inductive TaskNavigationSection where
  | tasks | archive
  deriving DecidableEq

/-- `SubscriptionScope` (`state.rs:54`). -/
inductive SubscriptionScope where
  | projects
  | agents
  | settings (part : Option SettingsSection)
  | taskNavigation (part : TaskNavigationSection) (projectIds : Option (List String))
  | task (taskId : String)
  | subagentCatalog (taskId : String)
  | subagentHistory (taskId subagentId : String)
  | toolDetail (taskId artifactId : String)
  | worktreeRepository (repositoryId : String)
  | devices
  | terminals
  deriving DecidableEq

/-- `EventScope` (`events.rs:35`). -/
inductive EventScope where
  | stateRoot (stateRootId : String)
  | client (stateRootId clientInstanceId : String)
  | task (stateRootId taskId : String)
  deriving DecidableEq

/-- `AppServerEventPayload` (`events.rs:58`), with what decides whom an event concerns; the rest of
the payloads other than `taskChanged` is one text. -/
inductive EventPayload where
  | snapshotReplaced (body : JsonText)
  | taskChanged (taskId : String) (revision : Nat) (changes : TaskChanges)
  | taskHistorySyncUpdated (taskId : String) (body : JsonText)
  | taskUpdated (projectId : String) (lifecycle : Lifecycle) (body : JsonText)
  | projectEntriesReplaced (part : TaskNavigationSection) (projectId : String) (body : JsonText)
  | refreshStateChanged (body : JsonText)
  | navigationReplaced (part : TaskNavigationSection) (body : JsonText)
  | projectCollectionUpdated (body : JsonText)
  | taskRequestsUpdated (taskId : String) (body : JsonText)
  | subagentCatalogUpdated (taskId : String) (body : JsonText)
  | subagentHistoryChanged (taskId subagentId : String) (body : JsonText)
  | toolDetailUpdated (taskId artifactId : String) (body : JsonText)
  | toolDetailChanged (taskId artifactId : String) (body : JsonText)
  | requestUpdated (body : JsonText)
  | agentCollectionUpdated (body : JsonText)
  | worktreeRepositoryUpdated (repositoryId : String) (body : JsonText)
  | deviceCollectionUpdated (body : JsonText)
  | terminalCollectionUpdated (body : JsonText)
  deriving DecidableEq

structure AppServerEvent where
  subscription : SubscriptionScope
  previousCursor : String
  cursor : String
  scope : EventScope
  payload : EventPayload
  deriving DecidableEq

structure SubscriptionRecord where
  clientInstanceId : String
  scope : SubscriptionScope
  deriving DecidableEq

/-- `StateEventDelivery`, with the client and the connection of its `Delivery`. -/
structure StateEventDelivery where
  clientInstanceId : String
  connectionId : String
  event : AppServerEvent
  deriving DecidableEq

namespace StateStream

/-! ### Which events concern a subscription -/

/-- `task_lifecycle_matches_navigation_section`. -/
def lifecycleMatches : Lifecycle → TaskNavigationSection → Bool
  | .open, .tasks => true
  | .archived, .archive => true
  | _, _ => false

/-- No list of Projects means all of them. -/
def includesProject (projectIds : Option (List String)) (projectId : String) : Bool :=
  projectIds.all (projectId ∈ ·)

/-- `payload_matches_subscription` (`state_sync.rs:502`). -/
def payloadMatchesSubscription : EventPayload → SubscriptionScope → Bool
  | .snapshotReplaced _, .projects | .snapshotReplaced _, .agents
  | .snapshotReplaced _, .settings _ | .snapshotReplaced _, .devices
  | .snapshotReplaced _, .terminals | .snapshotReplaced _, .taskNavigation _ _
  | .snapshotReplaced _, .task _ | .snapshotReplaced _, .worktreeRepository _ => true
  | .projectCollectionUpdated _, .projects => true
  | .agentCollectionUpdated _, .agents => true
  | .deviceCollectionUpdated _, .devices => true
  | .terminalCollectionUpdated _, .terminals => true
  | .navigationReplaced changed _, .taskNavigation part _ => changed = part
  | .refreshStateChanged _, .taskNavigation part _ => part = .tasks
  | .projectEntriesReplaced changed projectId _, .taskNavigation part projectIds =>
    changed = part && includesProject projectIds projectId
  | .taskUpdated projectId lifecycle _, .taskNavigation part projectIds =>
    includesProject projectIds projectId && lifecycleMatches lifecycle part
  | .taskChanged _ _ _, .task _ | .taskHistorySyncUpdated _ _, .task _
  | .taskRequestsUpdated _ _, .task _ | .requestUpdated _, .task _ => true
  | .subagentCatalogUpdated changed _, .subagentCatalog taskId => changed = taskId
  | .subagentHistoryChanged changed changedSubagent _, .subagentHistory taskId subagentId =>
    changed = taskId && changedSubagent = subagentId
  | .toolDetailUpdated changed changedArtifact _, .toolDetail taskId artifactId =>
    changed = taskId && changedArtifact = artifactId
  | .toolDetailChanged changed changedArtifact _, .toolDetail taskId artifactId =>
    changed = taskId && changedArtifact = artifactId
  | .worktreeRepositoryUpdated changed _, .worktreeRepository repositoryId => changed = repositoryId
  | _, _ => false

/-- Scopes that only see events of their Task. -/
def ofTaskOnly : SubscriptionScope → Bool
  | .task _ | .subagentCatalog _ | .subagentHistory _ _ => true
  | _ => false

def eventStateRoot : EventScope → String
  | .stateRoot root | .client root _ | .task root _ => root

/-- The scope half of `event_matches_subscription`. -/
def scopeMatches (stateRootId : String) (subscription : SubscriptionRecord) : EventScope → Bool
  | .stateRoot root => root = stateRootId && !ofTaskOnly subscription.scope
  | .client root client => root = stateRootId && client = subscription.clientInstanceId &&
      !ofTaskOnly subscription.scope
  | .task root taskId => root = stateRootId &&
      match subscription.scope with
      | .task subscribed | .toolDetail subscribed _ | .subagentCatalog subscribed
      | .subagentHistory subscribed _ => subscribed = taskId
      | _ => false

def isProjectCollection : EventPayload → Bool
  | .projectCollectionUpdated _ => true
  | _ => false

/-- `event_matches_subscription` (`state_sync.rs:428`). -/
def eventMatchesSubscription (stateRootId : String) (scope : EventScope) (payload : EventPayload)
    (subscription : SubscriptionRecord) : Bool :=
  if isProjectCollection payload then
    eventStateRoot scope = stateRootId && payloadMatchesSubscription payload subscription.scope
  else
    scopeMatches stateRootId subscription scope &&
      payloadMatchesSubscription payload subscription.scope

end StateStream

/-! ## The stream -/

/-- `StateStream` (`state_sync.rs:91`).  A scope without a cursor starts at 0. -/
structure StateStream where
  stateRootId : String
  cursors : Nat := 0
  scopeCursors : SubscriptionScope → Nat := fun _ => 0
  subscriptions : List SubscriptionRecord := []
  taskChanges : TaskChangeLog := {}

/-- `TaskResumeBasis` (`snapshots.rs:57`). -/
structure TaskResumeBasis where
  revision : Nat
  historySync : JsonText
  subagents : JsonText
  workspaceAvailable : Bool
  deriving DecidableEq

/-- What the snapshot provider answers: a baseline, and for a Task what it can resume from. -/
structure SnapshotProvider where
  snapshot : Except RuntimeError JsonText
  taskResumeBasis : Except RuntimeError (Option TaskResumeBasis)

/-- `SubscriptionSnapshot`: a baseline, or what a client has missed. -/
inductive SubscriptionSnapshot where
  | baseline (snapshot : JsonText)
  | taskResume (taskId : String) (knownRevision : Nat) (changes : List (Nat × TaskChanges))
      (historySync subagents : JsonText) (workspaceAvailable : Bool)
  deriving DecidableEq

/-- `StateSubscribeResult`. -/
structure StateSubscribeResult where
  cursor : String
  scope : SubscriptionScope
  snapshot : SubscriptionSnapshot
  deriving DecidableEq

namespace StateStream

/-- The cursors of `cursor.rs`. -/
def cursorText (sequence : Nat) : String := "cursor-" ++ toString sequence

/-- `task_snapshot` (`state_sync.rs:337`). -/
def taskSnapshot (stream : StateStream) (taskId : String) (knownRevision : Option Nat)
    (provider : SnapshotProvider) : Except RuntimeError SubscriptionSnapshot := do
  let baseline := provider.snapshot.map .baseline
  match knownRevision with
  | none => baseline
  | some known =>
    match ← provider.taskResumeBasis with
    | none => baseline
    | some basis =>
      let resume changes := .taskResume taskId known changes basis.historySync basis.subagents
        basis.workspaceAvailable
      if basis.revision < known then baseline
      else if known = basis.revision then .ok (resume [])
      else
        match stream.taskChanges.changesSince taskId known with
        | .changes changes _ => .ok (resume changes)
        | .unknown | .evicted => baseline

/-- `upsert_subscription`. -/
def upsertSubscription (subscriptions : List SubscriptionRecord) (record : SubscriptionRecord) :
    List SubscriptionRecord :=
  if record ∈ subscriptions then subscriptions else subscriptions ++ [record]

/-- `subscribe_with_membership` (`state_sync.rs:136`): the reply, and the stream after it. -/
def subscribeWithMembership (stream : StateStream) (client : String) (scope : SubscriptionScope)
    (knownRevision : Option Nat) (provider : SnapshotProvider) :
    Except RuntimeError StateSubscribeResult × StateStream :=
  let cursor := cursorText (stream.scopeCursors scope)
  let snapshot := match scope with
    | .task taskId => stream.taskSnapshot taskId knownRevision provider
    | _ => provider.snapshot.map .baseline
  match snapshot with
  | .error e => (.error e, stream)
  | .ok snapshot =>
    (.ok { cursor, scope, snapshot },
      { stream with subscriptions := upsertSubscription stream.subscriptions ⟨client, scope⟩ })

/-- `unsubscribe` (`state_sync.rs:175`). -/
def unsubscribe (stream : StateStream) (client : String) (scope : SubscriptionScope) :
    StateStream :=
  { stream with subscriptions := stream.subscriptions.filter (· ≠ ⟨client, scope⟩) }

/-- `drop_client_subscriptions` (`state_sync.rs:283`). -/
def dropClientSubscriptions (stream : StateStream) (client : String) : StateStream :=
  { stream with subscriptions := stream.subscriptions.filter (·.clientInstanceId ≠ client) }

/-- A client joins the group of its scope, once. -/
def addToGroup (groups : Assoc SubscriptionScope (List String)) (record : SubscriptionRecord) :
    Assoc SubscriptionScope (List String) :=
  let clients := (groups.get? record.scope).getD []
  groups.insert record.scope
    (if record.clientInstanceId ∈ clients then clients else clients ++ [record.clientInstanceId])

/-- The clients of each scope, in the order in which they are met. -/
def groupByScope (matching : List SubscriptionRecord) : Assoc SubscriptionScope (List String) :=
  matching.foldl addToGroup []

/-- The event for one scope, delivered to its clients. -/
def deliverTo (scope : EventScope) (payload : EventPayload) (deliveries : String → Option String)
    (subscription : SubscriptionScope) (sequence : Nat) (clients : List String) :
    List StateEventDelivery :=
  clients.filterMap fun client => (deliveries client).map fun connectionId =>
    { clientInstanceId := client
      connectionId
      event := {
        subscription
        previousCursor := cursorText sequence
        cursor := cursorText (sequence + 1)
        scope
        payload } }

/-- The loop over the scopes: each advances its cursor. -/
def deliverGroups (scope : EventScope) (payload : EventPayload)
    (deliveries : String → Option String) (cursors : SubscriptionScope → Nat) :
    Assoc SubscriptionScope (List String) → (SubscriptionScope → Nat) × List StateEventDelivery
  | [] => (cursors, [])
  | (subscription, clients) :: rest =>
    let events := deliverTo scope payload deliveries subscription (cursors subscription) clients
    let (cursors, more) := deliverGroups scope payload deliveries
      (Function.update cursors subscription (cursors subscription + 1)) rest
    (cursors, events ++ more)

/-- The log records every Task change at its one point of publication. -/
def recordChange (encodedLength : TaskChanges → Option Nat) (log : TaskChangeLog) :
    EventScope → EventPayload → TaskChangeLog
  | .task _ taskId, .taskChanged _ revision changes =>
    log.record encodedLength taskId revision changes
  | _, _ => log

/-- `publish_committed` (`state_sync.rs:194`). -/
def publishCommitted (encodedLength : TaskChanges → Option Nat) (stream : StateStream)
    (scope : EventScope) (payload : EventPayload) (deliveries : String → Option String) :
    StateStream × List StateEventDelivery :=
  let matching := stream.subscriptions.filter
    (eventMatchesSubscription stream.stateRootId scope payload)
  let (scopeCursors, published) := deliverGroups scope payload deliveries stream.scopeCursors
    (groupByScope matching)
  ({ stream with
      cursors := stream.cursors + 1
      scopeCursors
      taskChanges := recordChange encodedLength stream.taskChanges scope payload },
    published)

/-! ## What a subscription gets -/

/-- The events among the deliveries that belong to a client's subscription. -/
def eventsFor (record : SubscriptionRecord) (deliveries : List StateEventDelivery) :
    List AppServerEvent :=
  (deliveries.filter fun delivery => delivery.clientInstanceId = record.clientInstanceId ∧
    delivery.event.subscription = record.scope).map (·.event)

@[simp] theorem eventsFor_append (record : SubscriptionRecord) (xs ys : List StateEventDelivery) :
    eventsFor record (xs ++ ys) = eventsFor record xs ++ eventsFor record ys := by
  simp only [eventsFor, List.filter_append, List.map_append]

variable (matching : List SubscriptionRecord)

theorem groupByScope_concat (record : SubscriptionRecord) :
    groupByScope (matching ++ [record]) = addToGroup (groupByScope matching) record := by
  rw [groupByScope, List.foldl_append]
  rfl

theorem keyed_groupByScope :
    (groupByScope matching).Keyed := by
  induction matching using List.reverseRecOn with
  | nil => exact List.nodup_nil
  | append_singleton matching record ih =>
    rw [groupByScope_concat]
    exact Assoc.keyed_insert ih _ _

/-- **The clients of a scope**, none of them twice. -/
theorem clients_groupByScope (scope : SubscriptionScope) :
    (((groupByScope matching).get? scope).getD []).Nodup ∧
    (∀ client, client ∈ ((groupByScope matching).get? scope).getD [] ↔ ⟨client, scope⟩ ∈ matching) ∧
    (((groupByScope matching).get? scope).isSome ↔ ∃ client, ⟨client, scope⟩ ∈ matching) := by
  induction matching using List.reverseRecOn with
  | nil => exact ⟨List.nodup_nil, fun client => by simp [groupByScope, Assoc.get?], by
      simp [groupByScope, Assoc.get?]⟩
  | append_singleton matching record ih =>
    obtain ⟨hnodup, hmem, hsome⟩ := ih
    obtain ⟨added, addedScope⟩ := record
    rw [groupByScope_concat, addToGroup, Assoc.get?_insert]
    by_cases hscope : addedScope = scope
    · subst hscope
      simp only [if_true, Option.getD_some, Option.isSome_some, true_iff]
      refine ⟨?_, fun client => ?_, added, by simp⟩
      · split
        · exact hnodup
        · rename_i hnew
          exact hnodup.append (List.nodup_singleton _) (by simpa using hnew)
      · by_cases hold : added ∈ ((groupByScope matching).get? addedScope).getD []
        · rw [if_pos hold, hmem, List.mem_append, List.mem_singleton]
          refine ⟨.inl, fun h => h.elim id fun heq => ?_⟩
          cases heq
          exact (hmem added).mp hold
        · rw [if_neg hold]
          simp only [List.mem_append, hmem, List.mem_singleton, SubscriptionRecord.mk.injEq,
            and_true]
    · have hother : ∀ client, (⟨client, scope⟩ : SubscriptionRecord) ∈ matching ++
          [⟨added, addedScope⟩] ↔ ⟨client, scope⟩ ∈ matching := by
        intro client
        simp only [List.mem_append, List.mem_singleton, SubscriptionRecord.mk.injEq, Ne.symm hscope,
          and_false, or_false]
      rw [if_neg hscope]
      exact ⟨hnodup, fun client => (hmem client).trans (hother client).symm,
        hsome.trans (exists_congr fun client => (hother client).symm)⟩

section Delivery

variable {scope : EventScope} {payload : EventPayload} {deliveries : String → Option String}

/-- The event that a scope at `sequence` makes of a publication. -/
def eventAt (scope : EventScope) (payload : EventPayload) (subscription : SubscriptionScope)
    (sequence : Nat) : AppServerEvent where
  subscription
  previousCursor := cursorText sequence
  cursor := cursorText (sequence + 1)
  scope
  payload

theorem eventsFor_deliverTo_cons (record : SubscriptionRecord) (sequence : Nat) (client : String)
    (rest : List String) :
    eventsFor record (deliverTo scope payload deliveries record.scope sequence (client :: rest)) =
      (if record.clientInstanceId = client ∧ (deliveries client).isSome then
        [eventAt scope payload record.scope sequence] else []) ++
      eventsFor record (deliverTo scope payload deliveries record.scope sequence rest) := by
  simp only [deliverTo, List.filterMap_cons]
  cases deliveries client with
  | none => simp
  | some connection =>
    by_cases heq : record.clientInstanceId = client
    · simp [eventsFor, heq, eventAt]
    · simp [eventsFor, heq, Ne.symm heq]

theorem eventsFor_deliverTo {record : SubscriptionRecord} {sequence : Nat} {clients : List String}
    (hclients : clients.Nodup) :
    eventsFor record (deliverTo scope payload deliveries record.scope sequence clients) =
      if record.clientInstanceId ∈ clients ∧ (deliveries record.clientInstanceId).isSome then
        [eventAt scope payload record.scope sequence] else [] := by
  induction clients with
  | nil => simp [deliverTo, eventsFor]
  | cons client rest ih =>
    obtain ⟨hclient, hrest⟩ := List.nodup_cons.mp hclients
    rw [eventsFor_deliverTo_cons, ih hrest]
    by_cases heq : record.clientInstanceId = client
    · simp [heq, hclient]
    · simp [heq]

theorem eventsFor_deliverTo_other {record : SubscriptionRecord} {subscription : SubscriptionScope}
    (h : subscription ≠ record.scope) (sequence : Nat) (clients : List String) :
    eventsFor record (deliverTo scope payload deliveries subscription sequence clients) = [] := by
  rw [eventsFor, List.map_eq_nil_iff, List.filter_eq_nil_iff]
  intro delivery hdelivery
  obtain ⟨client, -, hmap⟩ := List.mem_filterMap.mp hdelivery
  obtain ⟨connection, -, rfl⟩ := Option.map_eq_some_iff.mp hmap
  simp [h]

theorem get?_rest_eq_none {group : SubscriptionScope × List String}
    {rest : Assoc SubscriptionScope (List String)} (h : Assoc.Keyed (group :: rest)) :
    rest.get? group.1 = none := by
  have hkeys : (group.1 :: rest.map Prod.fst).Nodup := h
  exact Assoc.get?_eq_none_iff.mpr fun _ hmem =>
    (List.nodup_cons.mp hkeys).1 (List.mem_map.mpr ⟨_, hmem, rfl⟩)

theorem cursor_deliverGroups (subscription : SubscriptionScope)
    {groups : Assoc SubscriptionScope (List String)} (hkeyed : groups.Keyed)
    (cursors : SubscriptionScope → Nat) :
    (deliverGroups scope payload deliveries cursors groups).1 subscription =
      cursors subscription + if (groups.get? subscription).isSome then 1 else 0 := by
  induction groups generalizing cursors with
  | nil => rfl
  | cons group rest ih =>
    have hrest : Assoc.Keyed rest := hkeyed.sublist (List.sublist_cons_self _ _)
    simp only [deliverGroups, ih hrest, Assoc.get?]
    by_cases hscope : group.1 = subscription
    · subst hscope
      simp [get?_rest_eq_none hkeyed]
    · simp [hscope, Function.update_of_ne (Ne.symm hscope)]

theorem eventsFor_deliverGroups (record : SubscriptionRecord)
    {groups : Assoc SubscriptionScope (List String)} (hkeyed : groups.Keyed)
    (hnodup : ∀ group ∈ groups, group.2.Nodup) (cursors : SubscriptionScope → Nat) :
    eventsFor record (deliverGroups scope payload deliveries cursors groups).2 =
      if record.clientInstanceId ∈ (groups.get? record.scope).getD [] ∧
          (deliveries record.clientInstanceId).isSome then
        [eventAt scope payload record.scope (cursors record.scope)] else [] := by
  induction groups generalizing cursors with
  | nil => simp [deliverGroups, eventsFor, Assoc.get?]
  | cons group rest ih =>
    have hrest : Assoc.Keyed rest := hkeyed.sublist (List.sublist_cons_self _ _)
    have ih := ih hrest (fun g hg => hnodup g (List.mem_cons_of_mem _ hg))
    obtain ⟨subscription, clients⟩ := group
    simp only [deliverGroups, eventsFor_append, ih, Assoc.get?]
    by_cases hscope : subscription = record.scope
    · subst hscope
      rw [eventsFor_deliverTo (hnodup _ List.mem_cons_self)]
      simp [get?_rest_eq_none hkeyed]
    · rw [eventsFor_deliverTo_other hscope]
      simp [hscope, Function.update_of_ne (Ne.symm hscope)]

end Delivery

section Publish

variable (encodedLength : TaskChanges → Option Nat) (stream : StateStream) (scope : EventScope)
  (payload : EventPayload) (deliveries : String → Option String) (record : SubscriptionRecord)

/-- Whether a publication reaches a subscription. -/
def reaches : Bool :=
  record ∈ stream.subscriptions && eventMatchesSubscription stream.stateRootId scope payload record

theorem mem_matching_iff :
    record ∈ stream.subscriptions.filter
    (eventMatchesSubscription stream.stateRootId scope payload) ↔
      reaches stream scope payload record = true := by
  simp only [reaches, List.mem_filter, Bool.and_eq_true, decide_eq_true_eq]

theorem nodup_groups :
    ∀ group ∈ groupByScope matching, group.2.Nodup := by
  rintro ⟨subscription, clients⟩ hgroup
  have hget := (keyed_groupByScope matching).get?_eq_some_iff.mpr hgroup
  have hnodup := (clients_groupByScope matching subscription).1
  rwa [hget] at hnodup

/-- **What a subscription gets** from a publication: one event, if it is reached and there is a
delivery to its client. -/
theorem eventsFor_publish :
    eventsFor record (publishCommitted encodedLength stream scope payload deliveries).2 =
      if reaches stream scope payload record ∧ (deliveries record.clientInstanceId).isSome then
        [eventAt scope payload record.scope (stream.scopeCursors record.scope)] else [] := by
  refine (eventsFor_deliverGroups record (keyed_groupByScope _) (nodup_groups _) _).trans ?_
  simp only [(clients_groupByScope _ record.scope).2.1, mem_matching_iff]

/-- **How far the cursor of a scope moves**: by one, if the publication reaches anyone there. -/
theorem cursor_publish (subscription : SubscriptionScope) :
    ((∃ client, reaches stream scope payload ⟨client, subscription⟩ = true) →
      (publishCommitted encodedLength stream scope payload deliveries).1.scopeCursors subscription =
        stream.scopeCursors subscription + 1) ∧
    ((∀ client, reaches stream scope payload ⟨client, subscription⟩ = false) →
      (publishCommitted encodedLength stream scope payload deliveries).1.scopeCursors subscription =
        stream.scopeCursors subscription) := by
  have hcursor : (publishCommitted encodedLength stream scope payload deliveries).1.scopeCursors
      subscription = _ := cursor_deliverGroups subscription (keyed_groupByScope _) _
  have hsome := (clients_groupByScope (stream.subscriptions.filter
    (eventMatchesSubscription stream.stateRootId scope payload)) subscription).2.2
  simp only [mem_matching_iff] at hsome
  rw [hcursor]
  constructor
  · intro hreached
    rw [if_pos (hsome.mpr hreached)]
  · intro hnone
    rw [if_neg fun h => ?_]
    · rfl
    · obtain ⟨client, hreached⟩ := hsome.mp h
      rw [hnone client] at hreached
      cases hreached

/-- **An event that is not for one client alone** concerns everyone who is subscribed to a scope, or
no one. -/
theorem matches_congr {stateRootId : String} {scope : EventScope} {subscription : SubscriptionScope}
    (h : (∀ root client, scope ≠ .client root client) ∨ ofTaskOnly subscription = true)
    (payload : EventPayload) (client client' : String) :
    eventMatchesSubscription stateRootId scope payload ⟨client, subscription⟩ =
      eventMatchesSubscription stateRootId scope payload ⟨client', subscription⟩ := by
  unfold eventMatchesSubscription
  split
  · rfl
  · cases scope with
    | stateRoot root => rfl
    | task root taskId => rfl
    | client root one =>
      have htask := h.resolve_left fun hnot => hnot root one rfl
      simp only [scopeMatches, htask, Bool.not_true, Bool.and_false, Bool.false_and]

end Publish

end StateStream

end OpenAide

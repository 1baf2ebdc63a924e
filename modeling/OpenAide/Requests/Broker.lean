import OpenAide.Library.Keyed
import OpenAide.Library.Maps
import OpenAide.Protocol.Json

/-!
# The broker of server requests

`server_requests/{broker,records,types,lifecycle}.rs` and `Delivery` of `client_lifecycle.rs`: the
App Server asks its clients for permissions, answers, secrets and shell actions.  The broker keeps a
record per request (whom it may be answered by, and whether it still waits) and the clients that are
there to answer.

Two facts of the clients' registry are kept in its type (`ResponderRegistry`): one entry a client,
filed under the client its delivery names.  A hash map lists its entries in an order nothing is
known of, which is a parameter (`Library.Listing`).  Titles, clocks and the typed copies of the
parameters in a snapshot play no part here and are left out, apart from the title.

- `sent_open`: what `open` sends, as the beginning of the merged list up to its first repetition;
- `open_delivers_iff`: **every eligible client is sent the request exactly once, unless the caller's
  list repeats a client before somebody else's first turn** (`repeated_client_drops_others`).
-/

namespace OpenAide.Requests

open Library

/-! ## Requests, clients and scopes -/

/-- `RequestCapability` (`client_lifecycle.rs:105`). -/
inductive RequestCapability where
  | permission | question
  deriving DecidableEq

/-- `Delivery` (`client_lifecycle.rs:98`): a client and the connection it is reached by. -/
structure Delivery where
  clientInstanceId : String
  connectionId : String
  requestCapabilities : List RequestCapability := []
  deriving DecidableEq

def PERMISSION_REQUEST : String := "permission/request"
def QUESTION_REQUEST : String := "question/request"
/-- `Delivery::supports_method` (`client_lifecycle.rs:124`). -/
def Delivery.supportsMethod (delivery : Delivery) (method : String) : Bool :=
  if method = PERMISSION_REQUEST then delivery.requestCapabilities.contains .permission
  else if method = QUESTION_REQUEST then delivery.requestCapabilities.contains .question
  else true

/-- `PendingRequestScope`. -/
inductive PendingRequestScope where
  | client (clientInstanceId : String)
  | task (taskId : String)
  deriving DecidableEq

/-- `PendingRequestKind`. -/
inductive PendingRequestKind where
  | permission | question | secret | shellCapability
  deriving DecidableEq

/-- `ResponderScope` (`types.rs:94`): what a client may answer for. -/
inductive ResponderScope where
  | client (clientInstanceId : String)
  | task (taskId : String)
  deriving DecidableEq

/-- `ServerRequestDraft` (`types.rs:9`). -/
structure ServerRequestDraft where
  scope : PendingRequestScope
  method : String
  title : String
  params : Json

/-- `PendingRequestSnapshot`. -/
structure PendingRequestSnapshot where
  requestId : String
  scope : PendingRequestScope
  kind : PendingRequestKind
  title : String
  deriving DecidableEq

/-- `ServerRequestEnvelope`. -/
structure ServerRequestEnvelope where
  requestId : String
  scope : PendingRequestScope
  method : String
  params : Json

/-- `ServerRequestDelivery` (`types.rs:17`). -/
structure ServerRequestDelivery where
  delivery : Delivery
  envelope : ServerRequestEnvelope

/-- `RequestUnavailableReason` (`types.rs:37`); `open` has no use for `CapabilityUnavailable`. -/
inductive RequestUnavailableReason where
  | noEligibleResponder | capabilityUnavailable | unsupportedMethod
  deriving DecidableEq

/-- `OpenRequestOutcome` (`types.rs:26`). -/
inductive OpenRequestOutcome where
  | opened (snapshot : PendingRequestSnapshot) (deliveries : List ServerRequestDelivery)
  | unavailable (reason : RequestUnavailableReason)

/-! ## Records -/

/-- `ResponderState` (`records.rs:40`). -/
inductive ResponderState where
  | eligible | delivered | stale
  deriving DecidableEq

/-- `RequestStatus` (`records.rs:47`). -/
inductive RequestStatus where
  | pending | resolved | interrupted
  deriving DecidableEq

/-- `PendingRecord` (`records.rs:11`). -/
structure PendingRecord where
  snapshot : PendingRequestSnapshot
  method : String
  params : Json
  responders : Assoc String ResponderState
  status : RequestStatus

namespace PendingRecord

/-- `mark_responder_eligible` and `mark_responder_delivered` (`records.rs:53-71`). -/
def mark (state : ResponderState) (record : PendingRecord) (client : String) : PendingRecord :=
  { record with responders := record.responders.insert client state }

/-- `PendingRecord::new` (`records.rs:20`). -/
def new (snapshot : PendingRequestSnapshot) (method : String) (params : Json)
    (clients : List String) : PendingRecord :=
  clients.foldl (mark .eligible) ⟨snapshot, method, params, [], .pending⟩

/-- `can_deliver_to` (`records.rs:84`). -/
def canDeliverTo (record : PendingRecord) (client : String) : Bool :=
  record.responders.get? client ≠ some .delivered

theorem get?_foldl_mark (state : ResponderState) (clients : List String) (record : PendingRecord)
    (client : String) :
    (clients.foldl (mark state) record).responders.get? client =
      if client ∈ clients then some state else record.responders.get? client := by
  induction clients generalizing record with
  | nil => rfl
  | cons first rest ih =>
    rw [List.foldl_cons, ih]
    by_cases hrest : client ∈ rest
    · rw [if_pos hrest, if_pos (List.mem_cons_of_mem _ hrest)]
    · rw [if_neg hrest, mark, Assoc.get?_insert]
      by_cases hfirst : first = client
      · rw [if_pos hfirst, if_pos (by simp [hfirst])]
      · rw [if_neg hfirst, if_neg (by simp [hrest, Ne.symm hfirst])]

end PendingRecord

/-- `record_matches_responder` (`records.rs:91`): whether a client with these scopes may answer. -/
def matchesResponder (scope : PendingRequestScope) (method : String) (client : String)
    (scopes : List ResponderScope) : Bool :=
  match scope with
  | .client target => target = client && scopes.contains (.client target)
  | .task taskId =>
    if method = PERMISSION_REQUEST ∨ method = QUESTION_REQUEST then scopes.contains (.client client)
    else scopes.contains (.task taskId)

/-! ## The clients that are there -/

/-- `AvailableResponder` (`broker.rs:34`). -/
structure AvailableResponder where
  delivery : Delivery
  scopes : List ResponderScope

/-- `available_responders` (`broker.rs:30`): every client is filed once, under its own name. -/
structure ResponderRegistry where
  entries : Assoc String AvailableResponder
  keyed : entries.Keyed
  owned : ∀ entry ∈ entries, entry.2.delivery.clientInstanceId = entry.1

namespace ResponderRegistry

def empty : ResponderRegistry := ⟨[], List.nodup_nil, by simp⟩

def get? (registry : ResponderRegistry) (client : String) : Option AvailableResponder :=
  registry.entries.get? client

/-- File a client under the name its delivery gives. -/
def insert (registry : ResponderRegistry) (responder : AvailableResponder) : ResponderRegistry where
  entries := registry.entries.insert responder.delivery.clientInstanceId responder
  keyed := Assoc.keyed_insert registry.keyed _ _
  owned := by
    rintro ⟨client, value⟩ hentry
    rcases (Assoc.mem_insert registry.keyed).mp hentry with ⟨rfl, rfl⟩ | ⟨-, hentry⟩
    · rfl
    · exact registry.owned _ hentry

@[simp] theorem get?_insert (registry : ResponderRegistry) (responder : AvailableResponder)
    (client : String) :
    (registry.insert responder).get? client =
      if responder.delivery.clientInstanceId = client then some responder
      else registry.get? client :=
  Assoc.get?_insert _ _ _ _

theorem client_of_get? {registry : ResponderRegistry} {client : String}
    {responder : AvailableResponder} (h : registry.get? client = some responder) :
    responder.delivery.clientInstanceId = client :=
  registry.owned _ (Assoc.mem_of_get?_eq_some h)

/-- The registration of a client the caller names for a request (`broker.rs:73-87`): its delivery is
the caller's, and a Task's request makes it answer for the Task. -/
def register (scope : PendingRequestScope) (registry : ResponderRegistry) (delivery : Delivery) :
    ResponderRegistry :=
  let scopes := ((registry.get? delivery.clientInstanceId).map (·.scopes)).getD
    [.client delivery.clientInstanceId]
  registry.insert ⟨delivery,
    match scope with
    | .task taskId => if .task taskId ∈ scopes then scopes else scopes ++ [.task taskId]
    | .client _ => scopes⟩

theorem get?_foldl_register (scope : PendingRequestScope) (deliveries : List Delivery)
    (registry : ResponderRegistry) {client : String}
    (h : client ∉ deliveries.map (·.clientInstanceId)) :
    (deliveries.foldl (register scope) registry).get? client = registry.get? client := by
  induction deliveries generalizing registry with
  | nil => rfl
  | cons delivery rest ih =>
    rw [List.map_cons, List.mem_cons, not_or] at h
    rw [List.foldl_cons, ih _ h.2]
    simp [register, Ne.symm h.1]

end ResponderRegistry

/-! ## Opening a request -/

/-- `ServerRequestBroker` (`broker.rs:27`). -/
structure ServerRequestBroker where
  nextRequestId : Nat := 1
  records : Assoc String PendingRecord := []
  availableResponders : ResponderRegistry := .empty

/-- `classify_request_method` (`broker.rs:312`). -/
def classifyRequestMethod (method : String) : Option PendingRequestKind :=
  if method.startsWith "permission/" then some .permission
  else if method.startsWith "question/" then some .question
  else if method.startsWith "secret/" then some .secret
  else if method.startsWith "shell/" then some .shellCapability
  else none

/-- `filter_eligible_deliveries` (`broker.rs:343`). -/
def filterEligibleDeliveries (scope : PendingRequestScope) (method : String)
    (deliveries : List Delivery) : List Delivery :=
  let deliveries : List Delivery := match scope with
    | .client client => deliveries.filter (·.clientInstanceId = client)
    | .task _ => deliveries
  deliveries.filter (·.supportsMethod method)

namespace ServerRequestBroker

/-- The registered clients a request goes to besides the listed ones (`broker.rs:89-105`). -/
def availableDeliveries (listing : Listing) (draft : ServerRequestDraft) (listed : List Delivery)
    (registry : ResponderRegistry) : List Delivery :=
  ((listing.list (registry.entries.map Prod.snd)).filter fun responder =>
    responder.delivery.supportsMethod draft.method &&
      matchesResponder draft.scope draft.method responder.delivery.clientInstanceId
        responder.scopes &&
      !(listed.any (·.clientInstanceId = responder.delivery.clientInstanceId))).map (·.delivery)

/-- `mark_and_build_deliveries` (`broker.rs:232`).  The `scan` over the seen clients ends the
iteration at the first client seen before. -/
def markAndBuildDeliveries (requestId : String) (deliveries : List Delivery)
    (b : ServerRequestBroker) : List ServerRequestDelivery × ServerRequestBroker :=
  match b.records.get? requestId with
  | none => ([], b)
  | some record =>
    let chosen := (distinctPrefix (·.clientInstanceId) deliveries).filter
      fun delivery => record.canDeliverTo delivery.clientInstanceId
    let marked := (chosen.map (·.clientInstanceId)).foldl (PendingRecord.mark .delivered) record
    (chosen.map fun delivery =>
        ⟨delivery, requestId, record.snapshot.scope, record.method, record.params⟩,
      { b with records := b.records.insert requestId marked })

/-- `open` (`broker.rs:58`). -/
def openRequest (listing : Listing) (draft : ServerRequestDraft) (deliveries : List Delivery)
    (b : ServerRequestBroker) : OpenRequestOutcome × ServerRequestBroker :=
  match classifyRequestMethod draft.method with
  | none => (.unavailable .unsupportedMethod, b)
  | some kind =>
    let listed := filterEligibleDeliveries draft.scope draft.method deliveries
    let registry := listed.foldl (ResponderRegistry.register draft.scope) b.availableResponders
    let eligible := listed ++ availableDeliveries listing draft listed registry
    if eligible.isEmpty && (draft.scope matches .client _) then
      (.unavailable .noEligibleResponder, { b with availableResponders := registry })
    else
      let requestId := "server-request-" ++ toString b.nextRequestId
      let snapshot : PendingRequestSnapshot := ⟨requestId, draft.scope, kind, draft.title⟩
      let record := PendingRecord.new snapshot draft.method draft.params
        (eligible.map (·.clientInstanceId))
      let (sent, b) := markAndBuildDeliveries requestId eligible
        ⟨b.nextRequestId + 1, b.records.insert requestId record, registry⟩
      (.opened snapshot sent, b)

/-! ## Who is sent the request -/

/-- The clients the caller lists, as far as they count. -/
def listedClients (draft : ServerRequestDraft) (deliveries : List Delivery) : List String :=
  (filterEligibleDeliveries draft.scope draft.method deliveries).map (·.clientInstanceId)

/-- A registered client that supports the method and may answer for the scope. -/
def Available (b : ServerRequestBroker) (draft : ServerRequestDraft) (client : String) : Prop :=
  ∃ responder, b.availableResponders.get? client = some responder ∧
    responder.delivery.supportsMethod draft.method ∧
    matchesResponder draft.scope draft.method client responder.scopes

/-- Whom the request is for. -/
def Eligible (b : ServerRequestBroker) (draft : ServerRequestDraft) (deliveries : List Delivery)
    (client : String) : Prop :=
  client ∈ listedClients draft deliveries ∨ b.Available draft client

/-- How the record of a request has a client down. -/
def responderState (b : ServerRequestBroker) (requestId client : String) : Option ResponderState :=
  (b.records.get? requestId).bind (·.responders.get? client)

/-- The outcome sends the request to every eligible client exactly once and has them, and nobody
else, down as delivered. -/
def DeliversToEligible (b : ServerRequestBroker) (draft : ServerRequestDraft)
    (deliveries : List Delivery) : OpenRequestOutcome × ServerRequestBroker → Prop
  | (.opened snapshot sent, b') =>
    (sent.map (·.delivery.clientInstanceId)).Nodup ∧
    (∀ client, client ∈ sent.map (·.delivery.clientInstanceId) ↔
      b.Eligible draft deliveries client) ∧
    ∀ client, b'.responderState snapshot.requestId client = some .delivered ↔
      b.Eligible draft deliveries client
  | (.unavailable _, _) => ∀ client, ¬b.Eligible draft deliveries client

section Opening

variable (listing : Listing) (draft : ServerRequestDraft) (deliveries : List Delivery)
  (b : ServerRequestBroker)

/-- The registered clients that are added to the caller's list. -/
def addedClients : List String :=
  (availableDeliveries listing draft (filterEligibleDeliveries draft.scope draft.method deliveries)
    ((filterEligibleDeliveries draft.scope draft.method deliveries).foldl
      (ResponderRegistry.register draft.scope) b.availableResponders)).map (·.clientInstanceId)

theorem mem_addedClients (client : String) :
    client ∈ b.addedClients listing draft deliveries ↔
      client ∉ listedClients draft deliveries ∧ b.Available draft client := by
  unfold addedClients availableDeliveries
  set listed := filterEligibleDeliveries draft.scope draft.method deliveries with hlisted
  set registry := listed.foldl (ResponderRegistry.register draft.scope) b.availableResponders
    with hregistry
  have hnamed (c : String) : listed.any (·.clientInstanceId = c) = true ↔
      c ∈ listedClients draft deliveries := by
    simp [listedClients, ← hlisted, List.mem_map]
  have hsame (hnot : client ∉ listedClients draft deliveries) :
      registry.get? client = b.availableResponders.get? client :=
    ResponderRegistry.get?_foldl_register draft.scope listed b.availableResponders hnot
  simp only [List.map_map, List.mem_map, List.mem_filter, Function.comp_apply, Bool.and_eq_true,
    Bool.not_eq_true', (listing.perm _).mem_iff]
  constructor
  · rintro ⟨responder, ⟨⟨⟨key, value⟩, hentry, rfl⟩, ⟨hsupports, hmatches⟩, hnot⟩, rfl⟩
    have hkey : value.delivery.clientInstanceId = key := registry.owned _ hentry
    have hnot' : value.delivery.clientInstanceId ∉ listedClients draft deliveries :=
      fun hmem => absurd ((hnamed _).mpr hmem) (by simp [hnot])
    refine ⟨hnot', value, ?_, hsupports, hmatches⟩
    rw [← hsame hnot', hkey]
    exact registry.keyed.get?_eq_some_iff.mpr hentry
  · rintro ⟨hnot, responder, hget, hsupports, hmatches⟩
    have hclient := ResponderRegistry.client_of_get? hget
    rw [← hsame hnot] at hget
    refine ⟨responder, ⟨⟨_, Assoc.mem_of_get?_eq_some hget, rfl⟩, ⟨hsupports, ?_⟩, ?_⟩, hclient⟩
    · rw [hclient]; exact hmatches
    · rw [hclient]
      exact Bool.eq_false_iff.mpr fun hany => hnot ((hnamed _).mp hany)

theorem nodup_addedClients : (b.addedClients listing draft deliveries).Nodup := by
  unfold addedClients availableDeliveries
  set registry := (filterEligibleDeliveries draft.scope draft.method deliveries).foldl
    (ResponderRegistry.register draft.scope) b.availableResponders
  have hkeys : (registry.entries.map Prod.snd).map (·.delivery.clientInstanceId) =
      registry.entries.map Prod.fst := by
    rw [List.map_map]
    exact List.map_congr_left registry.owned
  have hnodup : ((listing.list (registry.entries.map Prod.snd)).map
      (·.delivery.clientInstanceId)).Nodup := by
    rw [((listing.perm _).map _).nodup_iff, hkeys]
    exact registry.keyed
  rw [List.map_map]
  exact (List.filter_sublist.map _).nodup hnodup

theorem mem_merged (client : String) :
    client ∈ listedClients draft deliveries ++ b.addedClients listing draft deliveries ↔
      b.Eligible draft deliveries client := by
  rw [List.mem_append, mem_addedClients, Eligible]
  tauto

theorem markAndBuildDeliveries_new {requestId : String} {record : PendingRecord}
    (hrecord : b.records.get? requestId = some record)
    (hnew : ∀ client, record.responders.get? client ≠ some .delivered) (eligible : List Delivery) :
    (b.markAndBuildDeliveries requestId eligible).1.map (·.delivery.clientInstanceId) =
        distinctPrefix id (eligible.map (·.clientInstanceId)) ∧
    ∀ client, (b.markAndBuildDeliveries requestId eligible).2.responderState requestId client =
        some .delivered ↔ client ∈ distinctPrefix id (eligible.map (·.clientInstanceId)) := by
  have hchosen : (distinctPrefix Delivery.clientInstanceId eligible).filter
      (fun delivery => record.canDeliverTo delivery.clientInstanceId) =
      distinctPrefix Delivery.clientInstanceId eligible :=
    List.filter_eq_self.mpr fun delivery _ => by simp [PendingRecord.canDeliverTo, hnew]
  simp only [markAndBuildDeliveries, hrecord, hchosen, List.map_map]
  refine ⟨map_distinctPrefix Delivery.clientInstanceId eligible, fun client => ?_⟩
  rw [responderState, Assoc.get?_insert_self, Option.bind_some, PendingRecord.get?_foldl_mark,
    map_distinctPrefix]
  split
  · rename_i hmem
    exact ⟨fun _ => hmem, fun _ => rfl⟩
  · rename_i hmem
    exact ⟨fun h => absurd h (hnew client), fun h => absurd h hmem⟩

/-- **What `open` sends**: the merged list up to its first repetition, and those clients are down as
delivered. -/
theorem sent_open (h : (classifyRequestMethod draft.method).isSome) :
    match b.openRequest listing draft deliveries with
    | (.opened snapshot sent, b') =>
      sent.map (·.delivery.clientInstanceId) = distinctPrefix id
          (listedClients draft deliveries ++ b.addedClients listing draft deliveries) ∧
      ∀ client, b'.responderState snapshot.requestId client = some .delivered ↔
        client ∈ distinctPrefix id
          (listedClients draft deliveries ++ b.addedClients listing draft deliveries)
    | (.unavailable _, _) =>
      listedClients draft deliveries ++ b.addedClients listing draft deliveries = [] := by
  obtain ⟨kind, hkind⟩ := Option.isSome_iff_exists.mp h
  unfold openRequest
  simp only [hkind]
  set listed := filterEligibleDeliveries draft.scope draft.method deliveries with hlisted
  set registry := listed.foldl (ResponderRegistry.register draft.scope) b.availableResponders
    with hregistry
  set eligible := listed ++ availableDeliveries listing draft listed registry with heligible
  have hmerged : listedClients draft deliveries ++ b.addedClients listing draft deliveries =
      eligible.map (·.clientInstanceId) := by
    rw [heligible, List.map_append]
    rfl
  rw [hmerged]
  by_cases hnone : (eligible.isEmpty && (draft.scope matches .client _)) = true
  · rw [if_pos hnone]
    simp only [Bool.and_eq_true, List.isEmpty_iff] at hnone
    simp [hnone.1]
  · rw [if_neg hnone]
    refine markAndBuildDeliveries_new _ (Assoc.get?_insert_self _ _ _) (fun client => ?_) eligible
    rw [PendingRecord.new, PendingRecord.get?_foldl_mark]
    split <;> simp [Assoc.get?]

end Opening

/-- **Whom opening a request reaches.**  Every eligible client is sent the request exactly once, and
exactly those are down as delivered, unless the caller's list repeats a client while somebody else
has not had their first turn: somebody later in the list, or a registered client outside it. -/
theorem open_delivers_iff (listing : Listing) (b : ServerRequestBroker) (draft : ServerRequestDraft)
    (hmethod : (classifyRequestMethod draft.method).isSome) (deliveries : List Delivery) :
    b.DeliversToEligible draft deliveries (b.openRequest listing draft deliveries) ↔
      ∀ before repeated after, listedClients draft deliveries = before ++ repeated :: after →
        before.Nodup → repeated ∈ before →
        ∀ client, b.Eligible draft deliveries client → client ∈ before := by
  have hsent := sent_open listing draft deliveries b hmethod
  have hadded := nodup_addedClients listing draft deliveries b
  have hapart : ∀ client ∈ b.addedClients listing draft deliveries,
      client ∉ listedClients draft deliveries :=
    fun client hclient => ((mem_addedClients listing draft deliveries b client).mp hclient).1
  have hmerged := mem_merged listing draft deliveries b
  generalize b.addedClients listing draft deliveries = added at hsent hadded hapart hmerged
  generalize listedClients draft deliveries = listed at hsent hapart hmerged
  -- what is sent covers the eligible clients exactly under the condition
  have hcover : (∀ client, client ∈ distinctPrefix id (listed ++ added) ↔
        b.Eligible draft deliveries client) ↔
      ∀ before repeated after, listed = before ++ repeated :: after → before.Nodup →
        repeated ∈ before → ∀ client, b.Eligible draft deliveries client → client ∈ before := by
    by_cases hnodup : listed.Nodup
    · have hall : distinctPrefix id (listed ++ added) = listed ++ added := by
        refine distinctPrefix_of_nodup ?_
        rw [List.map_id]
        exact hnodup.append hadded fun client hl ha => hapart client ha hl
      rw [hall]
      refine ⟨fun _ before repeated after heq _ hmem => ?_, fun _ => hmerged⟩
      rw [heq] at hnodup
      exact absurd rfl ((List.nodup_append.mp hnodup).2.2 _ hmem _ List.mem_cons_self)
    · obtain ⟨before, repeated, after, heq, hbefore, hmem⟩ := exists_first_repeat hnodup
      have hcut : distinctPrefix id (listed ++ added) = before := by
        rw [heq, List.append_assoc, List.cons_append]
        exact distinctPrefix_of_repeat (by rwa [List.map_id]) (by simpa using hmem) _
      rw [hcut]
      constructor
      · intro hcovers before' repeated' after' heq' hbefore' hmem' client hclient
        -- the first repetition of a list is unique
        have hcut' : distinctPrefix id (listed ++ added) = before' := by
          rw [heq', List.append_assoc, List.cons_append]
          exact distinctPrefix_of_repeat (by rwa [List.map_id]) (by simpa using hmem') _
        rw [← hcut', hcut]
        exact (hcovers client).mpr hclient
      · intro hcond client
        refine ⟨fun hclient =>
          (hmerged client).mp ?_, hcond before repeated after heq hbefore hmem _⟩
        rw [heq]
        exact List.mem_append_left _ (List.mem_append_left _ hclient)
  rw [← hcover]
  generalize b.openRequest listing draft deliveries = result at hsent
  obtain ⟨⟨snapshot, sent⟩ | reason, b'⟩ := result
  · obtain ⟨hclients, hstates⟩ := hsent
    simp only [DeliversToEligible, hclients, hstates]
    exact ⟨fun h => h.2.1, fun h => ⟨nodup_distinctPrefix _, h, h⟩⟩
  · simp only [DeliversToEligible]
    simp only at hsent
    simp only [hsent, List.not_mem_nil, false_iff] at hmerged ⊢
    exact ⟨fun h client => by simp [distinctPrefix, distinctPrefixFrom, h client], fun _ => hmerged⟩

/-- A request for permission on a Task. -/
def permissionDraft : ServerRequestDraft :=
    ⟨.task "task", PERMISSION_REQUEST, "Run a command", .null⟩

/-- A client that can be asked for permission. -/
def permissionClient (client : String) :
    Delivery := ⟨client, client ++ "-connection", [.permission]⟩

/-- A list of two clients reaches both. -/
theorem distinct_clients_reached :
    ({} : ServerRequestBroker).DeliversToEligible permissionDraft
      [permissionClient "a", permissionClient "b"]
      (({} : ServerRequestBroker).openRequest .inOrder permissionDraft
        [permissionClient "a", permissionClient "b"]) := by
  refine (open_delivers_iff .inOrder {} permissionDraft (by decide +kernel) _).mpr ?_
  intro before repeated after heq hbefore hmem
  have hnodup : (before ++ repeated :: after).Nodup := by
    rw [← heq]
    decide +kernel
  exact absurd rfl ((List.nodup_append.mp hnodup).2.2 _ hmem _ List.mem_cons_self)

/-- The caller lists `a` twice and then `b`: only `a` is sent the request, and `b`, who may answer
it, stays down as eligible. -/
theorem repeated_client_drops_others :
    ({} : ServerRequestBroker).Eligible permissionDraft
      [permissionClient "a", permissionClient "a", permissionClient "b"] "b" ∧
    ¬({} : ServerRequestBroker).DeliversToEligible permissionDraft
      [permissionClient "a", permissionClient "a", permissionClient "b"]
      (({} : ServerRequestBroker).openRequest .inOrder permissionDraft
        [permissionClient "a", permissionClient "a", permissionClient "b"]) := by
  have heligible : ({} : ServerRequestBroker).Eligible permissionDraft
      [permissionClient "a", permissionClient "a", permissionClient "b"] "b" :=
    .inl (by decide +kernel)
  refine ⟨heligible, fun h => ?_⟩
  have hsent := sent_open .inOrder permissionDraft
    [permissionClient "a", permissionClient "a", permissionClient "b"] {} (by decide +kernel)
  have hcut : "b" ∉ distinctPrefix id (listedClients permissionDraft
      [permissionClient "a", permissionClient "a", permissionClient "b"] ++
        ({} : ServerRequestBroker).addedClients .inOrder permissionDraft
          [permissionClient "a", permissionClient "a", permissionClient "b"]) := by
    decide +kernel
  generalize ({} : ServerRequestBroker).openRequest .inOrder permissionDraft
    [permissionClient "a", permissionClient "a", permissionClient "b"] = result at h hsent
  obtain ⟨⟨snapshot, sent⟩ | reason, b'⟩ := result
  · exact hcut (hsent.1 ▸ (h.2.1 "b").mpr heligible)
  · exact h "b" heligible

end ServerRequestBroker

end OpenAide.Requests

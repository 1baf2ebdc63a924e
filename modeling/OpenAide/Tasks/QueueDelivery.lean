import OpenAide.Tasks.MessageQueue

/-!
# Queued messages are delivered once

A queued message leaves the queue in one commit: a client takes it out, or the commit that takes it
out says it in the Chat.  A Send reads the message it selects some time before it
commits; that it still commits the text and attachments of that message is a consequence of ids that
are used once (`item_of_id`).
-/

namespace OpenAide

namespace Turns

open ChatImages

/-! ## Runs of commits -/

/-- The Task after the first `n` commits. -/
def stateAt (imaging : Imaging) (p : TaskProjection) (events : List TurnEvent) (n : Nat) :
    TaskProjection :=
  TurnEvent.run imaging p (events.take n)

variable {imaging : Imaging} {n : Nat}

theorem stateAt_succ {p : TaskProjection} {events : List TurnEvent} {event : TurnEvent}
    (h : events[n]? = some event) :
    stateAt imaging p events (n + 1) = event.step imaging (stateAt imaging p events n) := by
  simp only [stateAt, TurnEvent.run]
  rw [List.take_add_one, h, Option.toList_some, List.foldl_append]
  rfl

theorem stateAt_succ_none {p : TaskProjection} {events : List TurnEvent} (h : events[n]? = none) :
    stateAt imaging p events (n + 1) = stateAt imaging p events n := by
  simp only [stateAt]
  rw [List.take_add_one, h, Option.toList_none, List.append_nil]

/-- The ids in the queue. -/
def queuedIds (p : TaskProjection) : List String :=
  p.task.messageQueue.items.map (·.queuedMessageId)

/-- The message an event puts into the queue. -/
def TurnEvent.appends : TurnEvent → Option QueuedMessageRecord
  | queueAppend _ item _ => some item
  | _ => none

/-- Every queued message gets an id of its own (`uuid`). -/
def FreshIds (events : List TurnEvent) : Prop :=
  ((events.filterMap TurnEvent.appends).map (·.queuedMessageId)).Nodup

/-- Every Send that selects a queued message has its attachments from a read of the Task before. -/
def ReadsFirst (imaging : Imaging) (p : TaskProjection) (events : List TurnEvent) : Prop :=
  ∀ n event message selection, events[n]? = some event → event.sent = some message →
    message.selection = some selection →
    ∃ m ≤ n, selectedAttachments (stateAt imaging p events m).task selection message.promptText =
      .ok message.chatAttachments

/-- What a commit does to the items, up to their order. -/
inductive ItemsStep (imaging : Imaging) (event : TurnEvent) (p p' : TaskProjection) : Prop
  | kept (h : p'.task.messageQueue.items.Perm p.task.messageQueue.items)
  | appended (item : QueuedMessageRecord) (hevent : event.appends = some item)
      (h : p'.task.messageQueue.items = p.task.messageQueue.items ++ [item])
  | taken (index : Nat) (item : QueuedMessageRecord)
      (hitem : p.task.messageQueue.items[index]? = some item)
      (h : p'.task.messageQueue.items = p.task.messageQueue.items.eraseIdx index)
      (hout : event.removes = some item.queuedMessageId ∧
        userRows p'.messages = userRows p.messages ∨
        event.removes = none ∧ userRows p'.messages = userRows p.messages ++
          [storedUser imaging item.text
            ((event.sent.map (·.chatAttachments)).getD item.chatAttachments)] ∧
        ∀ message, event.sent = some message → ∃ selection,
          message.selection = some selection ∧ selection.queuedMessageId = item.queuedMessageId)

theorem items_unpauseIfEmpty (queue : TaskMessageQueueRecord) :
    (unpauseIfEmpty queue).items = queue.items := by
  unfold unpauseIfEmpty
  split <;> rfl

theorem itemsStep (imaging : Imaging) (event : TurnEvent) (p : TaskProjection) :
    ItemsStep imaging event p (event.step imaging p) := by
  cases (commitStep imaging event p).queue with
  | kept h => exact .kept (by rw [h])
  | paused pause hitems h => exact .kept (by rw [h, bumped])
  | appended client item now hevent h =>
    exact .appended item (by rw [hevent]; rfl) (by rw [h, bumped])
  | removed index item hitem hevent h hrows =>
    refine .taken index item hitem ?_ (.inl ⟨hevent, hrows⟩)
    rw [h, bumped, items_unpauseIfEmpty]
  | moved items hitems h => exact .kept (by rw [h]; exact hitems)
  | delivered index item hitem hevent hselected h hrows =>
    refine .taken index item hitem (by rw [h, bumped]) (.inr ⟨hevent, hrows, ?_⟩)
    intro message hsent
    obtain ⟨selection, hselection, hid, -⟩ := hselected message hsent
    exact ⟨selection, hselection, hid⟩

/-! ## Ids over a run -/

section Run

variable {p : TaskProjection} {events : List TurnEvent}

/-- What has been put into the queue before the `n`th commit. -/
def appendedBy (events : List TurnEvent) (n : Nat) : List QueuedMessageRecord :=
  (events.take n).filterMap TurnEvent.appends

variable {event : TurnEvent}

theorem appendedBy_succ (h : events[n]? = some event) :
    appendedBy events (n + 1) = appendedBy events n ++ event.appends.toList := by
  simp only [appendedBy]
  rw [List.take_add_one, h, Option.toList_some, List.filterMap_append]
  cases hitem : event.appends <;> simp [hitem]

theorem FreshIds.appendedBy (hfresh : FreshIds events) (n : Nat) :
    ((Turns.appendedBy events n).map (·.queuedMessageId)).Nodup :=
  hfresh.sublist (((List.take_sublist n events).filterMap _).map _)

variable {item : QueuedMessageRecord}

theorem FreshIds.new (hfresh : FreshIds events) {other : QueuedMessageRecord}
    (hevent : events[n]? = some event) (hitem : event.appends = some item)
    (hother : other ∈ Turns.appendedBy events n) :
    other.queuedMessageId ≠ item.queuedMessageId := by
  have hnodup := hfresh.appendedBy (n + 1)
  rw [appendedBy_succ hevent, hitem, List.map_append] at hnodup
  exact (List.nodup_append.mp hnodup).2.2 _ (List.mem_map_of_mem hother) _
    (List.mem_singleton.mpr rfl)

theorem mem_appendedBy_of_lt {k : Nat} (hk : events[k]? = some event)
    (hitem : event.appends = some item) (hlt : k < n) : item ∈ appendedBy events n := by
  refine List.mem_filterMap.mpr ⟨event, ?_, hitem⟩
  exact List.mem_iff_getElem?.mpr ⟨k, by rw [List.getElem?_take_of_lt hlt, hk]⟩

theorem mem_appendedBy (hcreated : p.task.messageQueue.items = []) (n : Nat) :
    ∀ item ∈ (stateAt imaging p events n).task.messageQueue.items, item ∈ appendedBy events n := by
  induction n with
  | zero =>
    intro item hitem
    rw [show (stateAt imaging p events 0).task.messageQueue.items = [] from hcreated] at hitem
    cases hitem
  | succ n ih =>
    intro item hitem
    cases hevent : events[n]? with
    | none =>
      rw [stateAt_succ_none hevent] at hitem
      have hmem := ih item hitem
      rwa [appendedBy, List.take_add_one, hevent, Option.toList_none, List.append_nil]
    | some event =>
      rw [stateAt_succ hevent] at hitem
      rw [appendedBy_succ hevent]
      cases itemsStep imaging event (stateAt imaging p events n) with
      | kept h => exact List.mem_append_left _ (ih item (h.mem_iff.mp hitem))
      | appended new hnew h =>
        rw [h] at hitem
        obtain hold | heq := List.mem_append.mp hitem
        · exact List.mem_append_left _ (ih item hold)
        · rw [hnew]
          exact List.mem_append_right _ heq
      | taken index gone hgone h hout =>
        rw [h] at hitem
        exact List.mem_append_left _ (ih item (List.mem_of_mem_eraseIdx hitem))

theorem nodup_queuedIds (hcreated : p.task.messageQueue.items = []) (hfresh : FreshIds events)
    (n : Nat) : (queuedIds (stateAt imaging p events n)).Nodup := by
  induction n with
  | zero =>
    rw [queuedIds, show (stateAt imaging p events 0).task.messageQueue.items = [] from hcreated]
    exact List.nodup_nil
  | succ n ih =>
    cases hevent : events[n]? with
    | none =>
      rw [stateAt_succ_none hevent]
      exact ih
    | some event =>
      rw [stateAt_succ hevent]
      cases itemsStep imaging event (stateAt imaging p events n) with
      | kept h => exact (h.map _).nodup_iff.mpr ih
      | appended new hnew h =>
        rw [queuedIds, h, List.map_append]
        refine List.nodup_append.mpr ⟨ih, List.nodup_singleton _, ?_⟩
        intro id hid last hlast
        obtain ⟨item, hitem, rfl⟩ := List.mem_map.mp hid
        rw [List.mem_singleton.mp hlast]
        exact hfresh.new hevent hnew (mem_appendedBy hcreated n item hitem)
      | taken index gone hgone h hout =>
        rw [queuedIds, h]
        exact ih.sublist ((List.eraseIdx_sublist _ _).map _)

/-- **An id stands for one message.** -/
theorem item_of_id (hcreated : p.task.messageQueue.items = []) (hfresh : FreshIds events)
    {k m : Nat} {other : QueuedMessageRecord} (hk : events[k]? = some event)
    (hitem : event.appends = some item) (hlt : k < n) (hle : m ≤ n)
    (hother : other ∈ (stateAt imaging p events m).task.messageQueue.items)
    (hid : other.queuedMessageId = item.queuedMessageId) : other = item := by
  have hmem : other ∈ appendedBy events n := by
    refine List.Sublist.mem (mem_appendedBy hcreated m other hother) ?_
    exact (List.take_sublist_take_left hle).filterMap _
  exact List.inj_on_of_nodup_map (hfresh.appendedBy n) hmem (mem_appendedBy_of_lt hk hitem hlt) hid

/-! ## One step -/

/-- A message is in the queue and the commit takes it out. -/
def Leaves (imaging : Imaging) (p : TaskProjection) (events : List TurnEvent) (id : String)
    (n : Nat) : Prop :=
  id ∈ queuedIds (stateAt imaging p events n) ∧ id ∉ queuedIds (stateAt imaging p events (n + 1))

/-- How the `n`th commit takes a message out: a client asks for it, and nothing is said in the Chat,
or nobody asks for it and the message is said, with its text and attachments as they are stored. -/
def Accounted (imaging : Imaging) (p : TaskProjection) (events : List TurnEvent)
    (item : QueuedMessageRecord) (n : Nat) : Prop :=
  ∃ event, events[n]? = some event ∧
    (event.removes = some item.queuedMessageId ∧
        userRows (stateAt imaging p events (n + 1)).messages =
          userRows (stateAt imaging p events n).messages ∨
      event.removes = none ∧
        userRows (stateAt imaging p events (n + 1)).messages =
          userRows (stateAt imaging p events n).messages ++
            [storedUser imaging item.text item.chatAttachments])

theorem selectedAttachments_eq_ok {task : TaskRecord} {selection : TaskQueueSendSelection}
    {promptText : String} {attachments : List Attachment}
    (h : selectedAttachments task selection promptText = .ok attachments) :
    ∃ queued ∈ task.messageQueue.items, queued.queuedMessageId = selection.queuedMessageId ∧
      queued.chatAttachments = attachments := by
  simp only [selectedAttachments, Library.bind_eq_ok] at h
  obtain ⟨-, -, h⟩ := h
  split at h
  · cases h
  · rename_i queued hfound
    obtain ⟨-, -, h⟩ := Library.bind_eq_ok.mp h
    cases h
    exact ⟨queued, List.mem_of_find?_eq_some hfound, by simpa using List.find?_some hfound, rfl⟩

theorem not_mem_step (hfresh : FreshIds events) {k : Nat} {source : TurnEvent}
    (hk : events[k]? = some source) (hitem : source.appends = some item) (hlt : k < n)
    (habsent : item.queuedMessageId ∉ queuedIds (stateAt imaging p events n)) :
    item.queuedMessageId ∉ queuedIds (stateAt imaging p events (n + 1)) := by
  cases hevent : events[n]? with
  | none => rwa [stateAt_succ_none hevent]
  | some event =>
    rw [stateAt_succ hevent]
    intro hmem
    cases itemsStep imaging event (stateAt imaging p events n) with
    | kept h => exact habsent ((h.map _).mem_iff.mp hmem)
    | appended new hnew h =>
      rw [queuedIds, h, List.map_append] at hmem
      obtain hold | hsame := List.mem_append.mp hmem
      · exact habsent hold
      · exact hfresh.new hevent hnew (mem_appendedBy_of_lt hk hitem hlt)
          (List.mem_singleton.mp hsame)
    | taken index gone hgone h hout =>
      rw [queuedIds, h] at hmem
      exact habsent (((List.eraseIdx_sublist _ _).map _).mem hmem)

theorem accounted_of_leaves (hcreated : p.task.messageQueue.items = []) (hfresh : FreshIds events)
    (hreads : ReadsFirst imaging p events) {k : Nat} {source : TurnEvent}
    (hk : events[k]? = some source) (hitem : source.appends = some item) (hlt : k < n)
    (hleaves : Leaves imaging p events item.queuedMessageId n) :
    Accounted imaging p events item n := by
  obtain ⟨hpresent, habsent⟩ := hleaves
  cases hevent : events[n]? with
  | none =>
    rw [stateAt_succ_none hevent] at habsent
    exact absurd hpresent habsent
  | some event =>
    refine ⟨event, hevent, ?_⟩
    rw [stateAt_succ hevent] at habsent ⊢
    cases itemsStep imaging event (stateAt imaging p events n) with
    | kept h => exact absurd ((h.map _).mem_iff.mpr hpresent) habsent
    | appended new hnew h =>
      rw [queuedIds, h, List.map_append] at habsent
      exact absurd (List.mem_append_left _ hpresent) habsent
    | taken index gone hgone h hout =>
      have hid : gone.queuedMessageId = item.queuedMessageId := by
        rw [queuedIds, h, ← List.eraseIdx_map] at habsent
        obtain ⟨place, hplace⟩ := List.mem_iff_getElem?.mp hpresent
        by_cases heq : place = index
        · rw [queuedIds, heq, List.getElem?_map, hgone] at hplace
          exact Option.some.inj hplace
        · exact absurd (List.mem_eraseIdx_iff_getElem?.mpr ⟨place, heq, hplace⟩) habsent
      have hsame := item_of_id hcreated hfresh hk hitem hlt (Nat.le_refl n)
        (List.mem_of_getElem? hgone) hid
      subst hsame
      obtain ⟨hremoves, hrows⟩ | ⟨hremoves, hrows, hselected⟩ := hout
      · exact .inl ⟨hremoves, hrows⟩
      · refine .inr ⟨hremoves, ?_⟩
        cases hsent : event.sent with
        | none =>
          rw [hsent] at hrows
          exact hrows
        | some message =>
          obtain ⟨selection, hselection, hselectedId⟩ := hselected message hsent
          obtain ⟨m, hm, hread⟩ := hreads n event message selection hevent hsent hselection
          obtain ⟨queued, hqueued, hqueuedId, hattachments⟩ := selectedAttachments_eq_ok hread
          have hquoted := item_of_id hcreated hfresh hk hitem hlt hm hqueued
            (hqueuedId.trans hselectedId)
          rw [hsent, Option.map_some, Option.getD_some, ← hattachments, hquoted] at hrows
          exact hrows

/-! ## The whole run -/

/-- **A queued message is delivered once and never lost.**  From the commit that accepts it on, a
message is in the queue once, and nothing has taken it out; or it is gone, exactly one commit has
taken it out, and that commit accounts for it. -/
theorem queued_message_delivered_once (imaging : Imaging) (p : TaskProjection)
    (hcreated : p.task.messageQueue.items = []) (events : List TurnEvent) (hfresh : FreshIds events)
    (hreads : ReadsFirst imaging p events) (k : Nat) (client : String) (item : QueuedMessageRecord)
    (now : Nat) (hk : events[k]? = some (.queueAppend client item now))
    (haccepted : item.queuedMessageId ∈ queuedIds (stateAt imaging p events (k + 1))) (n : Nat)
    (hn : k < n) :
    ((queuedIds (stateAt imaging p events n)).count item.queuedMessageId = 1 ∧
        ∀ j, k < j → j < n → ¬Leaves imaging p events item.queuedMessageId j) ∨
      ((queuedIds (stateAt imaging p events n)).count item.queuedMessageId = 0 ∧
        ∃ j, k < j ∧ j < n ∧ Accounted imaging p events item j ∧
          ∀ i, k < i → i < n → (Leaves imaging p events item.queuedMessageId i ↔ i = j)) := by
  have hcount {n : Nat} (h : item.queuedMessageId ∈ queuedIds (stateAt imaging p events n)) :
      (queuedIds (stateAt imaging p events n)).count item.queuedMessageId = 1 :=
    List.count_eq_one_of_mem (nodup_queuedIds hcreated hfresh n) h
  induction n, hn using Nat.le_induction with
  | base =>
    refine .inl ⟨hcount haccepted, fun j hkj hjn => ?_⟩
    omega
  | succ n hkn ih =>
    obtain ⟨hone, hstays⟩ | ⟨hzero, j, hkj, hjn, haccounted, honly⟩ := ih
    · have hpresent : item.queuedMessageId ∈ queuedIds (stateAt imaging p events n) :=
        List.count_pos_iff.mp (by omega)
      by_cases hnext : item.queuedMessageId ∈ queuedIds (stateAt imaging p events (n + 1))
      · refine .inl ⟨hcount hnext, fun j hkj hjn => ?_⟩
        obtain hlt | rfl := Nat.lt_succ_iff_lt_or_eq.mp hjn
        · exact hstays j hkj hlt
        · exact fun hleaves => hleaves.2 hnext
      · have hleaves : Leaves imaging p events item.queuedMessageId n := ⟨hpresent, hnext⟩
        refine .inr ⟨List.count_eq_zero.mpr hnext, n, hkn, Nat.lt_succ_self n, ?_, ?_⟩
        · exact accounted_of_leaves hcreated hfresh hreads hk rfl hkn hleaves
        · intro i hki hin
          obtain hlt | rfl := Nat.lt_succ_iff_lt_or_eq.mp hin
          · exact ⟨fun h => absurd h (hstays i hki hlt), fun h => by omega⟩
          · exact ⟨fun _ => rfl, fun _ => hleaves⟩
    · have habsent := List.count_eq_zero.mp hzero
      have hnext := not_mem_step hfresh hk rfl hkn habsent
      refine .inr ⟨List.count_eq_zero.mpr hnext, j, hkj, by omega, haccounted, fun i hki hin => ?_⟩
      obtain hlt | rfl := Nat.lt_succ_iff_lt_or_eq.mp hin
      · exact honly i hki hlt
      · exact ⟨fun h => absurd h.1 habsent, fun h => by omega⟩

end Run

/-- A queued message with an image. -/
def shown : QueuedMessageRecord where
  queuedMessageId := "a"
  text := "first"
  createdAt := "1"
  chatAttachments := [Example.image "inline"]

/-- Two messages are queued, and the first is steered into the turn under way. -/
def steering : List TurnEvent :=
  [.queueAppend "client" shown 1, queuing "b" "second",
    .steer
      { client := "client", selection := some ⟨"a", 2⟩, promptText := "first"
        chatAttachments := [Example.image "inline"], messageId := "m", now := 2 } "turn" none]

theorem readsFirst_steering : ReadsFirst Example.imaging workingTask steering := by
  intro n event message selection hevent hsent hselection
  match n with
  | 0 | 1 =>
    cases hevent
    cases hsent
  | 2 =>
    cases hevent
    cases hsent
    cases hselection
    exact ⟨2, Nat.le_refl 2, rfl⟩
  | n + 3 => cases hevent

/-- The message has left the queue by the steering commit, which says it with its image stored; the
other one is still there. -/
theorem steered_message_delivered_once :
    queuedIds (stateAt Example.imaging workingTask steering 2) = ["a", "b"] ∧
      queuedIds (stateAt Example.imaging workingTask steering 3) = ["b"] ∧
      userRows (stateAt Example.imaging workingTask steering 3).messages =
        [("first", [Example.image "stored"])] ∧
      ∃ j, 0 < j ∧ j < 3 ∧ Accounted Example.imaging workingTask steering shown j := by
  have haccepted : "a" ∈ queuedIds (stateAt Example.imaging workingTask steering 1) := by
    decide +kernel
  have hgone : queuedIds (stateAt Example.imaging workingTask steering 3) = ["b"] := by
    decide +kernel
  refine ⟨by decide +kernel, hgone, by decide +kernel, ?_⟩
  obtain ⟨hone, -⟩ | ⟨-, j, hkj, hjn, haccounted, -⟩ :=
    queued_message_delivered_once Example.imaging workingTask rfl steering
      (by unfold FreshIds; decide +kernel) readsFirst_steering 0 "client" shown 1 rfl haccepted 3
      (by decide)
  · rw [hgone] at hone
    exact absurd hone (by decide)
  · exact ⟨j, hkj, hjn, haccounted⟩

end Turns

end OpenAide

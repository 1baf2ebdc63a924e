import OpenAide.Storage.ChatImages
import OpenAide.Storage.SubagentWrites

/-!
# Subagent histories and their streams

`storage/subagents/state.rs` keeps the histories of a Task's Subagents open in memory.  A batch
applies its writes there, queues the journal operation that describes each, and appends one frame of
them to the stream of every changed history (`storage/subagents/stream.rs`).  A fresh process
rebuilds a history from its stream: the snapshot of the current generation and the frames behind it.

The stream is modelled by what the files the head names hold.  An append may fail with its frame on
disk or without it, and so may a compaction with its new generation; either way the history is
closed. The catalog does not show in histories and is left out.

* `Linked.write`: the queued operations lead from the stream to the history in memory;
* `stored_of_reachable`: **what is open in memory is what its stream loads**, as long as every write
  is replayable.
-/

namespace OpenAide.Subagents

open Library Projection ChatImages
open StreamOperation (apply describe)

/-! ## Streams -/

/-- `StreamFrame` (`stream.rs:200`): the operations of a batch and the revision behind them. -/
structure StreamFrame where
  revision : Nat
  operations : List StreamOperation

/-- The generation the head of a stream names. -/
structure Generation where
  snapshot : SubagentChat
  frames : List StreamFrame := []

namespace Generation

/-- One frame of the loop of `load`. -/
def replay (chat : SubagentChat) (frame : StreamFrame) : Except RuntimeError SubagentChat := do
  let chat ← frame.operations.foldlM apply chat
  if chat.revision ≠ frame.revision then
    .error (.storage "Subagent stream revision is inconsistent")
  else .ok chat

/-- `load` (`stream.rs:256`). -/
def load (g : Generation) : Except RuntimeError SubagentChat := g.frames.foldlM replay g.snapshot

/-- `append` (`stream.rs:309`): one more frame; `chat` already holds its operations. -/
def append (g : Generation) (chat : SubagentChat) (operations : List StreamOperation) :
    Generation :=
  { g with frames := g.frames ++ [⟨chat.revision, operations⟩] }

theorem load_snapshot (chat : SubagentChat) : load ⟨chat, []⟩ = .ok chat := rfl

theorem load_append {g : Generation} {base chat : SubagentChat} {operations : List StreamOperation}
    (hload : g.load = .ok base)
    (hoperations : operations.foldlM apply base = .ok chat) :
    (g.append chat operations).load = .ok chat := by
  have hlast : replay base ⟨chat.revision, operations⟩ = .ok chat := by
    simp only [replay, hoperations, bind, Except.bind, ne_eq, not_true, if_false]
  rw [load] at hload
  rw [load, append, List.foldlM_append, hload]
  simp only [bind, Except.bind, List.foldlM_cons, List.foldlM_nil, hlast]
  rfl

end Generation

/-! ## Writes -/

/-- `CommittedSubagentChange` (`subagents.rs:98`). -/
inductive CommittedSubagentChange where
  | append (message : ChatMessage)
  | upsert (message : ChatMessage)
  | appendText (messageId text : String)
  | plan (plan : Option AgentPlan)
  deriving DecidableEq

/-- `committed_change` (`subagents.rs:382`). -/
def committedChange (history : SubagentChat) (change : HistoryChange) (messageCount : Nat) :
    Option CommittedSubagentChange :=
  match change with
  | .appendText identity text =>
    (rowOf history.messages identity).map fun stored => .appendText stored.chat.messageId text
  | .upsert identity =>
    (rowOf history.messages identity).map fun stored =>
      if messageCount < history.messages.length then .append stored.chat else .upsert stored.chat
  | .plan => some (.plan history.currentPlan)

/-- The history once the images of a change are stored. -/
def storedHistory (imaging : Imaging) (chat : SubagentChat) : HistoryChange → SubagentChat
  | .appendText .. => chat
  | _ => chat.withMessages (chat.messages.map (storedRow imaging))

/-- What can go wrong with a write outside of its history. -/
inductive HistoryFault where
  | opening (error : RuntimeError)
  | images (error : RuntimeError)

/-- A write to a history, with the time of it and what goes wrong. -/
structure HistoryWrite where
  subagentId : Nat
  operation : HistoryOperation
  now : Nat
  fault : Option HistoryFault := none

/-- Whether the images of a change can be stored; streamed text has none. -/
def storeImages (fault : Option HistoryFault) : HistoryChange → Except RuntimeError Unit
  | .appendText .. => .ok ()
  | _ => match fault with
    | some (.images error) => .error error
    | _ => .ok ()

section Store

variable (imaging : Imaging)

/-- `apply_history_write` (`state.rs:317`): the history after the write, the operation queued for
its journal and the change to publish. -/
def applyHistoryWrite (chat : SubagentChat) (write : HistoryWrite) :
    Except RuntimeError (SubagentChat × StreamOperation × Option CommittedSubagentChange) := do
  let (changed, change) ← chat.applyToHistory write.operation write.now
  storeImages write.fault change
  let changed := storedHistory imaging changed change
  let journaled ← describe changed change
  return (changed.advance, journaled, committedChange changed change chat.messages.length)

variable {imaging} in
theorem applyHistoryWrite_eq_ok {chat after : SubagentChat} {write : HistoryWrite}
    {journaled : StreamOperation} {committed : Option CommittedSubagentChange}
    (h : applyHistoryWrite imaging chat write = .ok (after, journaled, committed)) :
    ∃ changed change, chat.applyToHistory write.operation write.now = .ok (changed, change) ∧
      describe (storedHistory imaging changed change) change = .ok journaled ∧
      after = (storedHistory imaging changed change).advance ∧
      committed = committedChange (storedHistory imaging changed change) change
        chat.messages.length := by
  obtain ⟨⟨changed, change⟩, happlied, h⟩ := bind_eq_ok.mp h
  obtain ⟨_, -, h⟩ := bind_eq_ok.mp h
  obtain ⟨described, hdescribed, h⟩ := bind_eq_ok.mp h
  cases h
  exact ⟨changed, change, happlied, hdescribed, rfl, rfl⟩

/-- The histories open in memory, and what is queued for those that changed. -/
structure Batch where
  histories : Nat → Option SubagentChat
  pending : Nat → List StreamOperation := fun _ => []

/-- The streams of a Task's Subagents. -/
abbrev Streams := Nat → Option Generation

namespace Batch

variable (streams : Streams) (b : Batch)

/-- The history of a write, opened if it is not (`state.rs:408`). -/
def requireHistory (write : HistoryWrite) : Except RuntimeError SubagentChat :=
  match b.histories write.subagentId, write.fault, streams write.subagentId with
  | some chat, _, _ => .ok chat
  | none, some (.opening error), _ => .error error
  | none, _, some generation => generation.load
  | none, _, none => .error (.storage "Subagent history is missing")

/-- A write to a history (`apply_write`, `state.rs:240`).  One that fails takes the earlier changes
of the batch to its history down with it. -/
def write (write : HistoryWrite) : Batch :=
  match b.requireHistory streams write with
  | .error _ => b
  | .ok chat =>
    match applyHistoryWrite imaging chat write with
    | .error _ => {
        histories := Function.update b.histories write.subagentId none
        pending := Function.update b.pending write.subagentId [] }
    | .ok (chat, journaled, _) => {
        histories := Function.update b.histories write.subagentId (some chat)
        pending := Function.update b.pending write.subagentId
          (b.pending write.subagentId ++ [journaled]) }

end Batch

/-! ## Batches -/

/-- How an append ends.  What fails may be on disk all the same. -/
inductive Appending where
  | saved
  | compacted
  | uncompacted (published : Bool)
  | failed (durable : Bool)

/-- Memory and disk between two batches. -/
structure Store where
  histories : Nat → Option SubagentChat := fun _ => none
  streams : Streams := fun _ => none

/-- One history of `persist_histories` (`state.rs:476`): what stays open, and its stream. -/
def persistHistory (stream : Option Generation) (operations : List StreamOperation)
    (appending : Appending) : Option SubagentChat → Option SubagentChat × Option Generation
  | none => (none, stream)
  | some chat =>
    if operations = [] then (some chat, stream)
    else
      let appended := stream.map (·.append chat operations)
      match appending with
      | .saved => (some chat, appended)
      | .compacted => (some chat, some ⟨chat, []⟩)
      | .uncompacted published => (none, if published then some ⟨chat, []⟩ else appended)
      | .failed durable => (none, if durable then appended else stream)

/-- `SubagentState::commit_batch` (`state.rs:70`), for the histories. -/
def commitBatch (s : Store) (writes : List HistoryWrite) (appending : Nat → Appending) : Store :=
  let b := writes.foldl (Batch.write imaging s.streams) { histories := s.histories }
  let persisted := fun subagentId => persistHistory (s.streams subagentId) (b.pending subagentId)
    (appending subagentId) (b.histories subagentId)
  { histories := fun subagentId => (persisted subagentId).1
    streams := fun subagentId => (persisted subagentId).2 }

/-! ## When replay is memory -/

/-- A write that its journal operation describes, to a history whose rows hold no inline image. -/
structure Replayable (chat : SubagentChat) (operation : HistoryOperation) : Prop where
  faithful : Faithful chat operation
  noImages : hasInlineImages imaging chat.messages = false

/-- Every write of a batch is replayable on the history it is applied to. -/
def Batch.Replays (streams : Streams) (b : Batch) : List HistoryWrite → Prop
  | [] => True
  | write :: rest =>
    (∀ chat, b.requireHistory streams write = .ok chat → Replayable imaging chat write.operation) ∧
      Replays streams (b.write imaging streams write) rest

/-- Memory and disk after any batches of replayable writes; a new Subagent has an empty history, and
histories are closed at any time, by a restart all of them. -/
inductive Reachable : Store → Prop where
  | start : Reachable {}
  | spawn {s : Store} (h : Reachable s) {subagentId : Nat} (absent : s.streams subagentId = none)
      (messageMeta : MessageMeta) :
      Reachable {
        histories := Function.update s.histories subagentId (some { messageMeta })
        streams := Function.update s.streams subagentId (some ⟨{ messageMeta }, []⟩) }
  | commit {s : Store} (h : Reachable s) {writes : List HistoryWrite}
      (replays : Batch.Replays imaging s.streams { histories := s.histories } writes)
      (appending : Nat → Appending) : Reachable (commitBatch imaging s writes appending)
  | close {s : Store} (h : Reachable s) (closed : Nat → Bool) :
      Reachable { s with histories := fun id => if closed id then none else s.histories id }

end Store

/-! ## Edits whose images move -/

section Images

variable {imaging : Imaging} {rows : List StoredMessage} {chat chat' : SubagentChat}

theorem map_storedRow (h : hasInlineImages imaging rows = false) :
    rows.map (storedRow imaging) = rows := by
  refine (List.map_congr_left fun row hrow => ?_).trans (List.map_id' rows)
  refine storedRow_of_no_image ?_
  simpa using List.any_eq_false.mp h row hrow

theorem map_storedRow_updateFirst (h : hasInlineImages imaging rows = false) (identity : String)
    (row : StoredMessage) :
    (updateFirst identity (fun _ => row) rows).map (storedRow imaging) =
      updateFirst identity (fun _ => storedRow imaging row) rows := by
  induction rows with
  | nil => rfl
  | cons first rest ih =>
    simp only [hasInlineImages, List.any_cons, Bool.or_eq_false_iff] at h ih
    simp only [updateFirst]
    split
    · rw [List.map_cons, map_storedRow h.2]
    · rw [List.map_cons, storedRow_of_no_image h.1, ih h.2]

theorem withMessages_stored (chat : SubagentChat) (rows : List StoredMessage) (at_ : String) :
    ((chat.withMessages rows).setHistoryMeta at_).withMessages (rows.map (storedRow imaging)) =
      (chat.withMessages (rows.map (storedRow imaging))).setHistoryMeta at_ := by
  simp only [SubagentChat.setHistoryMeta, SubagentChat.withMessages, List.length_map,
    List.head?_map, List.getLast?_map, Option.map_map]
  rfl

/-- **An edit stays one when images move**, if the rows before it held none. -/
theorem Edit.stored {change : HistoryChange} (h : Edit chat chat' change)
    (hno : hasInlineImages imaging chat.messages = false) :
    Edit chat (storedHistory imaging chat' change) change := by
  cases h with
  | replaced found same =>
    refine Eq.subst (motive := fun changed => Edit chat changed _)
      (withMessages_stored chat _ _).symm ?_
    rw [map_storedRow_updateFirst hno]
    exact .replaced found same
  | pushed absent =>
    refine Eq.subst (motive := fun changed => Edit chat changed _)
      (withMessages_stored chat _ _).symm ?_
    rw [List.map_append, map_storedRow hno]
    exact .pushed absent
  | text found agent => exact .text found agent
  | plan plan =>
    simp only [storedHistory, map_storedRow hno]
    exact .plan plan

/-- **A replayable write** that is accepted is what its journal operation makes of the history
before it. -/
theorem apply_of_accepted {write : HistoryWrite} {journaled : StreamOperation}
    (hreplayable : Replayable imaging chat write.operation)
    {committed : Option CommittedSubagentChange}
    (h : applyHistoryWrite imaging chat write = .ok (chat', journaled, committed)) :
    journaled.apply chat = .ok chat' := by
  obtain ⟨changed, change, happlied, hdescribe, rfl, -⟩ := applyHistoryWrite_eq_ok h
  have hedit := Edit.stored (edit_of_applied happlied hreplayable.faithful) hreplayable.noImages
  obtain ⟨journaled', hdescribe', hreplays⟩ := hedit.replays
  obtain rfl := Except.ok.inj (hdescribe.symm.trans hdescribe')
  exact hreplays

end Images

/-! ## Runs -/

section Runs

variable {imaging : Imaging} {streams : Streams} {b : Batch} {s : Store}

/-- What is queued leads from the stream to the history in memory. -/
def LinkedAt (stream : Option Generation) (operations : List StreamOperation) :
    Option SubagentChat → Prop
  | none => operations = []
  | some chat => ∃ g base, stream = some g ∧ g.load = .ok base ∧
      operations.foldlM apply base = .ok chat

def Linked (streams : Streams) (b : Batch) : Prop :=
  ∀ subagentId, LinkedAt (streams subagentId) (b.pending subagentId) (b.histories subagentId)

theorem Linked.required (h : Linked streams b) {write : HistoryWrite} {chat : SubagentChat}
    (hrequired : b.requireHistory streams write = .ok chat) :
    LinkedAt (streams write.subagentId) (b.pending write.subagentId) (some chat) := by
  have hat := h write.subagentId
  unfold Batch.requireHistory at hrequired
  cases hopened : b.histories write.subagentId with
  | some opened =>
    rw [hopened] at hrequired hat
    cases hrequired
    exact hat
  | none =>
    rw [hopened] at hrequired hat
    have hidle : b.pending write.subagentId = [] := hat
    rw [hidle]
    split at hrequired
    · cases ‹none = some _›
    · cases hrequired
    · rename_i generation _ hstream _
      exact ⟨generation, chat, hstream, hrequired, rfl⟩
    · cases hrequired

/-- **One write** keeps memory and streams linked. -/
theorem Linked.write (h : Linked streams b) {write : HistoryWrite}
    (hreplayable : ∀ chat, b.requireHistory streams write = .ok chat →
      Replayable imaging chat write.operation) :
    Linked streams (b.write imaging streams write) := by
  unfold Batch.write
  cases hrequired : b.requireHistory streams write with
  | error e => exact h
  | ok chat =>
    intro subagentId
    simp only
    cases hwritten : applyHistoryWrite imaging chat write with
    | error e =>
      -- the history is closed with nothing queued
      by_cases heq : subagentId = write.subagentId
      · subst heq
        simp only [Function.update_self]
        rfl
      · simp only [Function.update_of_ne heq]
        exact h subagentId
    | ok r =>
      obtain ⟨chat', journaled, committed⟩ := r
      by_cases heq : subagentId = write.subagentId
      · subst heq
        obtain ⟨g, base, hstream, hload, hqueued⟩ := h.required hrequired
        have hlast := apply_of_accepted (hreplayable chat hrequired) hwritten
        simp only [Function.update_self]
        refine ⟨g, base, hstream, hload, ?_⟩
        rw [List.foldlM_append, hqueued]
        simp only [bind, Except.bind, List.foldlM_cons, List.foldlM_nil, hlast]
        rfl
      · simp only [Function.update_of_ne heq]
        exact h subagentId

theorem Linked.writes {writes : List HistoryWrite} (h : Linked streams b)
    (hreplays : Batch.Replays imaging streams b writes) :
    Linked streams (writes.foldl (Batch.write imaging streams) b) := by
  induction writes generalizing b with
  | nil => exact h
  | cons write rest ih => exact ih (h.write hreplays.1) hreplays.2

theorem load_persistHistory {stream : Option Generation} {operations : List StreamOperation}
    {history : Option SubagentChat} (h : LinkedAt stream operations history) (appending : Appending)
    {chat : SubagentChat}
    (hopen : (persistHistory stream operations appending history).1 = some chat) :
    ∃ g, (persistHistory stream operations appending history).2 = some g ∧ g.load = .ok chat := by
  cases history with
  | none => cases hopen
  | some opened =>
    obtain ⟨g, base, rfl, hload, hqueued⟩ := h
    unfold persistHistory at hopen ⊢
    simp only at hopen ⊢
    split at hopen
    · rename_i hidle
      cases hopen
      subst hidle
      cases hqueued
      rw [if_pos rfl]
      exact ⟨g, rfl, hload⟩
    · rename_i hchanged
      rw [if_neg hchanged]
      cases appending with
      | saved =>
        cases hopen
        exact ⟨_, rfl, Generation.load_append hload hqueued⟩
      | compacted =>
        cases hopen
        exact ⟨_, rfl, Generation.load_snapshot _⟩
      | uncompacted published => cases hopen
      | failed durable => cases hopen

/-- **What is open in memory is what its stream loads.** -/
theorem stored_of_reachable (h : Reachable imaging s) :
    ∀ subagentId chat, s.histories subagentId = some chat →
      ∃ g, s.streams subagentId = some g ∧ g.load = .ok chat := by
  induction h with
  | start => exact fun _ _ hopen => nomatch hopen
  | @spawn s h subagentId absent messageMeta ih =>
    intro id chat hopen
    by_cases heq : id = subagentId
    · subst heq
      simp only [Function.update_self, Option.some.injEq] at hopen ⊢
      subst hopen
      exact ⟨_, rfl, Generation.load_snapshot _⟩
    · simp only [Function.update_of_ne heq] at hopen ⊢
      exact ih id chat hopen
  | @commit s h writes replays appending ih =>
    intro subagentId chat hopen
    have hstart : Linked s.streams { histories := s.histories } := by
      intro id
      show LinkedAt _ [] (s.histories id)
      cases hid : s.histories id with
      | none => rfl
      | some chat =>
        obtain ⟨g, hstream, hload⟩ := ih id chat hid
        exact ⟨g, chat, hstream, hload, rfl⟩
    exact load_persistHistory (hstart.writes replays subagentId) (appending subagentId) hopen
  | @close s h closed ih =>
    intro subagentId chat hopen
    simp only at hopen
    split at hopen
    · cases hopen
    · exact ih subagentId chat hopen

end Runs

/-- **Replay equals memory, exactly for faithful writes.**  The journal operation described after an
accepted write rebuilds the Chat after it, one revision on, if and only if the write is faithful and
the revision is not the last one.  In every run whose history writes are replayable, with any
failures and restarts, a load returns every history that is open in memory. -/
theorem history_replay_iff (chat : SubagentChat) (operation : HistoryOperation) (now : Nat)
    (chat' : SubagentChat) (change : HistoryChange)
    (happlied : chat.applyToHistory operation now = .ok (chat', change)) (imaging : Imaging)
    (s : Store) (hreachable : Reachable imaging s) :
    ((∃ journaled, describe chat' change = .ok journaled ∧
        journaled.apply chat = .ok { chat' with revision := chat.revision + 1 }) ↔
      Faithful chat operation ∧ chat.revision < 2 ^ 64 - 1) ∧
    ∀ subagentId opened, s.histories subagentId = some opened →
      ∃ g, s.streams subagentId = some g ∧ g.load = .ok opened := by
  refine ⟨⟨?_, ?_⟩, stored_of_reachable hreachable⟩
  · rintro ⟨journaled, hdescribe, happly⟩
    have hfaithful : Faithful chat operation := by
      by_contra hunfaithful
      exact unfaithful_loses happlied hunfaithful hdescribe happly rfl
    obtain ⟨journaled', hdescribe', happly'⟩ := (edit_of_applied happlied hfaithful).replays
    obtain rfl := Except.ok.inj (hdescribe.symm.trans hdescribe')
    have hrevision := congrArg SubagentChat.revision (Except.ok.inj (happly.symm.trans happly'))
    have hsame := (edit_of_applied happlied hfaithful).revision
    simp only [SubagentChat.advance, hsame, saturatingAdd] at hrevision
    exact ⟨hfaithful, by omega⟩
  · rintro ⟨hfaithful, hlast⟩
    have hedit := edit_of_applied happlied hfaithful
    obtain ⟨journaled, hdescribe, happly⟩ := hedit.replays
    refine ⟨journaled, hdescribe, happly.trans ?_⟩
    have hnext : saturatingAdd chat.revision 1 = chat.revision + 1 := by
      unfold saturatingAdd
      omega
    rw [SubagentChat.advance, hedit.revision, hnext]

namespace Example

def plan : AgentPlan := ⟨[⟨"step"⟩]⟩

/-- An Agent message with a given text. -/
def agentText (text : String) : NormalizedMessage := .agentMessage ⟨"m", .agent, [.text text], "1"⟩

/-- A new history. -/
def chat : SubagentChat := { messageMeta := ⟨"t", 0, 0, "", none, none⟩ }

/-- A history that holds the message `m`. -/
def withMessage : SubagentChat := (chat.appendMessage (agentText "a") false 5).1

/-- One Subagent, spawned. -/
def spawned : Store where
  histories := Function.update (fun _ => none) 0 (some chat)
  streams := Function.update (fun _ => none) 0 (some ⟨chat, []⟩)

/-- A message comes in two parts, and then the plan. -/
def writes : List HistoryWrite :=
  [{ subagentId := 0, operation := .appendMessage (agentText "a") false, now := 5 },
    { subagentId := 0, operation := .appendMessagePart (agentText "b"), now := 6 },
    { subagentId := 0, operation := .setPlan plan, now := 7 }]

theorem replays_writes : Batch.Replays ChatImages.Example.plain spawned.streams
    { histories := spawned.histories } writes := by
  refine ⟨?_, ?_, ?_, trivial⟩ <;> rintro _ ⟨⟩
  · exact ⟨.inr rfl, rfl⟩
  · exact ⟨trivial, rfl⟩
  · exact ⟨trivial, rfl⟩

/-- The store with them saved. -/
def written : Store := commitBatch ChatImages.Example.plain spawned writes fun _ => .saved

end Example

open Example in
/-- The second part of a message is described and replayed; what is saved loads with both parts. -/
theorem history_replay_parts :
    (∃ chat' change journaled,
      withMessage.applyToHistory (.appendMessagePart (agentText "b")) 6 = .ok (chat', change) ∧
      describe chat' change = .ok journaled ∧
      journaled.apply withMessage = .ok { chat' with revision := withMessage.revision + 1 }) ∧
    ∃ opened g, written.histories 0 = some opened ∧ written.streams 0 = some g ∧
      g.load = .ok opened ∧ opened.revision = 3 ∧ opened.currentPlan = some plan ∧
      opened.messages.map (·.chat.message) = [agentText "ab"] := by
  have hspawned : Reachable ChatImages.Example.plain spawned := .spawn .start rfl _
  obtain ⟨hiff, hloads⟩ := history_replay_iff withMessage (.appendMessagePart (agentText "b")) 6 _ _
    rfl ChatImages.Example.plain written (.commit hspawned replays_writes fun _ => .saved)
  obtain ⟨journaled, hdescribed, happlied⟩ := hiff.mpr ⟨trivial, by decide +kernel⟩
  obtain ⟨g, hstream, hload⟩ := hloads 0 _ rfl
  exact ⟨⟨_, _, journaled, rfl, hdescribed, happlied⟩, _, g, rfl, hstream, hload, by decide +kernel,
    by decide +kernel, by decide +kernel⟩

open Example in
/-- A message appended without `upsert` onto an identity the history has: memory holds two rows, the
described operation names the older one, and its replay leaves that row alone. -/
theorem append_existing_identity :
    (∃ chat' journaled after,
      withMessage.applyToHistory (.appendMessage (agentText "b") false) 6 =
        .ok (chat', .upsert (agentText "b").identity) ∧
      describe chat' (.upsert (agentText "b").identity) = .ok journaled ∧
      journaled.apply withMessage = .ok after ∧
      chat'.messages.map (·.chat.message) = [agentText "a", agentText "b"] ∧
      after.messages.map (·.chat.message) = [agentText "a"]) := by
  refine ⟨_, _, _, rfl, rfl, rfl, ?_, ?_⟩ <;> decide +kernel

end OpenAide.Subagents

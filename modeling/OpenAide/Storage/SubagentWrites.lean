import OpenAide.Storage.Rows
import OpenAide.Tasks.Mutation

/-!
# Subagent history writes and what the journal says about them

`storage/subagents/writes.rs` changes a Subagent's Chat in memory; the journal gets a
`StreamOperation` (`storage/subagents/stream.rs:52`) that `describe` looks up afterwards, by the
identity of the changed message.  Replaying the journal applies that description to the Chat as it
was before.

The two agree unless the description finds another row than the write changed.

* `Edit`: the changes of one write that its description reproduces, row by row;
* `Edit.replays`: the journaled description of an edit, applied to the Chat before it, is the Chat
  after it;
* `edit_of_applied`: an accepted write is an edit whenever `Faithful` says that the row looked up by
  identity is the row that was written;
* `unfaithful_loses`: otherwise the description rebuilds different rows.
-/

namespace OpenAide

open Library Mutation Projection

/-- `AgentPlan`; its entries are only shown. -/
structure AgentPlan where
  entries : List JsonText
  deriving DecidableEq

/-- `SubagentChat` (`stream.rs:30`). -/
structure SubagentChat where
  revision : Nat := 0
  messages : List StoredMessage := []
  messageMeta : MessageMeta := ⟨"", 0, 0, "", none, none⟩
  currentPlan : Option AgentPlan := none
  deriving DecidableEq

/-- `HistoryChange`: what one history mutation changed. -/
inductive HistoryChange where
  | appendText (identity text : String)
  | upsert (identity : String)
  | plan
  deriving DecidableEq

/-- The operations of `SubagentOperation` that change a history. -/
inductive HistoryOperation where
  | appendMessage (message : NormalizedMessage) (upsert : Bool)
  | appendMessagePart (message : NormalizedMessage)
  | setPlan (plan : AgentPlan)
  | recordPermissionOutcome (toolCallId : String) (outcome : ToolPermissionOutcome)
  deriving DecidableEq

/-! ## Writing in memory -/

/-- The row with another message in it. -/
def StoredMessage.withMessage (stored : StoredMessage) (message : NormalizedMessage) :
    StoredMessage :=
  { stored with chat := { stored.chat with message } }

@[simp] theorem StoredMessage.identity_withMessage (stored : StoredMessage)
    (message : NormalizedMessage) :
    (stored.withMessage message).chat.identity = stored.chat.identity := rfl

/-- The row a list holds under an identity. -/
def rowOf (messages : List StoredMessage) (identity : String) : Option StoredMessage :=
  messages.find? (·.chat.identity = identity)

/-- A text chunk at the end of the parts: into the last text part, or as a new one. -/
def appendTextPart (chunk : String) (parts : List AgentMessagePart) : List AgentMessagePart :=
  match parts.getLast? with
  | some (.text _) => appendToLastPart chunk parts
  | _ => parts ++ [.text chunk]

/-- The chunk appended to an Agent message. -/
def appendChunk (chunk : String) (stored : StoredMessage) : StoredMessage :=
  match stored.chat.message with
  | .agentMessage m =>
    stored.withMessage (.agentMessage { m with parts := appendTextPart chunk m.parts })
  | _ => stored

@[simp] theorem identity_appendChunk (chunk : String) (stored : StoredMessage) :
    (appendChunk chunk stored).chat.identity = stored.chat.identity := by
  unfold appendChunk
  split <;> rfl

namespace SubagentChat

/-- The Chat with other rows, its metadata not yet advanced. -/
def withMessages (chat : SubagentChat) (messages : List StoredMessage) : SubagentChat :=
  { chat with messages }

/-- `set_history_meta` (`stream.rs:164`). -/
def setHistoryMeta (chat : SubagentChat) (localHistoryUpdatedAt : String) : SubagentChat :=
  { chat with
    messageMeta := { chat.messageMeta with
      version := saturatingAdd chat.messageMeta.version 1
      messageCount := chat.messages.length
      localHistoryUpdatedAt
      firstCursor := chat.messages.head?.map (·.chat.cursor)
      lastCursor := chat.messages.getLast?.map (·.chat.cursor) } }

/-- `advance_history_meta` (`stream.rs:152`), `now` being the clock. -/
def advanceHistoryMeta (chat : SubagentChat) (now : Nat) : SubagentChat :=
  let previous := (parseU128 chat.messageMeta.localHistoryUpdatedAt).getD 0
  chat.setHistoryMeta (toString (max now (min (previous + 1) (2 ^ 128 - 1))))

/-- The Chat one revision later. -/
def advance (chat : SubagentChat) : SubagentChat :=
  { chat with revision := saturatingAdd chat.revision 1 }

/-- `push_message` (`writes.rs:253`). -/
def pushMessage (history : SubagentChat) (identity : String) (message : NormalizedMessage)
    (now : Nat) : SubagentChat × HistoryChange :=
  let sequence := match history.messages.getLast? with
    | some stored => saturatingAdd stored.sequence 1
    | none => 1
  let row : StoredMessage := {
    sequence
    chat := {
      cursor := fromSequence sequence
      messageId := identity
      identity
      messageType := message.messageType
      message } }
  ((history.withMessages (history.messages ++ [row])).advanceHistoryMeta now, .upsert identity)

/-- `append_message` (`writes.rs:170`). -/
def appendMessage (history : SubagentChat) (message : NormalizedMessage) (upsert : Bool)
    (now : Nat) : SubagentChat × HistoryChange :=
  let identity := message.identity
  match upsert, rowOf history.messages identity with
  | true, some stored =>
    let row := stored.withMessage (message.preserveCreatedAtFrom stored.chat.message)
    ((history.withMessages (updateFirst identity (fun _ => row) history.messages))
      |>.advanceHistoryMeta now, .upsert identity)
  | _, _ => history.pushMessage identity message now

def chunkMismatch : RuntimeError :=
  .storage "Subagent message chunk does not match its stored message"

/-- What a chunk makes of the message with its identity. -/
def joinChunk (identity : String) (existing incoming : NormalizedMessage) :
    Except RuntimeError (NormalizedMessage × HistoryChange) :=
  match existing, incoming with
  | .agentMessage m, .agentMessage { role := role, parts := [part], .. } =>
    if m.role = role then
      match part with
      | .text chunk =>
        .ok (.agentMessage { m with parts := appendTextPart chunk m.parts },
          .appendText identity chunk)
      | part => .ok (.agentMessage { m with parts := m.parts ++ [part] }, .upsert identity)
    else .error chunkMismatch
  | .user m, .user incoming =>
    .ok (.user { m with
      text := m.text ++ incoming.text
      attachments := m.attachments ++ incoming.attachments }, .upsert identity)
  | _, _ => .error chunkMismatch

/-- `append_message_part` (`writes.rs:191`). -/
def appendMessagePart (history : SubagentChat) (message : NormalizedMessage) (now : Nat) :
    Except RuntimeError (SubagentChat × HistoryChange) :=
  let identity := message.identity
  match rowOf history.messages identity with
  | none => .ok (history.pushMessage identity message now)
  | some stored => do
    let (joined, change) ← joinChunk identity stored.chat.message message
    let row := stored.withMessage joined
    return ((history.withMessages (updateFirst identity (fun _ => row) history.messages))
      |>.advanceHistoryMeta now, change)

/-- The rows with the outcome recorded on the first one that has the Tool call, and that row's
identity. -/
def recordInRows (toolCallId : String) (outcome : ToolPermissionOutcome) :
    List StoredMessage → Option (List StoredMessage × String)
  | [] => none
  | stored :: rest =>
    match recordInRow toolCallId outcome stored with
    | some recorded => some (recorded :: rest, stored.chat.identity)
    | none => (recordInRows toolCallId outcome rest).map fun (rows, identity) =>
        (stored :: rows, identity)

/-- `record_permission_outcome` (`writes.rs:279`). -/
def recordPermissionOutcome (history : SubagentChat) (toolCallId : String)
    (outcome : ToolPermissionOutcome) (now : Nat) :
    Except RuntimeError (SubagentChat × HistoryChange) :=
  match recordInRows toolCallId outcome history.messages with
  | none => .error (.storage "Subagent permission outcome has no matching tool call")
  | some (rows, identity) =>
    .ok ((history.withMessages rows).advanceHistoryMeta now, .upsert identity)

/-- `apply_to_history` (`writes.rs:142`). -/
def applyToHistory (history : SubagentChat) (operation : HistoryOperation) (now : Nat) :
    Except RuntimeError (SubagentChat × HistoryChange) :=
  match operation with
  | .appendMessage message upsert => .ok (history.appendMessage message upsert now)
  | .appendMessagePart message => history.appendMessagePart message now
  | .setPlan plan =>
    .ok ({ history with currentPlan := if plan.entries.isEmpty then none else some plan }, .plan)
  | .recordPermissionOutcome toolCallId outcome =>
    history.recordPermissionOutcome toolCallId outcome now

end SubagentChat

/-! ## The journaled description -/

/-- `StreamOperation` (`stream.rs:52`). -/
inductive StreamOperation where
  | appendText (identity text localHistoryUpdatedAt : String)
  | upsertMessage (message : StoredMessage) (localHistoryUpdatedAt : String)
  | setPlan (plan : Option AgentPlan)
  deriving DecidableEq

namespace StreamOperation

/-- `StreamOperation::describe` (`stream.rs:68`): the change, looked up in the Chat that holds it.
-/
def describe (chat : SubagentChat) : HistoryChange → Except RuntimeError StreamOperation
  | .appendText identity text =>
    .ok (.appendText identity text chat.messageMeta.localHistoryUpdatedAt)
  | .upsert identity =>
    match rowOf chat.messages identity with
    | some stored => .ok (.upsertMessage stored chat.messageMeta.localHistoryUpdatedAt)
    | none => .error (.storage "Subagent message change has no stored message")
  | .plan => .ok (.setPlan chat.currentPlan)

/-- The rows with a message added or replaced. -/
def upsertRow (message : StoredMessage) (messages : List StoredMessage) : List StoredMessage :=
  match rowOf messages message.chat.identity with
  | some _ => updateFirst message.chat.identity (fun _ => message) messages
  | none => messages ++ [message]

/-- `append_text` (`stream.rs:131`). -/
def appendedText (messages : List StoredMessage) (identity text : String) :
    Except RuntimeError (List StoredMessage) :=
  match (rowOf messages identity).map fun stored => stored.chat.message with
  | some (NormalizedMessage.agentMessage _) =>
    .ok (updateFirst identity (appendChunk text) messages)
  | _ => .error (.storage "Subagent text append has no Agent message")

/-- `StreamOperation::apply` (`stream.rs:101`). -/
def apply (chat : SubagentChat) : StreamOperation → Except RuntimeError SubagentChat
  | .appendText identity text localHistoryUpdatedAt => do
    let messages ← appendedText chat.messages identity text
    return ((chat.withMessages messages).setHistoryMeta localHistoryUpdatedAt).advance
  | .upsertMessage message localHistoryUpdatedAt =>
    .ok ((chat.withMessages (upsertRow message chat.messages)).setHistoryMeta
      localHistoryUpdatedAt).advance
  | .setPlan plan => .ok ({ chat with currentPlan := plan }).advance

end StreamOperation

/-! ## Rows by identity -/

section Rows

variable {messages : List StoredMessage} {identity : String} {stored row : StoredMessage}

theorem rowOf_identity (h : rowOf messages identity = some stored) :
    stored.chat.identity = identity := by
  simpa using List.find?_some h

theorem rowOf_eq_none_iff :
    rowOf messages identity = none ↔ identity ∉ messages.map (·.chat.identity) := by
  simp [rowOf]

theorem rowOf_updateFirst (h : rowOf messages identity = some stored)
    (hrow : row.chat.identity = identity) :
    rowOf (updateFirst identity (fun _ => row) messages) identity = some row := by
  induction messages with
  | nil => cases h
  | cons first rest ih =>
    by_cases hfirst : first.chat.identity = identity
    · simp [rowOf, updateFirst, hfirst, hrow]
    · simp only [rowOf, List.find?_cons, hfirst, decide_false] at h
      simpa [rowOf, updateFirst, hfirst] using ih h

theorem updateFirst_rowOf (h : rowOf messages identity = some stored) :
    updateFirst identity (fun _ => stored) messages = messages := by
  induction messages with
  | nil => rfl
  | cons first rest ih =>
    by_cases hfirst : first.chat.identity = identity
    · simp only [rowOf, List.find?_cons, hfirst, decide_true, Option.some.injEq] at h
      subst h
      simp [updateFirst, hfirst]
    · simp only [rowOf, List.find?_cons, hfirst, decide_false] at h
      simp [updateFirst, hfirst, ih h]

theorem length_updateFirst (f : StoredMessage → StoredMessage) :
    (updateFirst identity f messages).length = messages.length := by
  induction messages with
  | nil => rfl
  | cons first rest ih =>
    by_cases hfirst : first.chat.identity = identity
    · simp [updateFirst, hfirst]
    · simp [updateFirst, hfirst, ih]

theorem rowOf_concat (hrow : row.chat.identity = identity) :
    rowOf (messages ++ [row]) identity = some ((rowOf messages identity).getD row) := by
  cases h : rowOf messages identity with
  | none =>
    have hfind : messages.find? (·.chat.identity = identity) = none := h
    simp [rowOf, List.find?_append, hfind, hrow]
  | some found =>
    have hfind : messages.find? (·.chat.identity = identity) = some found := h
    simp [rowOf, List.find?_append, hfind]

end Rows

/-! ## Edits -/

/-- A change of a Chat whose description finds the row that was written. -/
inductive Edit (chat : SubagentChat) : SubagentChat → HistoryChange → Prop where
  | replaced {identity stored row at_} (found : rowOf chat.messages identity = some stored)
      (same : row.chat.identity = identity) :
      Edit chat ((chat.withMessages
        (updateFirst identity (fun _ => row) chat.messages)).setHistoryMeta at_) (.upsert identity)
  | pushed {row at_} (absent : rowOf chat.messages row.chat.identity = none) :
      Edit chat ((chat.withMessages (chat.messages ++ [row])).setHistoryMeta at_)
        (.upsert row.chat.identity)
  | text {identity stored m chunk at_} (found : rowOf chat.messages identity = some stored)
      (agent : stored.chat.message = .agentMessage m) :
      Edit chat ((chat.withMessages
        (updateFirst identity (appendChunk chunk) chat.messages)).setHistoryMeta at_)
        (.appendText identity chunk)
  | plan (plan : Option AgentPlan) : Edit chat { chat with currentPlan := plan } .plan

variable {chat chat' : SubagentChat} {change : HistoryChange}

/-- **Replaying the description of an edit** is making it. -/
theorem Edit.replays (h : Edit chat chat' change) :
    ∃ journaled, StreamOperation.describe chat' change = .ok journaled ∧
      journaled.apply chat = .ok chat'.advance := by
  cases h with
  | replaced found same =>
    rename_i identity stored row at_
    subst same
    refine ⟨.upsertMessage row at_, ?_, ?_⟩
    · simp only [StreamOperation.describe, SubagentChat.setHistoryMeta, SubagentChat.withMessages,
        rowOf_updateFirst found rfl]
    · simp only [StreamOperation.apply, StreamOperation.upsertRow, found]
  | pushed absent =>
    rename_i row at_
    refine ⟨.upsertMessage row at_, ?_, ?_⟩
    · simp only [StreamOperation.describe, SubagentChat.setHistoryMeta, SubagentChat.withMessages,
        rowOf_concat rfl, absent, Option.getD_none]
    · simp only [StreamOperation.apply, StreamOperation.upsertRow, absent]
  | text found agent =>
    rename_i identity stored m chunk at_
    refine ⟨.appendText identity chunk at_, rfl, ?_⟩
    simp only [StreamOperation.apply, StreamOperation.appendedText, found, agent, Option.map_some]
    rfl
  | plan plan => exact ⟨.setPlan plan, rfl, rfl⟩

theorem Edit.revision (h : Edit chat chat' change) : chat'.revision = chat.revision := by
  cases h <;> rfl

/-! ## Which writes are edits -/

/-- The row looked up by identity after a write is the row the write changed: a message appended
without `upsert` has a new identity, and a permission outcome goes to the first row of its identity
or changes nothing. -/
def Faithful (chat : SubagentChat) : HistoryOperation → Prop
  | .appendMessage message upsert => upsert = true ∨ rowOf chat.messages message.identity = none
  | .recordPermissionOutcome toolCallId outcome =>
    ∀ rows identity, SubagentChat.recordInRows toolCallId outcome chat.messages =
      some (rows, identity) →
      ∀ stored, rowOf chat.messages identity = some stored →
        rows = chat.messages ∨
          recordInRow toolCallId outcome stored ≠ none
  | _ => True

variable {identity : String} {rows : List StoredMessage}

section Outcomes

variable {toolCallId : String} {outcome : ToolPermissionOutcome} {stored : StoredMessage}

theorem identity_recordInRow {recorded : StoredMessage}
    (h : recordInRow toolCallId outcome stored = some recorded) :
    recorded.chat.identity = stored.chat.identity := by
  unfold recordInRow at h
  split at h
  · obtain ⟨steps, _, rfl⟩ := Option.map_eq_some_iff.mp h
    rfl
  · cases h

theorem recordInRows_eq_some {messages : List StoredMessage}
    (h : SubagentChat.recordInRows toolCallId outcome messages = some (rows, identity)) :
    ∃ front stored recorded back, messages = front ++ stored :: back ∧
      rows = front ++ recorded :: back ∧ stored.chat.identity = identity ∧
      recordInRow toolCallId outcome stored = some recorded ∧
      ∀ row ∈ front, recordInRow toolCallId outcome row = none := by
  induction messages generalizing rows identity with
  | nil => cases h
  | cons first rest ih =>
    rw [SubagentChat.recordInRows] at h
    cases hfirst : recordInRow toolCallId outcome first with
    | some recorded =>
      simp only [hfirst, Option.some.injEq, Prod.mk.injEq] at h
      obtain ⟨rfl, rfl⟩ := h
      exact ⟨[], first, recorded, rest, rfl, rfl, rfl, hfirst, by simp⟩
    | none =>
      simp only [hfirst] at h
      obtain ⟨⟨rows', identity'⟩, hrest, heq⟩ := Option.map_eq_some_iff.mp h
      obtain ⟨rfl, rfl⟩ := Prod.mk.inj heq
      obtain ⟨front, stored, recorded, back, rfl, rfl, hid, hrec, hfront⟩ := ih hrest
      refine ⟨first :: front, stored, recorded, back, rfl, rfl, hid, hrec, fun row hrow => ?_⟩
      rcases List.mem_cons.mp hrow with rfl | hrow
      · exact hfirst
      · exact hfront row hrow

theorem rowOf_split (front : List StoredMessage) (stored : StoredMessage)
    (back : List StoredMessage) :
    rowOf (front ++ stored :: back) stored.chat.identity =
      some ((rowOf front stored.chat.identity).getD stored) := by
  cases h : rowOf front stored.chat.identity with
  | none =>
    have hfind : front.find? (·.chat.identity = stored.chat.identity) = none := h
    simp [rowOf, List.find?_append, hfind]
  | some found =>
    have hfind : front.find? (·.chat.identity = stored.chat.identity) = some found := h
    simp [rowOf, List.find?_append, hfind]

theorem updateFirst_split {front back : List StoredMessage} {row : StoredMessage}
    (h : rowOf front stored.chat.identity = none) :
    updateFirst stored.chat.identity (fun _ => row) (front ++ stored :: back) =
      front ++ row :: back := by
  have hfind : front.find? (·.chat.identity = stored.chat.identity) = none := h
  rw [updateFirst_append, hfind]
  simp [updateFirst]

theorem edit_of_recorded {at_ : String}
    (h : SubagentChat.recordInRows toolCallId outcome chat.messages = some (rows, identity))
    (hfaithful : ∀ stored, rowOf chat.messages identity = some stored →
      rows = chat.messages ∨ recordInRow toolCallId outcome stored ≠ none) :
    Edit chat ((chat.withMessages rows).setHistoryMeta at_) (.upsert identity) := by
  obtain ⟨front, stored, recorded, back, hsplit, hrows, rfl, hrec, hfront⟩ :=
    recordInRows_eq_some h
  have hrow := rowOf_split front stored back
  rw [← hsplit] at hrow
  rcases hfaithful _ hrow with hsame | hfirst
  · have hedit : Edit chat (SubagentChat.setHistoryMeta _ at_) _ :=
      .replaced hrow (rowOf_identity hrow)
    rwa [updateFirst_rowOf hrow, ← hsame] at hedit
  · -- the looked-up row has the call, so no row stands before it
    have hnone : rowOf front stored.chat.identity = none := by
      cases hf : rowOf front stored.chat.identity with
      | none => rfl
      | some found =>
        rw [hf, Option.getD_some] at hfirst
        exact absurd (hfront found (List.mem_of_find?_eq_some hf)) hfirst
    rw [hnone, Option.getD_none] at hrow
    have hedit : Edit chat (SubagentChat.setHistoryMeta _ at_) _ :=
      .replaced hrow (identity_recordInRow hrec)
    rwa [hsplit, updateFirst_split hnone, ← hrows] at hedit

end Outcomes

theorem edit_of_pushed {message : NormalizedMessage} {now : Nat}
    (h : rowOf chat.messages identity = none) :
    Edit chat (chat.pushMessage identity message now).1
      (chat.pushMessage identity message now).2 :=
  Edit.pushed h

theorem edit_of_joined {stored : StoredMessage} {incoming joined : NormalizedMessage} {at_ : String}
    (found : rowOf chat.messages identity = some stored)
    (h : SubagentChat.joinChunk identity stored.chat.message incoming = .ok (joined, change)) :
    Edit chat ((chat.withMessages (updateFirst identity (fun _ => stored.withMessage joined)
      chat.messages)).setHistoryMeta at_) change := by
  have hreplaced : Edit chat ((chat.withMessages (updateFirst identity
      (fun _ => stored.withMessage joined) chat.messages)).setHistoryMeta at_)
      (.upsert identity) :=
    .replaced found ((stored.identity_withMessage joined).trans (rowOf_identity found))
  unfold SubagentChat.joinChunk at h
  split at h
  · rename_i m _ role part _ hm
    split at h
    · split at h
      · rename_i chunk
        cases h
        have htext : Edit chat (SubagentChat.setHistoryMeta _ at_) (.appendText identity chunk) :=
          .text found hm
        rw [updateFirst_found found] at htext
        simpa only [appendChunk, hm] using htext
      · cases h; exact hreplaced
    · cases h
  · cases h; exact hreplaced
  · cases h

/-- **A faithful write is an edit.** -/
theorem edit_of_applied {operation : HistoryOperation} {now : Nat}
    (h : chat.applyToHistory operation now = .ok (chat', change))
    (hfaithful : Faithful chat operation) : Edit chat chat' change := by
  cases operation with
  | appendMessage message upsert =>
    simp only [SubagentChat.applyToHistory, SubagentChat.appendMessage, Except.ok.injEq] at h
    split at h
    · rename_i stored found
      obtain ⟨rfl, rfl⟩ := Prod.mk.inj h
      exact .replaced found ((stored.identity_withMessage _).trans (rowOf_identity found))
    · rename_i hnot
      have habsent : rowOf chat.messages message.identity = none := by
        rcases hfaithful with rfl | habsent
        · cases hrow : rowOf chat.messages message.identity with
          | none => rfl
          | some stored => exact (hnot stored rfl hrow).elim
        · exact habsent
      obtain ⟨rfl, rfl⟩ : _ = chat' ∧ _ = change := Prod.ext_iff.mp h
      exact edit_of_pushed habsent
  | appendMessagePart message =>
    simp only [SubagentChat.applyToHistory, SubagentChat.appendMessagePart] at h
    cases hrow : rowOf chat.messages message.identity with
    | none =>
      simp only [hrow, Except.ok.injEq] at h
      obtain ⟨rfl, rfl⟩ : _ = chat' ∧ _ = change := Prod.ext_iff.mp h
      exact edit_of_pushed hrow
    | some stored =>
      simp only [hrow] at h
      obtain ⟨⟨joined, change'⟩, hjoin, heq⟩ := bind_eq_ok.mp h
      cases heq
      exact edit_of_joined hrow hjoin
  | setPlan plan =>
    simp only [SubagentChat.applyToHistory, Except.ok.injEq, Prod.mk.injEq] at h
    obtain ⟨rfl, rfl⟩ := h
    exact .plan _
  | recordPermissionOutcome toolCallId outcome =>
    simp only [SubagentChat.applyToHistory, SubagentChat.recordPermissionOutcome] at h
    split at h
    · cases h
    · rename_i rows identity hrows
      cases h
      exact edit_of_recorded hrows (hfaithful rows identity hrows)

/-! ## Writes that are not edits -/

theorem upsertRow_of_replayed {at_ : String} {stored : StoredMessage}
    (found : rowOf rows identity = some stored) {journaled : StreamOperation} {after : SubagentChat}
    (hrows : after.messages = rows)
    (hdescribe : StreamOperation.describe ((chat.withMessages rows).setHistoryMeta at_)
      (.upsert identity) = .ok journaled) (happly : journaled.apply chat = .ok after) :
    StreamOperation.upsertRow stored chat.messages = rows := by
  simp only [StreamOperation.describe, SubagentChat.setHistoryMeta, SubagentChat.withMessages,
    found, Except.ok.injEq] at hdescribe
  subst hdescribe
  simp only [StreamOperation.apply, Except.ok.injEq] at happly
  subst happly
  exact hrows

/-- **An unfaithful write is lost**: no description of it rebuilds the rows it left. -/
theorem unfaithful_loses {operation : HistoryOperation} {now : Nat}
    (h : chat.applyToHistory operation now = .ok (chat', change))
    (hunfaithful : ¬ Faithful chat operation) {journaled : StreamOperation} {after : SubagentChat}
    (hdescribe : StreamOperation.describe chat' change = .ok journaled)
    (happly : journaled.apply chat = .ok after) : after.messages ≠ chat'.messages := by
  intro hsame
  cases operation with
  | appendMessage message upsert =>
    obtain ⟨hupsert, hpresent⟩ := not_or.mp hunfaithful
    obtain rfl : upsert = false := by simpa using hupsert
    obtain ⟨found, hfound⟩ := Option.ne_none_iff_exists'.mp hpresent
    simp only [SubagentChat.applyToHistory, SubagentChat.appendMessage, Except.ok.injEq] at h
    obtain ⟨rfl, rfl⟩ : _ = chat' ∧ _ = change := Prod.ext_iff.mp h
    -- the row found is an older one, so the replay has as many rows as before
    have hrow : ∀ row : StoredMessage, row.chat.identity = message.identity →
        rowOf (chat.messages ++ [row]) message.identity = some found := by
      intro row hrow
      rw [rowOf_concat hrow, hfound, Option.getD_some]
    have hrows := upsertRow_of_replayed (hrow _ rfl) hsame hdescribe happly
    have hlength := congrArg List.length hrows
    rw [StreamOperation.upsertRow, rowOf_identity hfound, hfound] at hlength
    simp [length_updateFirst] at hlength
  | appendMessagePart message => exact hunfaithful trivial
  | setPlan plan => exact hunfaithful trivial
  | recordPermissionOutcome toolCallId outcome =>
    simp only [Faithful] at hunfaithful
    push Not at hunfaithful
    obtain ⟨rows, identity, hrecorded, stored, hstored, hchanged, hnocall⟩ := hunfaithful
    simp only [SubagentChat.applyToHistory, SubagentChat.recordPermissionOutcome, hrecorded,
      Except.ok.injEq, Prod.mk.injEq] at h
    obtain ⟨rfl, rfl⟩ := h
    obtain ⟨front, target, recorded, back, hsplit, rfl, rfl, hrec, -⟩ :=
      recordInRows_eq_some hrecorded
    -- the looked-up row stands before the one with the call and is journaled as it was
    have hfront : rowOf front target.chat.identity = some stored := by
      have hrow := rowOf_split front target back
      rw [← hsplit, hstored, Option.some.injEq] at hrow
      cases hf : rowOf front target.chat.identity with
      | some found => rw [hrow, hf, Option.getD_some]
      | none =>
        rw [hf, Option.getD_none] at hrow
        rw [hrow, hrec] at hnocall
        cases hnocall
    have hfind : front.find? (·.chat.identity = target.chat.identity) = some stored := hfront
    have hafter : rowOf (front ++ recorded :: back) target.chat.identity = some stored := by
      simp [rowOf, List.find?_append, hfind]
    have hrows := upsertRow_of_replayed hafter hsame hdescribe happly
    rw [StreamOperation.upsertRow, rowOf_identity hstored, hstored] at hrows
    simp only [updateFirst_rowOf hstored] at hrows
    exact hchanged hrows.symm

end OpenAide

import OpenAide.Client.ChatReplica
import OpenAide.Storage.SubagentHistories

/-!
# The client's copy of a Subagent history

`stateIngestionSubagentHistory.ts`: a client reads the tail of a Subagent's history and applies one
published revision after another.  The App Server says of a write whether it appended a message or
changed one by counting the messages before and after it, and finds the message by identity
(`subagents.rs:382`); a client leaves a change alone if it is of a message it has not loaded.

* `rewrite_of_applied`: what a write does to the rows when a new message has a new identity;
* `Follows.write`: one published revision keeps the copy a suffix.

A message appended under a used identity is published as the message that had it.
-/

namespace OpenAide

namespace SubagentReplica

open Library Mutation Projection ChatImages ChatProjection Subagents
open TaskReplica (ShownAsStored Suffix appendChatItem appendTextToMessageParts)
open SubagentChat

/-! ## The client -/

inductive SubagentHistoryAvailability where
  | waitingForActivity | available | unavailable
  deriving DecidableEq

/-- `SubagentHistorySnapshot` of one Subagent; the cursors are those of the Chat. -/
structure SubagentHistorySnapshot where
  revision : Nat
  availability : SubagentHistoryAvailability
  chat : ChatSnapshot
  currentPlan : Option AgentPlan
  deriving DecidableEq

/-- A `subagentHistoryChanged` event of the Subagent; the plan may be left out. -/
structure SubagentHistoryChanged where
  revision : Nat
  chat : List TaskChatChange
  currentPlan : Option (Option AgentPlan)

/-- Why a client reads the history again. -/
inductive Resync where
  | missingChatItem | subagentHistoryRevisionGap
  deriving DecidableEq

/-- A change of one item; a message that is not loaded belongs to the pages above, if there are
any. -/
def changeItem (chat : ChatSnapshot) (messageId : String) (f : ChatItemView → ChatItemView) :
    Option ChatSnapshot :=
  match chat.items.findIdx? (·.messageId = messageId) with
  | none => if chat.hasMoreBefore then some chat else none
  | some index => some { chat with items := chat.items.modify index f }

/-- `applyChatChange` (`stateIngestionSubagentHistory.ts:55`). -/
def applyChatChange (chat : ChatSnapshot) : TaskChatChange → Option ChatSnapshot
  | .append item => some (appendChatItem chat item)
  | .replace chat => some chat
  | .upsert item => changeItem chat item.messageId fun _ => item
  | .appendText messageId text =>
    changeItem chat messageId fun item =>
      { item with parts := appendTextToMessageParts item.parts text }

/-- `updateSubagentHistorySnapshot` (`stateIngestionSubagentHistory.ts:18`). -/
def updateSubagentHistorySnapshot (history : SubagentHistorySnapshot)
    (payload : SubagentHistoryChanged) : Except Resync SubagentHistorySnapshot :=
  if payload.revision ≤ history.revision then .ok history
  else if payload.revision ≠ history.revision + 1 then .error .subagentHistoryRevisionGap
  else match payload.chat.foldlM applyChatChange history.chat with
    | none => .error .missingChatItem
    | some chat => .ok {
        revision := payload.revision
        availability := if chat.hasMessages then .available else history.availability
        chat
        currentPlan := payload.currentPlan.getD history.currentPlan }

/-! ## The server -/

/-- `subagent_history_for_client` (`task_snapshot.rs:319`) of a history that can be read. -/
def subagentHistoryForClient (imaging : Imaging) (tailLimit : Nat) (waiting : Bool)
    (history : SubagentChat) : SubagentHistorySnapshot :=
  let start := history.messages.length - tailLimit
  let retained := history.messages.drop start
  { revision := history.revision
    availability :=
      if history.messages.isEmpty && waiting then .waitingForActivity else .available
    chat := {
      items := retained.map (viewRow imaging)
      hasMoreBefore := 0 < start
      hasMessages := !history.messages.isEmpty
      startCursor := retained.head?.map (·.chat.cursor)
      endCursor := retained.getLast?.map (·.chat.cursor) }
    currentPlan := history.currentPlan }

/-- What `publish_subagent_batch` (`commit_publication.rs:58`) sends for one revision. -/
def publishedRevision (imaging : Imaging) (revision : Nat) :
    CommittedSubagentChange → SubagentHistoryChanged
  | .append message => ⟨revision, [.append (view imaging (projectChatItem message))], none⟩
  | .upsert message => ⟨revision, [.upsert (view imaging (projectChatItem message))], none⟩
  | .appendText messageId text => ⟨revision, [.appendText messageId text], none⟩
  | .plan plan => ⟨revision, [], some plan⟩

variable {chat : SubagentChat} {operation : HistoryOperation} {now : Nat}

/-! ## Rows with identities of their own -/

/-- Every message has an identity of its own, which is its message id. -/
structure Identified (rows : List StoredMessage) : Prop where
  nodup : (rows.map (·.chat.identity)).Nodup
  messageId : ∀ row ∈ rows, row.chat.messageId = row.chat.identity

variable {rows : List StoredMessage}

theorem Identified.messageIds (h : Identified rows) : (messageIds rows).Nodup := by
  have hsame : OpenAide.messageIds rows = rows.map (·.chat.identity) :=
    List.map_congr_left h.messageId
  rw [hsame]
  exact h.nodup

variable {f : StoredMessage → StoredMessage}

theorem Identified.map (h : Identified rows) (hf : ∀ row ∈ rows, (f row).SameKeys row) :
    Identified (rows.map f) := by
  constructor
  · have hsame : (rows.map f).map (·.chat.identity) = rows.map (·.chat.identity) := by
      rw [List.map_map]
      exact List.map_congr_left fun row hrow => (hf row hrow).identity
    rw [hsame]
    exact h.nodup
  · intro row hrow
    obtain ⟨old, hold, rfl⟩ := List.mem_map.mp hrow
    rw [(hf old hold).messageId, (hf old hold).identity]
    exact h.messageId old hold

variable {row : StoredMessage}

theorem Identified.concat (h : Identified rows) (habsent : rowOf rows row.chat.identity = none)
    (hrow : row.chat.messageId = row.chat.identity) : Identified (rows ++ [row]) := by
  constructor
  · rw [List.map_append]
    refine List.nodup_append.mpr ⟨h.nodup, List.nodup_singleton _, ?_⟩
    intro identity hidentity last hlast heq
    rw [heq, List.mem_singleton.mp hlast] at hidentity
    exact rowOf_eq_none_iff.mp habsent hidentity
  · intro other hother
    obtain hold | hnew := List.mem_append.mp hother
    · exact h.messageId other hold
    · rw [List.mem_singleton.mp hnew]
      exact hrow

theorem updateFirst_eq_map (h : (rows.map (·.chat.identity)).Nodup) (identity : String)
    (f : StoredMessage → StoredMessage) :
    updateFirst identity f rows =
      rows.map fun row => if row.chat.identity = identity then f row else row := by
  induction rows with
  | nil => rfl
  | cons row rest ih =>
    obtain ⟨hrow, hrest⟩ := List.nodup_cons.mp (by simpa only [List.map_cons] using h)
    by_cases hidentity : row.chat.identity = identity
    · have hothers : (rest.map fun row => if row.chat.identity = identity then f row else row) =
          rest := by
        refine (List.map_congr_left fun other hother => if_neg fun heq => hrow ?_).trans rest.map_id
        exact List.mem_map.mpr ⟨other, hother, heq.trans hidentity.symm⟩
      simp only [updateFirst, if_pos hidentity, List.map_cons, hothers]
    · simp only [updateFirst, if_neg hidentity, List.map_cons, ih hrest]

/-! ## What a write does to the rows -/

/-- The row with the identity, changed. -/
def changeRow (identity : String) (f : StoredMessage → StoredMessage) (row : StoredMessage) :
    StoredMessage :=
  if row.chat.identity = identity then f row else row

variable {identity : String}

theorem sameKeys_changeRow (h : row.chat.identity = identity → (f row).SameKeys row) :
    (changeRow identity f row).SameKeys row := by
  unfold changeRow
  split
  · exact h ‹_›
  · exact .refl row

/-- What a write does to rows with identities of their own. -/
inductive Rewrite (rows : List StoredMessage) : List StoredMessage → HistoryChange → Prop
  | edited {identity : String} {stored row : StoredMessage}
      (found : rowOf rows identity = some stored) (same : row.SameKeys stored) :
      Rewrite rows (rows.map (changeRow identity fun _ => row)) (.upsert identity)
  | pushed {row : StoredMessage} (absent : rowOf rows row.chat.identity = none)
      (own : row.chat.messageId = row.chat.identity) :
      Rewrite rows (rows ++ [row]) (.upsert row.chat.identity)
  | text {identity chunk : String} {stored : StoredMessage} {m : AgentMessage}
      (found : rowOf rows identity = some stored) (agent : stored.chat.message = .agentMessage m) :
      Rewrite rows (rows.map (changeRow identity (appendChunk chunk))) (.appendText identity chunk)
  | plan : Rewrite rows rows .plan

/-- A message that is appended without `upsert` has an identity of its own. -/
def Fresh (chat : SubagentChat) : HistoryOperation → Prop
  | .appendMessage message false => rowOf chat.messages message.identity = none
  | _ => True

variable {change : HistoryChange} {chat' : SubagentChat}

theorem rest_of_applied (h : chat.applyToHistory operation now = .ok (chat', change)) :
    chat'.revision = chat.revision ∧ (change ≠ .plan → chat'.currentPlan = chat.currentPlan) := by
  cases operation with
  | appendMessage message upsert =>
    simp only [applyToHistory, appendMessage, Except.ok.injEq] at h
    split at h <;> cases h <;> exact ⟨rfl, fun _ => rfl⟩
  | appendMessagePart message =>
    simp only [applyToHistory, appendMessagePart] at h
    split at h
    · cases h
      exact ⟨rfl, fun _ => rfl⟩
    · obtain ⟨⟨joined, change'⟩, -, heq⟩ := bind_eq_ok.mp h
      cases heq
      exact ⟨rfl, fun _ => rfl⟩
  | setPlan plan =>
    cases h
    exact ⟨rfl, fun hplan => absurd rfl hplan⟩
  | recordPermissionOutcome toolCallId outcome =>
    simp only [applyToHistory, recordPermissionOutcome] at h
    split at h <;> cases h
    exact ⟨rfl, fun _ => rfl⟩

variable {stored : StoredMessage}

theorem rewrite_replaced (hrows : Identified rows) (found : rowOf rows identity = some stored)
    (same : row.SameKeys stored) :
    Rewrite rows (updateFirst identity (fun _ => row) rows) (.upsert identity) := by
  rw [updateFirst_eq_map hrows.nodup]
  exact .edited found same

theorem rewrite_recorded {rows' : List StoredMessage} (hrows : Identified rows)
    {toolCallId : String} {outcome : ToolPermissionOutcome}
    (h : recordInRows toolCallId outcome rows = some (rows', identity)) :
    Rewrite rows rows' (.upsert identity) := by
  obtain ⟨front, stored, recorded, back, rfl, rfl, rfl, hrecorded, -⟩ := recordInRows_eq_some h
  have hfront : rowOf front stored.chat.identity = none := by
    rw [rowOf_eq_none_iff]
    intro hmem
    have hnodup := hrows.nodup
    rw [List.map_append, List.map_cons] at hnodup
    exact (List.nodup_append.mp hnodup).2.2 _ hmem _ List.mem_cons_self rfl
  have hfound := rowOf_split front stored back
  rw [hfront, Option.getD_none] at hfound
  have hreplaced := rewrite_replaced hrows hfound
    (sameKeys_recordInRow toolCallId outcome stored recorded hrecorded)
  rwa [updateFirst_split hfront] at hreplaced

theorem rewrite_joined (hrows : Identified rows) {incoming joined : NormalizedMessage}
    (found : rowOf rows identity = some stored)
    (h : joinChunk identity stored.chat.message incoming = .ok (joined, change)) :
    Rewrite rows (updateFirst identity (fun _ => stored.withMessage joined) rows) change := by
  have hreplaced := rewrite_replaced hrows found
    (show (stored.withMessage joined).SameKeys stored from ⟨rfl, rfl, rfl⟩)
  unfold joinChunk at h
  split at h
  · rename_i m _ role part _ hm
    split at h
    · split at h
      · rename_i chunk
        cases h
        have htext : Rewrite rows (rows.map (changeRow identity (appendChunk chunk)))
            (.appendText identity chunk) := .text found hm
        have hchunk : appendChunk chunk stored =
            stored.withMessage (.agentMessage
              { m with parts := appendTextPart chunk m.parts }) := by
          simp only [appendChunk, hm]
        rw [← hchunk, ← updateFirst_found found, updateFirst_eq_map hrows.nodup]
        exact htext
      · cases h
        exact hreplaced
    · cases h
  · cases h
    exact hreplaced
  · cases h

/-- **What an accepted write does to the rows**, if a new message has an identity of its own. -/
theorem rewrite_of_applied (hrows : Identified chat.messages) (hfresh : Fresh chat operation)
    (h : chat.applyToHistory operation now = .ok (chat', change)) :
    Rewrite chat.messages chat'.messages change := by
  cases operation with
  | appendMessage message upsert =>
    simp only [applyToHistory, appendMessage, Except.ok.injEq] at h
    cases upsert with
    | false =>
      cases h
      exact .pushed hfresh rfl
    | true =>
      cases found : rowOf chat.messages message.identity with
      | none =>
        rw [found] at h
        cases h
        exact .pushed found rfl
      | some stored =>
        rw [found] at h
        cases h
        exact rewrite_replaced hrows found ⟨rfl, rfl, rfl⟩
  | appendMessagePart message =>
    simp only [applyToHistory, appendMessagePart] at h
    split at h
    · rename_i habsent
      cases h
      exact .pushed habsent rfl
    · rename_i stored found
      obtain ⟨⟨joined, change'⟩, hjoined, heq⟩ := bind_eq_ok.mp h
      cases heq
      exact rewrite_joined hrows found hjoined
  | setPlan plan =>
    cases h
    exact .plan
  | recordPermissionOutcome toolCallId outcome =>
    simp only [applyToHistory, recordPermissionOutcome] at h
    split at h
    · cases h
    · rename_i rows identity hrecorded
      cases h
      exact rewrite_recorded hrows hrecorded

/-! ## What is shown of a write -/

/-- Text at the end of these parts is text at the end of what is shown of them. -/
def EndsShown (imaging : Imaging) (parts : List AgentMessagePart) : Prop :=
  (∃ last, parts.getLast? = some (.text last)) ∨
    ∀ last, (parts.filterMap (projectAgentMessagePart imaging)).getLast? ≠ some (.text last)

/-- The condition on a write: a new message has a new identity, streamed text goes to the end of
what is shown, and rows are shown as they will be once their images are stored. -/
structure Fits (imaging : Imaging) (chat : SubagentChat) (operation : HistoryOperation) : Prop where
  fresh : Fresh chat operation
  text : ∀ chunk incoming stored m, operation = .appendMessagePart (.agentMessage incoming) →
    incoming.parts = [.text chunk] → rowOf chat.messages incoming.id = some stored →
    stored.chat.message = .agentMessage m → EndsShown imaging m.parts
  shown : ∀ row ∈ chat.messages, ShownAsStored imaging (viewRow imaging) row

theorem parts_appendTextPart (imaging : Imaging) {parts : List AgentMessagePart}
    (h : EndsShown imaging parts) (chunk : String) :
    (appendTextPart chunk parts).filterMap (projectAgentMessagePart imaging) =
      appendTextToMessageParts (parts.filterMap (projectAgentMessagePart imaging)) chunk := by
  by_cases htext : ∃ last, parts.getLast? = some (.text last)
  · obtain ⟨last, hlast⟩ := htext
    obtain ⟨front, rfl⟩ := List.getLast?_eq_some_iff.mp hlast
    simp only [appendTextPart, hlast, TaskReplica.appendToLastPart_concat, List.filterMap_append,
      List.filterMap_cons, List.filterMap_nil, projectAgentMessagePart, appendTextToMessageParts,
      List.getLast?_concat, List.dropLast_concat]
  · have hshown := h.resolve_left htext
    have happended : appendTextPart chunk parts = parts ++ [.text chunk] := by
      unfold appendTextPart
      split
      · exact absurd ⟨_, ‹_›⟩ htext
      · rfl
    have hclient : appendTextToMessageParts (parts.filterMap (projectAgentMessagePart imaging))
        chunk = parts.filterMap (projectAgentMessagePart imaging) ++ [.text chunk] := by
      unfold appendTextToMessageParts
      split
      · exact absurd ‹_› (hshown _)
      · rfl
    rw [happended, hclient, List.filterMap_append]
    rfl

theorem viewRow_appendChunk (imaging : Imaging) {m : AgentMessage}
    (hm : stored.chat.message = .agentMessage m) (h : EndsShown imaging m.parts) (chunk : String) :
    viewRow imaging (appendChunk chunk stored) =
      { viewRow imaging stored with
        parts := appendTextToMessageParts (viewRow imaging stored).parts chunk } := by
  simp only [viewRow, view, projectChatItem, appendChunk, hm, StoredMessage.withMessage,
    projectMessage, parts_appendTextPart imaging h chunk]

theorem changeItem_eq_some {chat chat' : ChatSnapshot} {messageId : String}
    {f : ChatItemView → ChatItemView} (hids : (itemIds chat.items).Nodup)
    (h : changeItem chat messageId f = some chat') :
    chat'.items = chat.items.map fun item =>
      if item.messageId = messageId then f item else item := by
  unfold changeItem at h
  split at h
  · rename_i hnone
    have hsame : chat' = chat := by
      split at h <;> cases h
      rfl
    rw [hsame]
    refine ((List.map_congr_left fun item hitem => if_neg ?_).trans (List.map_id _)).symm
    simpa using List.findIdx?_eq_none_iff.mp hnone item hitem
  · rename_i index hindex
    cases h
    exact modify_findIdx? hids hindex f

theorem rowOf_map_storedRow (imaging : Imaging) (rows : List StoredMessage) (identity : String) :
    rowOf (rows.map (storedRow imaging)) identity =
      (rowOf rows identity).map (storedRow imaging) := by
  simp only [rowOf, List.find?_map]
  rfl

theorem rowOf_map_changeRow (hrows : Identified rows) (found : rowOf rows identity = some stored)
    (hf : (f stored).chat.identity = identity) :
    rowOf (rows.map (changeRow identity f)) identity = some (f stored) := by
  have hmap : rows.map (changeRow identity f) = updateFirst identity f rows :=
    (updateFirst_eq_map hrows.nodup identity f).symm
  rw [hmap, updateFirst_found found]
  exact rowOf_updateFirst found hf

theorem mem_of_rowOf (h : rowOf rows identity = some stored) :
    stored ∈ rows := List.mem_of_find?_eq_some h

theorem text_of_applied {chunk : String}
    (h : chat.applyToHistory operation now = .ok (chat', .appendText identity chunk)) :
    ∃ incoming, operation = .appendMessagePart (.agentMessage incoming) ∧
      incoming.parts = [.text chunk] ∧ incoming.id = identity := by
  cases operation with
  | appendMessage message upsert =>
    simp only [applyToHistory, appendMessage, Except.ok.injEq] at h
    split at h <;> cases h
  | appendMessagePart message =>
    simp only [applyToHistory, appendMessagePart] at h
    split at h
    · cases h
    · rename_i stored found
      obtain ⟨⟨joined, change'⟩, hjoined, heq⟩ := bind_eq_ok.mp h
      cases heq
      unfold joinChunk at hjoined
      split at hjoined
      · split at hjoined
        · split at hjoined
          · cases hjoined
            exact ⟨_, rfl, rfl, rfl⟩
          · cases hjoined
        · cases hjoined
      · cases hjoined
      · cases hjoined
  | setPlan plan => cases h
  | recordPermissionOutcome toolCallId outcome =>
    simp only [applyToHistory, recordPermissionOutcome] at h
    split at h <;> cases h

/-! ## Following a history -/

/-- The client's items are what is shown of the history from the `k`th row on, and its plan is the
history's. -/
structure Follows (imaging : Imaging) (k : Nat) (chat : SubagentChat)
    (client : SubagentHistorySnapshot) : Prop where
  rows : Identified chat.messages
  revision : client.revision = chat.revision
  suffix : Suffix (viewRow imaging) k chat.messages client.chat.items
  plan : client.currentPlan = chat.currentPlan

section Write

variable {imaging : Imaging} {k : Nat}

theorem Rewrite.identified {rows' : List StoredMessage} (h : Rewrite rows rows' change)
    (hrows : Identified rows) : Identified rows' := by
  cases h with
  | edited found same =>
    refine hrows.map fun row hrow => sameKeys_changeRow fun hidentity => ?_
    rename_i identity stored changed
    have hstored : row = stored := List.inj_on_of_nodup_map hrows.nodup hrow (mem_of_rowOf found)
      (hidentity.trans (rowOf_identity found).symm)
    rw [hstored]
    exact same
  | pushed absent own => exact hrows.concat absent own
  | text found agent =>
    refine hrows.map fun row hrow => sameKeys_changeRow fun hidentity => ?_
    unfold appendChunk
    split
    · exact ⟨rfl, rfl, rfl⟩
    · exact .refl row
  | plan => exact hrows

theorem identified_storedHistory (h : Identified chat.messages) (change : HistoryChange) :
    Identified (storedHistory imaging chat change).messages := by
  have hstored : Identified (chat.messages.map (storedRow imaging)) :=
    h.map fun row _ => ⟨rfl, rfl, rfl⟩
  cases change with
  | appendText identity text => exact h
  | upsert identity => exact hstored
  | plan => exact hstored

theorem suffix_map {chat : ChatSnapshot} {f : ChatItemView → ChatItemView}
    {g : StoredMessage → StoredMessage} (h : Suffix (viewRow imaging) k rows chat.items)
    (hfg : ∀ row ∈ rows, f (viewRow imaging row) = viewRow imaging (g row)) :
    Suffix (viewRow imaging) k (rows.map g) (chat.items.map f) :=
  h.inPlace (List.forall₂_map_right_iff.mpr (List.forall₂_same.mpr hfg))

theorem suffix_stored {chat : ChatSnapshot}
    (hshown : ∀ row ∈ rows, ShownAsStored imaging (viewRow imaging) row)
    (h : Suffix (viewRow imaging) k rows chat.items) :
    Suffix (viewRow imaging) k (rows.map (storedRow imaging)) chat.items := by
  have hmap := suffix_map (f := id) h fun row hrow => (hshown row hrow).symm
  rwa [List.map_id] at hmap

theorem suffix_edited {chat chat' : ChatSnapshot} (hrows : Identified rows)
    (hshown : ∀ row ∈ rows, ShownAsStored imaging (viewRow imaging) row)
    (found : rowOf rows identity = some stored) (same : row.SameKeys stored)
    (h : Suffix (viewRow imaging) k rows chat.items)
    (hclient : applyChatChange chat (.upsert (viewRow imaging (storedRow imaging row))) =
      some chat') :
    Suffix (viewRow imaging) k
    ((rows.map (changeRow identity fun _ => row)).map (storedRow imaging)) chat'.items := by
  rw [changeItem_eq_some (h.nodup (rowView_self imaging) hrows.messageIds) hclient, List.map_map]
  refine suffix_map h fun other hother => ?_
  have hkey : (viewRow imaging (storedRow imaging row)).messageId = identity := by
    rw [messageId_viewRow]
    show row.chat.messageId = identity
    rw [same.messageId, hrows.messageId stored (mem_of_rowOf found), rowOf_identity found]
  have hother' : (viewRow imaging other).messageId = other.chat.identity :=
    hrows.messageId other hother
  rw [hkey, hother', Function.comp_apply, changeRow]
  split
  · rfl
  · exact (hshown other hother).symm

/-- Streamed text. -/
theorem suffix_text {chat chat' : ChatSnapshot} {chunk : String} {m : AgentMessage}
    (hrows : Identified rows) (found : rowOf rows identity = some stored)
    (hm : stored.chat.message = .agentMessage m) (hends : EndsShown imaging m.parts)
    (h : Suffix (viewRow imaging) k rows chat.items)
    (hclient : applyChatChange chat (.appendText stored.chat.messageId chunk) = some chat') :
    Suffix (viewRow imaging) k (rows.map (changeRow identity (appendChunk chunk))) chat'.items := by
  rw [changeItem_eq_some (h.nodup (rowView_self imaging) hrows.messageIds) hclient]
  refine suffix_map h fun other hother => ?_
  have hkey : stored.chat.messageId = identity :=
    (hrows.messageId stored (mem_of_rowOf found)).trans (rowOf_identity found)
  have hother' : (viewRow imaging other).messageId = other.chat.identity :=
    hrows.messageId other hother
  by_cases hidentity : other.chat.identity = identity
  · have hsame : other = stored := List.inj_on_of_nodup_map hrows.nodup hother (mem_of_rowOf found)
      (hidentity.trans (rowOf_identity found).symm)
    rw [if_pos (hother'.trans (hidentity.trans hkey.symm)), changeRow, if_pos hidentity, hsame]
    exact (viewRow_appendChunk imaging hm hends chunk).symm
  · rw [if_neg fun heq => hidentity (hother'.symm.trans (heq.trans hkey)), changeRow,
      if_neg hidentity]

variable {committed : CommittedSubagentChange}

/-- **What a client makes of the committed change of a write.** -/
theorem suffix_of_rewrite {shown shown' : ChatSnapshot} {revision : Nat}
    (hrows : Identified chat.messages) (hrewrite : Rewrite chat.messages chat'.messages change)
    (hshown : ∀ row ∈ chat.messages, ShownAsStored imaging (viewRow imaging) row)
    (htext : ∀ identity chunk stored m, change = .appendText identity chunk →
      rowOf chat.messages identity = some stored → stored.chat.message = .agentMessage m →
      EndsShown imaging m.parts)
    (hcommitted : committedChange (storedHistory imaging chat' change) change
      chat.messages.length = some committed)
    (hsuffix : Suffix (viewRow imaging) k chat.messages shown.items)
    (hclient : (publishedRevision imaging revision committed).chat.foldlM applyChatChange shown =
      some shown') :
    Suffix (viewRow imaging) k (storedHistory imaging chat' change).messages shown'.items := by
  obtain ⟨_, rows, _, _⟩ := chat
  obtain ⟨_, rows', _, _⟩ := chat'
  dsimp only at hrows hrewrite hshown htext hsuffix hcommitted ⊢
  cases hrewrite with
  | edited found same =>
    rename_i identity stored row
    have hfound : rowOf ((rows.map (changeRow identity fun _ => row)).map (storedRow imaging))
        identity = some (storedRow imaging row) := by
      rw [rowOf_map_storedRow, rowOf_map_changeRow hrows found
        (same.identity.trans (rowOf_identity found))]
      rfl
    simp only [committedChange, storedHistory, withMessages, hfound, Option.map_some,
      List.length_map, Nat.lt_irrefl, if_false, Option.some.injEq] at hcommitted
    subst hcommitted
    have hupsert : applyChatChange shown (.upsert (viewRow imaging (storedRow imaging row))) =
        some shown' := by simpa [publishedRevision, viewRow] using hclient
    exact suffix_edited hrows hshown found same hsuffix hupsert
  | pushed absent own =>
    rename_i row
    have hfound : rowOf ((rows ++ [row]).map (storedRow imaging)) row.chat.identity =
        some (storedRow imaging row) := by
      rw [rowOf_map_storedRow, rowOf_concat rfl, absent]
      rfl
    simp only [committedChange, storedHistory, withMessages, hfound, Option.map_some,
      List.length_map, List.length_append, List.length_singleton, Nat.lt_succ_self, if_true,
      Option.some.injEq] at hcommitted
    subst hcommitted
    cases hclient
    have hstored := suffix_stored hshown hsuffix
    have hconcat := hstored.concat (rfl : viewRow imaging (storedRow imaging row) = _)
    show Suffix (viewRow imaging) k ((rows ++ [row]).map (storedRow imaging)) _
    rw [List.map_append]
    exact hconcat
  | text found agent =>
    rename_i identity chunk stored m
    have hfound : rowOf (rows.map (changeRow identity (appendChunk chunk))) identity =
        some (appendChunk chunk stored) :=
      rowOf_map_changeRow hrows found (by rw [identity_appendChunk, rowOf_identity found])
    simp only [committedChange, storedHistory, hfound, Option.map_some,
      Option.some.injEq] at hcommitted
    subst hcommitted
    have hmessageId : (appendChunk chunk stored).chat.messageId = stored.chat.messageId := by
      simp only [appendChunk, agent]
      rfl
    have happend : applyChatChange shown (.appendText stored.chat.messageId chunk) =
        some shown' := by
      rw [← hmessageId]
      simpa [publishedRevision] using hclient
    exact suffix_text hrows found agent (htext identity chunk stored m rfl found agent) hsuffix
      happend
  | plan =>
    simp only [committedChange, Option.some.injEq] at hcommitted
    subst hcommitted
    cases hclient
    exact suffix_stored hshown hsuffix

theorem plan_of_committed {history : SubagentChat} {messageCount revision : Nat}
    (h : committedChange history change messageCount = some committed) :
    (publishedRevision imaging revision committed).currentPlan =
      if change = .plan then some history.currentPlan else none := by
  cases change with
  | appendText identity text =>
    obtain ⟨stored, -, rfl⟩ := Option.map_eq_some_iff.mp h
    rfl
  | upsert identity =>
    obtain ⟨stored, -, rfl⟩ := Option.map_eq_some_iff.mp h
    split <;> rfl
  | plan =>
    cases h
    rfl

/-- **One published revision.** -/
theorem Follows.write {after : SubagentChat} {client client' : SubagentHistorySnapshot}
    {write : HistoryWrite} {journaled : StreamOperation} (h : Follows imaging k chat client)
    (hfits : Fits imaging chat write.operation)
    (hwrite : applyHistoryWrite imaging chat write = .ok (after, journaled, some committed))
    (hnext : after.revision = chat.revision + 1) (hclient : updateSubagentHistorySnapshot client
      (publishedRevision imaging after.revision committed) = .ok client') :
    Follows imaging k after client' := by
  obtain ⟨changed, change, happlied, -, rfl, hcommitted⟩ := applyHistoryWrite_eq_ok hwrite
  have hrewrite := rewrite_of_applied h.rows hfits.fresh happlied
  have hrevision : (publishedRevision imaging
      (storedHistory imaging changed change).advance.revision
      committed).revision = client.revision + 1 := by
    rw [h.revision, ← hnext]
    cases committed <;> rfl
  simp only [updateSubagentHistorySnapshot, hrevision, Nat.not_succ_le_self, if_false, ne_eq,
    not_true_eq_false] at hclient
  split at hclient
  · cases hclient
  · rename_i shown hshown
    cases hclient
    refine ⟨identified_storedHistory (hrewrite.identified h.rows) change, ?_, ?_, ?_⟩
    · rw [hnext, h.revision]
    · refine suffix_of_rewrite h.rows hrewrite hfits.shown ?_ hcommitted.symm h.suffix hshown
      intro identity chunk stored m hchange found agent
      subst hchange
      obtain ⟨incoming, hoperation, hparts, hid⟩ := text_of_applied happlied
      exact hfits.text chunk incoming stored m hoperation hparts (hid ▸ found) agent
    · have hplan : (storedHistory imaging changed change).currentPlan = changed.currentPlan := by
        cases change <;> rfl
      show (publishedRevision imaging _ committed).currentPlan.getD client.currentPlan =
        (storedHistory imaging changed change).currentPlan
      rw [plan_of_committed hcommitted.symm]
      split
      · rfl
      · rename_i hnotplan
        rw [hplan, (rest_of_applied happlied).2 hnotplan]
        exact h.plan

end Write

/-! ## Whole runs -/

/-- The histories of the App Server: rows with identities of their own, then any writes. -/
inductive Reached (imaging : Imaging) : SubagentChat → Prop
  | opened {chat : SubagentChat} (h : Identified chat.messages) : Reached imaging chat
  | written {chat after : SubagentChat} {write : HistoryWrite} {journaled : StreamOperation}
      {committed : Option CommittedSubagentChange} (before : Reached imaging chat)
      (hfresh : Fresh chat write.operation)
      (hwrite : applyHistoryWrite imaging chat write = .ok (after, journaled, committed)) :
      Reached imaging after

theorem Reached.identified {imaging : Imaging} (h : Reached imaging chat) :
    Identified chat.messages := by
  induction h with
  | opened h => exact h
  | written before hfresh hwrite ih =>
    obtain ⟨changed, change, happlied, -, rfl, -⟩ := applyHistoryWrite_eq_ok hwrite
    exact identified_storedHistory ((rewrite_of_applied ih hfresh happlied).identified ih) change

/-- A client that reads the rows from the `k`th on and applies every published revision. -/
inductive Followed (imaging : Imaging) : Nat → SubagentChat → SubagentHistorySnapshot → Prop
  | baseline {chat : SubagentChat} (hreached : Reached imaging chat) (tailLimit : Nat)
      (waiting : Bool) :
      Followed imaging (chat.messages.length - tailLimit) chat
        (subagentHistoryForClient imaging tailLimit waiting chat)
  | write {k : Nat} {chat after : SubagentChat} {client client' : SubagentHistorySnapshot}
      {write : HistoryWrite} {journaled : StreamOperation} {committed : CommittedSubagentChange}
      (before : Followed imaging k chat client) (hfits : Fits imaging chat write.operation)
      (hwrite : applyHistoryWrite imaging chat write = .ok (after, journaled, some committed))
      (hnext : after.revision = chat.revision + 1)
      (hclient : updateSubagentHistorySnapshot client
        (publishedRevision imaging after.revision committed) = .ok client') :
      Followed imaging k after client'

/-- **The client's copy is a suffix of the history.**  In every state of a run whose writes meet the
condition, the items are what is shown of the server's rows from the first loaded one on, and the
plan is the server's. -/
theorem followed_history_is_suffix (imaging : Imaging) (k : Nat) (chat : SubagentChat)
    (client : SubagentHistorySnapshot) (h : Followed imaging k chat client) :
    k ≤ chat.messages.length ∧
      client.chat.items = (chat.messages.drop k).map (viewRow imaging) ∧
      client.currentPlan = chat.currentPlan ∧ client.revision = chat.revision := by
  have hfollows : Follows imaging k chat client := by
    induction h with
    | baseline hreached tailLimit waiting =>
      exact ⟨hreached.identified, rfl, ⟨Nat.sub_le _ _, rfl⟩, rfl⟩
    | write before hfits hwrite hnext hclient ih => exact ih.write hfits hwrite hnext hclient
  exact ⟨hfollows.suffix.start, hfollows.suffix.items, hfollows.plan, hfollows.revision⟩

namespace Example

open TaskReplica.Example (imaging)

/-- What a Subagent's history says of a call. -/
def call (title : String) (status : ActivityStatus) : NormalizedMessage :=
  .activity { id := "acp_tool:x", title, status, createdAt := "1", collapsed := true, steps := [] }

/-- A history in which the call is announced. -/
def announced : SubagentChat :=
  (appendMessage {} (call "Delegate" .running) false 1).1.advance

def client : SubagentHistorySnapshot := subagentHistoryForClient imaging 100 false announced

/-- The call is announced again, with its result. -/
def repeated : HistoryWrite := ⟨0, .appendMessage (call "Delegate" .completed) false, 2, none⟩

/-- Its row gets the result. -/
def finished : HistoryWrite := ⟨0, .appendMessage (call "Delegate" .completed) true, 2, none⟩

/-- The history after the write, what is journaled and what is published of it. -/
def written (write : HistoryWrite) : SubagentChat × StreamOperation × CommittedSubagentChange :=
  match applyHistoryWrite imaging announced write with
  | .ok (chat, journaled, some committed) => (chat, journaled, committed)
  | _ => (announced, .setPlan none, .plan none)

/-- The client's copy after the write. -/
def clientAfter (write : HistoryWrite) : SubagentHistorySnapshot :=
  match updateSubagentHistorySnapshot client
      (publishedRevision imaging (written write).1.revision (written write).2.2) with
  | .ok client => client
  | .error _ => client

theorem identified_announced : Identified announced.messages :=
  ⟨by decide +kernel, by decide +kernel⟩

end Example

open SubagentReplica.Example
open TaskReplica.Example (imaging)

/-- The result of a call reaches the client in its row. -/
theorem followed_history_finished_call :
    (written finished).1.messages.length = 1 ∧
      (clientAfter finished).chat.items =
        ((written finished).1.messages.drop 0).map
          (viewRow imaging) := by
  have hfits : Fits imaging announced finished.operation := by
    refine ⟨trivial, fun chunk incoming stored m hoperation => ?_, ?_⟩
    · rw [finished] at hoperation
      cases hoperation
    · intro row hrow
      refine TaskReplica.shownAsStored_of_no_image ?_
      revert row
      decide +kernel
  have hwrite : applyHistoryWrite imaging announced finished =
      .ok ((written finished).1, (written finished).2.1,
        some (written finished).2.2) := by
    decide +kernel
  have hnext : (written finished).1.revision = announced.revision + 1 := by
    decide +kernel
  have hclient : updateSubagentHistorySnapshot client
      (publishedRevision imaging (written finished).1.revision
        (written finished).2.2) = .ok (clientAfter finished) := by
    decide +kernel
  have hbaseline : Followed imaging 0 announced client := by
    have hstart : announced.messages.length - 100 = 0 := by decide +kernel
    rw [← hstart]
    exact .baseline (.opened identified_announced) 100 false
  have hsuffix := followed_history_is_suffix imaging 0 _ _
    (.write hbaseline hfits hwrite hnext hclient)
  exact ⟨by decide +kernel, hsuffix.2.1⟩

/-- The call is announced again under its identity, as a new message: the server has both, and the
client has the first one twice. -/
theorem reused_identity_repeats_old_message :
    applyHistoryWrite imaging announced repeated =
        .ok ((written repeated).1, (written repeated).2.1,
          some (written repeated).2.2) ∧
      updateSubagentHistorySnapshot client
        (publishedRevision imaging (written repeated).1.revision
          (written repeated).2.2) = .ok (clientAfter repeated) ∧
      (written repeated).1.messages.map
        (fun row => (viewRow imaging row).status) = [.streaming, .complete] ∧
      (clientAfter repeated).chat.items.map (·.status) = [.streaming, .streaming] ∧
      ∀ k, (clientAfter repeated).chat.items ≠
        ((written repeated).1.messages.drop k).map
          (viewRow imaging) := by
  have hserver : (written repeated).1.messages.map
      (fun row => (viewRow imaging row).status) = [.streaming, .complete] := by
    decide +kernel
  have hclient : (clientAfter repeated).chat.items.map (·.status) =
      [.streaming, .streaming] := by decide +kernel
  refine ⟨by decide +kernel, by decide +kernel, hserver, hclient, fun k heq => ?_⟩
  have hstatuses := congrArg (List.map (·.status)) heq
  rw [hclient, List.map_map, Function.comp_def, List.map_drop, hserver] at hstatuses
  match k with
  | 0 => cases hstatuses
  | 1 => cases hstatuses
  | k + 2 =>
    rw [List.drop_of_length_le (by simp)] at hstatuses
    cases hstatuses

end SubagentReplica

end OpenAide

import OpenAide.Agent.ReplayProjection

/-!
# Replayed rows keep their place

The shape of a row is its kind of text, if it is one, and its identity.  Whatever update comes, the
shapes so far stay where they are and new ones follow (`shapes_project`): a row is only ever
appended to, or replaced by one of its own identity (`change_project`).  For this the identities of
texts and of tools, plans and compactions must not meet (`TextId.not_itemId`), and the indices the
buffer remembers must point at the rows they were taken from (`Located`).
-/

namespace OpenAide.Replay

open Library

/-! ## Identities that cannot meet -/

/-- The id of the row of an ACP message id. -/
def sourcedId (sessionId : String) (kind : ReplayTextKind) (source : String) : String :=
  match kind with
  | .user => stableMessageId sessionId source
  | .agent => stableAgentMessageId sessionId .agent source
  | .thought => stableAgentMessageId sessionId .thought source

@[simp] theorem sourcedId_ofRole (sessionId : String) (role : AgentMessageRole) (source : String) :
    sourcedId sessionId (.ofRole role) source = stableAgentMessageId sessionId role source := by
  cases role <;> rfl

/-- A text's row, anonymous or sourced. -/
def TextId (sessionId : String) (kind : ReplayTextKind) (id : String) : Prop :=
  (∃ ordinal, id = ordinalId sessionId kind ordinal) ∨
  ∃ source, id = sourcedId sessionId kind source

/-- A tool's, plan's or compaction's row. -/
def ItemId (sessionId id : String) : Prop :=
  (∃ toolCallId, id = toolRowId toolCallId) ∨ (∃ ordinal, id = planId sessionId ordinal) ∨
    ∃ compactionId, id = stableCompactionId sessionId compactionId

variable {sessionId id : String} {kind : ReplayTextKind}

theorem TextId.not_itemId (h : TextId sessionId kind id) : ¬ItemId sessionId id := by
  rintro (⟨toolCallId, hitem⟩ | ⟨ordinal, hitem⟩ | ⟨compactionId, hitem⟩) <;>
  rcases h with ⟨ordinal', rfl⟩ | ⟨source, rfl⟩ <;>
  cases kind <;>
  simp [ordinalId, sourcedId, stableMessageId, stableAgentMessageId, toolRowId, planId,
    stableCompactionId, ReplayTextKind.label, String.append_assoc, ← String.toList_inj] at hitem

/-! ## Shapes -/

/-- The kind of a text row and the identity of any row. -/
def rowShape : NormalizedMessage → Option ReplayTextKind × String
  | .user m => (some .user, m.id)
  | .agentMessage m => (some (.ofRole m.role), m.id)
  | message => (none, message.identity)

@[simp] theorem rowShape_snd (message : NormalizedMessage) :
    (rowShape message).2 = message.identity := by
  cases message <;> rfl

@[simp] theorem rowShape_newMessage (kind : ReplayTextKind) (id text createdAt : String) :
    rowShape (kind.newMessage id text createdAt) = (some kind, id) := by
  cases kind <;> rfl

@[simp] theorem rowShape_appendTextChunk (chunk : String) (message : NormalizedMessage) :
    rowShape (appendTextChunk chunk message) = rowShape message := by
  cases message <;> rfl

@[simp] theorem rowShape_appendAgentPart (role : AgentMessageRole) (part : AgentMessagePart)
    (message : NormalizedMessage) :
    rowShape (appendAgentPart role part message) = rowShape message := by
  cases message with
  | agentMessage m =>
    simp only [appendAgentPart]
    split <;> rfl
  | _ => rfl

theorem rowShape_preserveCreatedAtFrom (message existing : NormalizedMessage) :
    rowShape (message.preserveCreatedAtFrom existing) = rowShape message := by
  cases message <;> rfl

/-- The identity of a shape is one its kind of row can have. -/
def Named (sessionId : String) : Option ReplayTextKind × String → Prop
  | (some kind, id) => TextId sessionId kind id
  | (none, id) => ItemId sessionId id

theorem Named.item {shape : Option ReplayTextKind × String} (h : Named sessionId shape)
    (hitem : ItemId sessionId shape.2) : shape.1 = none := by
  obtain ⟨_ | kind, id⟩ := shape
  · rfl
  · exact absurd hitem (TextId.not_itemId h)

theorem map_modify_eq {α β : Type} {g : α → β} {f : α → α} {xs : List α} {index : Nat}
    (h : ∀ x, xs[index]? = some x → g (f x) = g x) : (xs.modify index f).map g = xs.map g := by
  refine List.ext_getElem? fun i => ?_
  rw [List.getElem?_map, List.getElem?_map, List.getElem?_modify]
  by_cases hi : index = i
  · subst hi
    cases hx : xs[index]? with
    | none => rfl
    | some x => simp [h x hx]
  · simp [hi]

theorem getElem?_of_isPrefix {α : Type} {xs ys : List α} {index : Nat} {x : α} (h : xs <+: ys)
    (hx : xs[index]? = some x) : ys[index]? = some x := by
  obtain ⟨more, rfl⟩ := h
  obtain ⟨hlt, -⟩ := List.getElem?_eq_some_iff.mp hx
  rw [List.getElem?_append_left hlt, hx]

/-- The row an update's ACP message id belongs to. -/
def SessionUpdate.source : SessionUpdate → Option (ReplayTextKind × String)
  | userMessageChunk (.text _) messageId => messageId.map (.user, ·)
  | agentMessageChunk _ messageId => messageId.map (.agent, ·)
  | agentThoughtChunk _ messageId => messageId.map (.thought, ·)
  | _ => none

namespace ReplayBuffer

def shapes (b : ReplayBuffer) : List (Option ReplayTextKind × String) := b.messages.map rowShape

/-- The buffer's indices point at the rows they were taken from, and only the last row is open for
anonymous text. -/
structure Located (sessionId : String) (b : ReplayBuffer) : Prop where
  named : ∀ shape ∈ b.shapes, Named sessionId shape
  users : ∀ source index, b.sourcedUserIndices.get? source = some index →
    b.shapes[index]? = some (some .user, sourcedId sessionId .user source)
  agents : ∀ role source index, b.sourcedAgentIndices.get? (role, source) = some index →
    b.shapes[index]? = some (some (.ofRole role), sourcedId sessionId (.ofRole role) source)
  openRun : ∀ run, b.activeAnonymousText = some run → run.messageIndex + 1 = b.messages.length ∧
    ∃ message text id, b.messages[run.messageIndex]? = some message ∧
      replayTextParts message = some (run.kind, text, id)
  plan : ∀ id, b.completedPlanMessageId = some id → ∃ ordinal, id = planId sessionId ordinal

variable {p : ReplayProjection} {shown : Shown} {createdAt : String} {b : ReplayBuffer}

theorem located_empty (sessionId : String) : Located sessionId {} :=
  ⟨by simp [shapes], by simp [Assoc.get?], by simp [Assoc.get?], by simp, by simp⟩

variable {b' : ReplayBuffer} {message : NormalizedMessage}
    {source : Option (ReplayTextKind × String)}

/-- Where the row of an ACP message id is. -/
def index? (b : ReplayBuffer) : ReplayTextKind → String → Option Nat
  | .user, source => b.sourcedUserIndices.get? source
  | .agent, source => b.sourcedAgentIndices.get? (.agent, source)
  | .thought, source => b.sourcedAgentIndices.get? (.thought, source)

@[simp] theorem index?_ofRole (b : ReplayBuffer) (role : AgentMessageRole) (source : String) :
    b.index? (.ofRole role) source = b.sourcedAgentIndices.get? (role, source) := by
  cases role <;> rfl

theorem index?_congr {b b' : ReplayBuffer} (husers : b'.sourcedUserIndices = b.sourcedUserIndices)
    (hagents : b'.sourcedAgentIndices = b.sourcedAgentIndices) : b'.index? = b.index? := by
  funext kind source
  cases kind <;> simp only [index?, husers, hagents]

theorem Located.index? (h : Located sessionId b) {id : String} {index : Nat}
    (hindex : b.index? kind id = some index) :
    b.shapes[index]? = some (some kind, sourcedId sessionId kind id) := by
  cases kind with
  | user => exact h.users id index hindex
  | agent => exact h.agents .agent id index hindex
  | thought => exact h.agents .thought id index hindex

@[simp] theorem length_shapes (b : ReplayBuffer) : b.shapes.length = b.messages.length := by
  simp [shapes]

/-! ## What an update can do -/

/-- The rows after `upsert`. -/
def upsertRows (messages : List NormalizedMessage) (message : NormalizedMessage) :
    List NormalizedMessage :=
  match messages.findIdx? (·.identity = message.identity) with
  | some index => messages.modify index (message.preserveCreatedAtFrom ·)
  | none => messages ++ [message]

theorem upsert_eq (b : ReplayBuffer) (message : NormalizedMessage) :
    b.upsert message = { b with messages := upsertRows b.messages message } := by
  unfold upsert upsertRows
  cases b.messages.findIdx? (·.identity = message.identity) <;> rfl

/-- What rows are found by and named after stays. -/
structure Books (sessionId : String) (b b' : ReplayBuffer) : Prop where
  index : b'.index? = b.index?
  next : b'.nextTextOrdinal = b.nextTextOrdinal
  plan : ∀ id, b'.completedPlanMessageId = some id →
    b.completedPlanMessageId = some id ∨ ∃ ordinal, id = planId sessionId ordinal

/-- **What one update can do to the rows**: nothing; replace or add an item; add a chunk to the open
row or to the row of its ACP message id; or add a row, with the next ordinal or with an ACP message
id its channel has not seen. -/
inductive Change (sessionId : String) (source : Option (ReplayTextKind × String))
    (b b' : ReplayBuffer) : Prop
  | same (hbooks : Books sessionId b b') (hmessages : b'.messages = b.messages)
      (hopen : b'.activeAnonymousText = none ∨ b'.activeAnonymousText = b.activeAnonymousText)
      (hsource : source = none)
  | item (hbooks : Books sessionId b b') {message : NormalizedMessage} {id : String}
      (hshape : rowShape message = (none, id)) (hid : ItemId sessionId id)
      (hmessages : b'.messages = upsertRows b.messages message)
      (hopen : b'.activeAnonymousText = none) (hsource : source = none)
  | chunk (hbooks : Books sessionId b b') {run : ActiveAnonymousTextRun} {text : String}
      (hrun : b.activeAnonymousText = some run)
      (hmessages : b'.messages = b.messages.modify run.messageIndex (appendTextChunk text))
      (hopen : b'.activeAnonymousText = b.activeAnonymousText) (hsource : source = none)
  | sourcedChunk (hbooks : Books sessionId b b') {kind : ReplayTextKind} {id : String} {index : Nat}
      {f : NormalizedMessage → NormalizedMessage} (hsource : source = some (kind, id))
      (hrow : b.index? kind id = some index)
      (hf : ∀ message, rowShape (f message) = rowShape message)
      (hmessages : b'.messages = b.messages.modify index f) (hopen : b'.activeAnonymousText = none)
  | anonymous {kind : ReplayTextKind} {message : NormalizedMessage}
      (hshape : rowShape message = (some kind, ordinalId sessionId kind b.nextTextOrdinal))
      (hmessages : b'.messages = b.messages ++ [message]) (hindex : b'.index? = b.index?)
      (hnext : b'.nextTextOrdinal = b.nextTextOrdinal + 1)
      (hplan : b'.completedPlanMessageId = b.completedPlanMessageId)
      (hopen : b'.activeAnonymousText = none ∨
        b'.activeAnonymousText = some ⟨kind, b.messages.length⟩ ∧
          ∃ text id, replayTextParts message = some (kind, text, id))
      (hsource : source = none)
  | sourced {kind : ReplayTextKind} {id : String} {message : NormalizedMessage}
      (hsource : source = some (kind, id)) (hnew : b.index? kind id = none)
      (hshape : rowShape message = (some kind, sourcedId sessionId kind id))
      (hmessages : b'.messages = b.messages ++ [message])
      (hindex : ∀ kind' id', b'.index? kind' id' =
        if kind = kind' ∧ id = id' then some b.messages.length else b.index? kind' id')
      (hnext : b'.nextTextOrdinal = b.nextTextOrdinal)
      (hplan : b'.completedPlanMessageId = b.completedPlanMessageId)
      (hopen : b'.activeAnonymousText = none)

theorem Books.of_same (h : Books sessionId b b') {b'' : ReplayBuffer}
    (husers : b''.sourcedUserIndices = b'.sourcedUserIndices)
    (hagents : b''.sourcedAgentIndices = b'.sourcedAgentIndices)
    (hnext : b''.nextTextOrdinal = b'.nextTextOrdinal)
    (hplan : b''.completedPlanMessageId = b'.completedPlanMessageId) : Books sessionId b b'' :=
  ⟨(index?_congr husers hagents).trans h.index, hnext.trans h.next, fun id hid =>
    h.plan id (hplan ▸ hid)⟩

theorem Books.refl (sessionId : String) (b : ReplayBuffer) : Books sessionId b b :=
  ⟨rfl, rfl, fun _ hid => .inl hid⟩

theorem Change.kept (h : Books sessionId b b') (hmessages : b'.messages = b.messages)
    (hopen : b'.activeAnonymousText = none) : Change sessionId none b b' :=
  .same h hmessages (.inl hopen) rfl

theorem books_end (sessionId : String) (b : ReplayBuffer) :
    Books sessionId b b.endAnonymousTextRun :=
  (Books.refl sessionId b).of_same rfl rfl rfl rfl

/-! ### Items -/

variable {b₁ : ReplayBuffer}

theorem change_upsert (h : Books sessionId b b₁) (hmessages : b₁.messages = b.messages)
    (hopen : b₁.activeAnonymousText = none) (hshape : rowShape message = (none, id))
    (hid : ItemId sessionId id) : Change sessionId none b (b₁.upsert message) := by
  rw [upsert_eq]
  exact .item (h.of_same rfl rfl rfl rfl) hshape hid (by rw [hmessages]) hopen rfl

theorem change_showTool (h : Books p.sessionId b b₁) (hmessages : b₁.messages = b.messages)
    (hopen : b₁.activeAnonymousText = none) (projection : CodexSubagentProjection)
    (toolCall : ToolCall) :
    Change p.sessionId none b (b₁.showTool p shown createdAt projection toolCall) := by
  cases projection with
  | event subagent => exact change_upsert h hmessages hopen rfl (.inl ⟨_, rfl⟩)
  | suppress => exact .kept h hmessages hopen
  | genericTool => exact change_upsert h hmessages hopen rfl (.inl ⟨_, rfl⟩)

theorem change_projectToolCall (h : Books p.sessionId b b₁) (hmessages : b₁.messages = b.messages)
    (toolCall : ToolCall) :
    Change p.sessionId none b (b₁.projectToolCall p shown createdAt toolCall) := by
  unfold projectToolCall
  split
  · exact .kept (h.of_same rfl rfl rfl rfl) hmessages rfl
  · have hbooks : Books p.sessionId b (b₁.rememberToolCall p toolCall) := h.of_same rfl rfl rfl rfl
    exact change_showTool hbooks hmessages rfl _ _

theorem change_projectToolUpdate (h : Books p.sessionId b b₁) (hmessages : b₁.messages = b.messages)
    (update : ToolCallUpdate) :
    Change p.sessionId none b (b₁.projectToolUpdate p shown createdAt update) := by
  refine change_showTool ?_ ?_ ?_ _ _
  · exact h.of_same rfl rfl rfl rfl
  · exact hmessages
  · rfl

theorem change_projectToolRow (delegations : ReplayDelegations) (row : Option ToolRow) :
    Change p.sessionId none b
      (({ b.endAnonymousTextRun with delegations }).projectToolRow p shown createdAt row) := by
  have hended : Books p.sessionId b { b.endAnonymousTextRun with delegations } :=
    (Books.refl p.sessionId b).of_same rfl rfl rfl rfl
  match row with
  | none => exact .kept hended rfl rfl
  | some (.call toolCall) => exact change_projectToolCall hended rfl toolCall
  | some (.update update) => exact change_projectToolUpdate hended rfl update

theorem rowShape_applyCompactionChange (id : String) (existing : Option NormalizedMessage)
    (change : AgentCompactionChange) (createdAt : String) :
    rowShape (.compaction (applyCompactionChange id existing change createdAt)) = (none, id) := by
  cases change <;> rfl

theorem change_applyCompaction (compactionId : String) (change : AgentCompactionChange) :
    Change p.sessionId none b
      (b.endAnonymousTextRun.applyCompaction p createdAt compactionId change) :=
  change_upsert (books_end p.sessionId b) rfl rfl
    (rowShape_applyCompactionChange _ _ change createdAt) (.inr (.inr ⟨compactionId, rfl⟩))

theorem Located.completedPlanId (h : Located p.sessionId b) :
    ∃ ordinal, b.completedPlanId p = planId p.sessionId ordinal := by
  unfold ReplayBuffer.completedPlanId
  cases hid : b.completedPlanMessageId with
  | none => exact ⟨_, rfl⟩
  | some id => exact h.plan id hid

theorem change_replacePlan (h : Located p.sessionId b) (entries : List PlanEntry) :
    Change p.sessionId none b (b.endAnonymousTextRun.replacePlan p shown createdAt entries) := by
  have hplan := h.completedPlanId
  have hnone {b' : ReplayBuffer} (hid : b'.completedPlanMessageId = none) (id : String)
      (hsome : b'.completedPlanMessageId = some id) : b.completedPlanMessageId = some id ∨
        ∃ ordinal, id = planId p.sessionId ordinal := by
    rw [hid] at hsome
    cases hsome
  unfold replacePlan
  split
  · exact .kept ⟨index?_congr rfl rfl, rfl, hnone rfl⟩ rfl rfl
  split
  · refine change_upsert ⟨index?_congr rfl rfl, rfl, ?_⟩ rfl rfl rfl (.inr (.inl hplan))
    rintro id hid
    cases hid
    exact .inr hplan
  · exact .kept ⟨index?_congr rfl rfl, rfl, hnone rfl⟩ rfl rfl

/-! ### Texts -/

theorem replayTextParts_newMessage (kind : ReplayTextKind) (id text createdAt : String) :
    replayTextParts (kind.newMessage id text createdAt) = some (kind, text, id) := by
  cases kind <;> rfl

theorem replayTextParts_appendTextChunk {text : String}
    (h : replayTextParts message = some (kind, text, id)) (chunk : String) :
    replayTextParts (appendTextChunk chunk message) = some (kind, text ++ chunk, id) := by
  cases message with
  | user m => cases h; rfl
  | agentMessage m =>
    simp only [replayTextParts] at h
    split at h
    · rename_i text' hparts
      cases h
      simp [appendTextChunk, replayTextParts, hparts, appendPart]
    · cases h
  | _ => cases h

theorem change_pushAnonymousText (kind : ReplayTextKind) (text : String) :
    Change p.sessionId none b (b.pushAnonymousText p createdAt kind text) := by
  have hstart : Change p.sessionId none b
      { b with
        messages := b.messages ++
          [kind.newMessage (ordinalId p.sessionId kind b.nextTextOrdinal) text createdAt]
        nextTextOrdinal := b.nextTextOrdinal + 1
        activeAnonymousText := some ⟨kind, b.messages.length⟩ } :=
    .anonymous (rowShape_newMessage kind _ text createdAt) rfl (index?_congr rfl rfl) rfl rfl
      (.inr ⟨rfl, _, _, replayTextParts_newMessage kind _ text createdAt⟩) rfl
  unfold pushAnonymousText
  split
  · rename_i run hrun
    split
    · exact .chunk ((Books.refl p.sessionId b).of_same rfl rfl rfl rfl) hrun rfl rfl rfl
    · exact hstart
  · exact hstart

theorem change_pushUserText (text : String) (messageId : Option String) :
    Change p.sessionId (messageId.map (.user, ·)) b
    (b.pushUserText p createdAt text messageId) := by
  cases messageId with
  | none => exact change_pushAnonymousText .user text
  | some id =>
    unfold pushUserText
    dsimp only
    split
    · rename_i index hindex
      exact .sourcedChunk ((Books.refl p.sessionId b).of_same rfl rfl rfl rfl) rfl hindex
        (rowShape_appendTextChunk text) rfl rfl
    · rename_i hnone
      refine .sourced rfl hnone rfl rfl (fun kind' id' => ?_) rfl rfl rfl
      cases kind' <;> simp [ReplayBuffer.index?, Assoc.get?_insert, endAnonymousTextRun]

theorem change_pushAnonymousPart (role : AgentMessageRole) (part : AgentMessagePart) :
    Change p.sessionId none b (b.pushAnonymousPart p createdAt role part) := by
  have hother : Change p.sessionId none b
      { b.endAnonymousTextRun with
        messages := b.messages ++ [.agentMessage
          ⟨ordinalId p.sessionId (.ofRole role) b.nextTextOrdinal, role, [part], createdAt⟩]
        nextTextOrdinal := b.nextTextOrdinal + 1 } :=
    .anonymous rfl rfl (index?_congr rfl rfl) rfl rfl (.inl rfl) rfl
  cases part with
  | text text =>
    unfold pushAnonymousPart
    dsimp only
    split
    · exact .kept (books_end p.sessionId b) rfl rfl
    · exact change_pushAnonymousText (.ofRole role) text
  | image => exact hother
  | shown => exact hother

theorem change_pushSourcedPart (role : AgentMessageRole) (part : AgentMessagePart) (id : String) :
    Change p.sessionId (some (.ofRole role, id)) b
    (b.pushSourcedPart p createdAt role part id) := by
  unfold pushSourcedPart
  dsimp only
  split
  · rename_i index hindex
    exact .sourcedChunk ((Books.refl p.sessionId b).of_same rfl rfl rfl rfl) rfl
      ((index?_ofRole b role id).trans hindex) (rowShape_appendAgentPart role part) rfl rfl
  · rename_i hnone
    refine .sourced rfl ((index?_ofRole b role id).trans hnone) (by rw [sourcedId_ofRole]; rfl) rfl
      (fun kind' id' => ?_) rfl rfl rfl
    cases role <;> cases kind' <;> simp
      [ReplayBuffer.index?, Assoc.get?_insert, endAnonymousTextRun, ReplayTextKind.ofRole]

/-- **One update.** -/
theorem change_project (h : Located p.sessionId b) (update : SessionUpdate) :
    Change p.sessionId update.source b (b.project p shown createdAt update) := by
  have hpart (role : AgentMessageRole) (part : AgentMessagePart) (messageId : Option String) :
      Change p.sessionId (messageId.map (.ofRole role, ·)) b
        (b.pushAgentPart p createdAt role part messageId) := by
    cases messageId with
    | none => exact change_pushAnonymousPart role part
    | some id => exact change_pushSourcedPart role part id
  have hsame := Books.refl p.sessionId b
  cases update with
  | userMessageChunk content messageId =>
    cases content with
    | text text => exact change_pushUserText text messageId
    | image => exact .same hsame rfl (.inr rfl) rfl
    | other => exact .same hsame rfl (.inr rfl) rfl
  | agentMessageChunk content messageId => exact hpart .agent _ messageId
  | agentThoughtChunk content messageId => exact hpart .thought _ messageId
  | toolCall toolCall => exact change_projectToolCall hsame rfl toolCall
  | toolCallUpdate update => exact change_projectToolUpdate hsame rfl update
  | plan entries =>
    simp only [project]
    split
    · exact .kept (books_end p.sessionId b) rfl rfl
    · exact change_replacePlan h entries
  | compactionUpdate update => exact change_applyCompaction _ _
  | compactionSummaryChunk compactionId content =>
    simp only [project]
    split
    · exact change_applyCompaction _ _
    · exact .kept (books_end p.sessionId b) rfl rfl
  | subagentUpdate update => exact change_projectToolRow _ _
  | sessionMessage message => exact change_projectToolRow _ _
  | other => exact .kept (books_end p.sessionId b) rfl rfl

/-! ## Rows keep their place -/

theorem item_of_findIdx? (h : Located sessionId b) (hid : ItemId sessionId id) {index : Nat}
    (hindex : b.messages.findIdx? (·.identity = id) = some index) {existing : NormalizedMessage}
    (hexisting : b.messages[index]? = some existing) : rowShape existing = (none, id) := by
  obtain ⟨hlt, heq, -⟩ := List.findIdx?_eq_some_iff_getElem.mp hindex
  rw [List.getElem?_eq_getElem hlt, Option.some.injEq] at hexisting
  rw [hexisting] at heq
  have hmem : rowShape existing ∈ b.shapes :=
    List.mem_map_of_mem (hexisting ▸ List.getElem_mem hlt)
  have hsame : (rowShape existing).2 = id := by
    rw [rowShape_snd]
    exact of_decide_eq_true heq
  exact Prod.ext ((h.named _ hmem).item (by rw [hsame]; exact hid)) hsame

theorem shapes_upsertRows (h : Located sessionId b) (hshape : rowShape message = (none, id))
    (hid : ItemId sessionId id) :
    (upsertRows b.messages message).map rowShape = b.shapes ∨
      (upsertRows b.messages message).map rowShape = b.shapes ++ [(none, id)] ∧
        (none, id) ∉ b.shapes := by
  have hidentity : message.identity = id := by rw [← rowShape_snd, hshape]
  unfold upsertRows
  rw [hidentity]
  cases hindex : b.messages.findIdx? (·.identity = id) with
  | none =>
    refine .inr ⟨by simp [shapes, hshape], fun hmem => ?_⟩
    obtain ⟨row, hrow, hsame⟩ := List.mem_map.mp hmem
    have hne := List.findIdx?_eq_none_iff.mp hindex row hrow
    rw [← rowShape_snd, hsame] at hne
    simp at hne
  | some index =>
    refine .inl (map_modify_eq fun existing hexisting => ?_)
    rw [rowShape_preserveCreatedAtFrom, hshape, item_of_findIdx? h hid hindex hexisting]

theorem named_append (h : Located sessionId b) {shape : Option ReplayTextKind × String}
    (hshape : Named sessionId shape) : ∀ shape' ∈ b.shapes ++ [shape], Named sessionId shape' := by
  intro shape' hmem
  rcases List.mem_append.mp hmem with hmem | hmem
  · exact h.named shape' hmem
  · rw [List.mem_singleton.mp hmem]
    exact hshape

theorem Change.shapes (h : Change sessionId source b b') (hb : Located sessionId b) :
    b'.shapes = b.shapes ∨ ∃ shape, Named sessionId shape ∧ b'.shapes = b.shapes ++ [shape] := by
  cases h with
  | same hbooks hmessages => exact .inl (congrArg (List.map rowShape) hmessages)
  | @item hbooks message id hshape hid hmessages =>
    have hrows := congrArg (List.map rowShape) hmessages
    rcases shapes_upsertRows hb hshape hid with hsame | ⟨hnew, -⟩
    · exact .inl (hrows.trans hsame)
    · exact .inr ⟨(none, id), hid, hrows.trans hnew⟩
  | chunk hbooks hrun hmessages =>
    exact .inl ((congrArg (List.map rowShape) hmessages).trans
      (map_modify_eq fun _ _ => rowShape_appendTextChunk _ _))
  | sourcedChunk hbooks hsource hrow hf hmessages =>
    exact .inl ((congrArg (List.map rowShape) hmessages).trans (map_modify_eq fun _ _ => hf _))
  | @anonymous kind message hshape hmessages =>
    refine .inr ⟨rowShape message, ?_, by simp [ReplayBuffer.shapes, hmessages]⟩
    rw [hshape]
    exact Or.inl ⟨_, rfl⟩
  | @sourced kind id message hsource hnew hshape hmessages =>
    refine .inr ⟨rowShape message, ?_, by simp [ReplayBuffer.shapes, hmessages]⟩
    rw [hshape]
    exact Or.inr ⟨_, rfl⟩

/-- What an update does to a located buffer. -/
def Advances (sessionId : String) (b b' : ReplayBuffer) : Prop :=
  Located sessionId b' ∧ b.shapes <+: b'.shapes

theorem Change.openRun (h : Change sessionId source b b') (hb : Located sessionId b)
    {run : ActiveAnonymousTextRun} (hrun : b'.activeAnonymousText = some run) :
    run.messageIndex + 1 = b'.messages.length ∧ ∃ message text id,
      b'.messages[run.messageIndex]? = some message ∧
        replayTextParts message = some (run.kind, text, id) := by
  cases h with
  | same hbooks hmessages hopen =>
    rcases hopen with hopen | hopen
    · cases hopen.symm.trans hrun
    · rw [hmessages]
      exact hb.openRun run (hopen ▸ hrun)
  | item hbooks hshape hid hmessages hopen => cases hopen.symm.trans hrun
  | chunk hbooks hrun' hmessages hopen =>
    cases (hrun'.symm.trans (hopen.symm.trans hrun))
    obtain ⟨hlast, message, old, id, hmessage, hparts⟩ := hb.openRun run hrun'
    rw [hmessages]
    exact ⟨by simpa using hlast, _, _, id, by simp [hmessage]; rfl,
      replayTextParts_appendTextChunk hparts _⟩
  | sourcedChunk hbooks hsource hrow hf hmessages hopen => cases hopen.symm.trans hrun
  | anonymous hshape hmessages hindex hnext hplan hopen =>
    rcases hopen with hopen | ⟨hopen, text, id, hparts⟩
    · cases hopen.symm.trans hrun
    · cases hopen.symm.trans hrun
      rw [hmessages]
      exact ⟨by simp, _, text, id, List.getElem?_concat_length, hparts⟩
  | sourced hsource hnew hshape hmessages hindex hnext hplan hopen => cases hopen.symm.trans hrun

theorem Change.found (h : Change sessionId source b b') (hb : Located sessionId b)
    {id : String} {index : Nat} (hindex : b'.index? kind id = some index) :
    b'.shapes[index]? = some (some kind, sourcedId sessionId kind id) := by
  have hold (hindex : b.index? kind id = some index) :
      b'.shapes[index]? = some (some kind, sourcedId sessionId kind id) := by
    refine getElem?_of_isPrefix ?_ (hb.index? hindex)
    rcases h.shapes hb with hshapes | ⟨shape, -, hshapes⟩
    · rw [hshapes]
    · rw [hshapes]
      exact List.prefix_append ..
  cases h with
  | same hbooks | item hbooks | chunk hbooks | sourcedChunk hbooks =>
    exact hold (hbooks.index ▸ hindex)
  | anonymous hshape hmessages hsame => exact hold (hsame ▸ hindex)
  | sourced hsource hnew hshape hmessages hfound =>
    rw [hfound] at hindex
    split at hindex
    · rename_i heq
      cases hindex
      obtain ⟨rfl, rfl⟩ := heq
      simp [ReplayBuffer.shapes, hmessages, hshape]
    · exact hold hindex

/-- **One update**: the indices stay right and the rows keep their shapes and places. -/
theorem shapes_project (h : Located p.sessionId b) (update : SessionUpdate) :
    Advances p.sessionId b (b.project p shown createdAt update) := by
  have hchange : Change p.sessionId update.source b (b.project p shown createdAt update) :=
    change_project h update
  generalize b.project p shown createdAt update = b' at hchange ⊢
  have husers (source : String) (index : Nat) (hget : b'.index? .user source = some index) :=
    hchange.found h hget
  refine ⟨⟨?_, husers, fun role source index hget => ?_, fun run hrun => hchange.openRun h hrun,
    fun id hid => ?_⟩, ?_⟩
  · rcases hchange.shapes h with hshapes | ⟨shape, hshape, hshapes⟩
    · exact hshapes ▸ h.named
    · exact hshapes ▸ named_append h hshape
  · exact hchange.found h ((index?_ofRole b' role source).trans hget)
  · cases hchange with
    | same hbooks | item hbooks | chunk hbooks | sourcedChunk hbooks =>
      exact (hbooks.plan id hid).elim (h.plan id) fun hplan => hplan
    | anonymous hshape hmessages hindex hnext hplan => exact h.plan id (hplan ▸ hid)
    | sourced hsource hnew hshape hmessages hindex hnext hplan => exact h.plan id (hplan ▸ hid)
  · rcases hchange.shapes h with hshapes | ⟨shape, -, hshapes⟩
    · rw [hshapes]
    · rw [hshapes]
      exact List.prefix_append ..

/-- **A whole replay.** -/
theorem located_projectAll (updates : List SessionUpdate) :
    Located p.sessionId (projectAll p shown createdAt updates) := by
  have hrun : ∀ b : ReplayBuffer, Located p.sessionId b →
      Located p.sessionId (updates.foldl (project p shown createdAt) b) := by
    induction updates with
    | nil => exact fun b h => h
    | cons update rest ih => exact fun b h => ih _ (shapes_project h update).1
  exact hrun {} (located_empty _)

end ReplayBuffer

end OpenAide.Replay

import OpenAide.Agent.ReplayRows

/-!
# Replayed identities under more history

The final identity of a row is decided by what is before it: by its own identity in the buffer, and
for an anonymous text by the fingerprints of the anonymous texts up to it (`finalIdentities`). 
Later updates change neither for a row that is not open any more (`settles_project`), so
**a longer history gives the rows of a shorter one the same identities** (`identities_stable`), save
for the text run that was still open at its end.

The one thing to ask for is that the id of a sourced row does not look anonymous, that is, contains
no `:replay:`.  That neither the session nor the ACP message ids contain it is not enough
(`marked_source_changes_identity`): an ACP id may start with `replay:`.
-/

namespace OpenAide.Replay

open Library

/-! ## Identities from what is before -/

/-- What the final identity of a row is computed from. -/
def sketch (message : NormalizedMessage) : String × Option (ReplayTextKind × UInt64) :=
  (message.identity, fallbackKey message)

/-- The identities `finalize_fallback_ids` gives. -/
def finalIdentities (sessionId : String) (occurrences : Assoc (ReplayTextKind × UInt64) Nat) :
    List (String × Option (ReplayTextKind × UInt64)) → List String
  | [] => []
  | (id, none) :: rest => id :: finalIdentities sessionId occurrences rest
  | (_, some key) :: rest =>
    fallbackId sessionId key.1 key.2 ((occurrences.get? key).getD 0) ::
      finalIdentities sessionId (occurrences.insert key ((occurrences.get? key).getD 0 + 1)) rest

variable {message : NormalizedMessage}

theorem identity_setMessageId {key : ReplayTextKind × UInt64} (h : fallbackKey message = some key)
    (id : String) : (setMessageId id message).identity = id := by
  cases message with
  | user m => rfl
  | agentMessage m => rfl
  | _ => cases h

variable (sessionId : String)

variable (occurrences : Assoc (ReplayTextKind × UInt64) Nat)

variable (messages : List NormalizedMessage)

theorem identities_finalizeFallbackIds :
    (finalizeFallbackIds sessionId occurrences messages).map (·.identity) =
      finalIdentities sessionId occurrences (messages.map sketch) := by
  induction messages generalizing occurrences with
  | nil => rfl
  | cons message rest ih =>
    rw [List.map_cons]
    cases hkey : fallbackKey message with
    | none => simp only [finalizeFallbackIds, sketch, hkey, finalIdentities, List.map_cons, ih]
    | some key =>
      simp only [finalizeFallbackIds, sketch, hkey, finalIdentities, List.map_cons, ih,
        identity_setMessageId hkey]

theorem finalIdentities_append (before after : List (String × Option (ReplayTextKind × UInt64))) :
    finalIdentities sessionId occurrences before <+:
      finalIdentities sessionId occurrences (before ++ after) := by
  induction before generalizing occurrences with
  | nil => exact List.nil_prefix
  | cons row before ih =>
    obtain ⟨id, _ | key⟩ := row
    · exact List.prefix_cons_inj _ |>.mpr (ih _)
    · exact List.prefix_cons_inj _ |>.mpr (ih _)

@[simp] theorem length_finalIdentities (rows : List (String × Option (ReplayTextKind × UInt64))) :
    (finalIdentities sessionId occurrences rows).length = rows.length := by
  induction rows generalizing occurrences with
  | nil => rfl
  | cons row rows ih =>
    obtain ⟨id, _ | key⟩ := row <;> simp [finalIdentities, ih]

theorem finalIdentities_getElem? {sessionId : String}
    {occurrences : Assoc (ReplayTextKind × UInt64) Nat}
    {rows rows' : List (String × Option (ReplayTextKind × UInt64))} {index : Nat}
    (h : ∀ i ≤ index, rows'[i]? = rows[i]?) (hindex : index < rows.length) :
    (finalIdentities sessionId occurrences rows')[index]? =
      (finalIdentities sessionId occurrences rows)[index]? := by
  have htake : rows'.take (index + 1) = rows.take (index + 1) := by
    refine List.ext_getElem? fun i => ?_
    rw [List.getElem?_take, List.getElem?_take]
    split
    · exact h i (by omega)
    · rfl
  have hextends (xs : List (String × Option (ReplayTextKind × UInt64))) :=
    finalIdentities_append sessionId occurrences (xs.take (index + 1)) (xs.drop (index + 1))
  simp only [List.take_append_drop] at hextends
  have hlt : index < (finalIdentities sessionId occurrences (rows.take (index + 1))).length := by
    rw [length_finalIdentities, List.length_take]
    omega
  have hrow := List.getElem?_eq_getElem hlt
  rw [getElem?_of_isPrefix (hextends rows) hrow,
    getElem?_of_isPrefix (htake ▸ hextends rows') hrow]

/-! ## Rows that are not open do not change -/

/-- The id of an update's row does not look anonymous. -/
def SessionUpdate.Unmarked (sessionId : String) : SessionUpdate → Prop
  | userMessageChunk _ (some source) => containsReplay (sourcedId sessionId .user source) = false
  | agentMessageChunk _ (some source) => containsReplay (sourcedId sessionId .agent source) = false
  | agentThoughtChunk _ (some source) =>
    containsReplay (sourcedId sessionId .thought source) = false
  | _ => True

theorem SessionUpdate.Unmarked.source {sessionId id : String} {update : SessionUpdate}
    (h : update.Unmarked sessionId) (hsource : update.source = some (kind, id)) :
    containsReplay (sourcedId sessionId kind id) = false := by
  cases update with
  | userMessageChunk content messageId =>
    cases content <;> cases messageId <;> cases hsource
    exact h
  | agentMessageChunk content messageId | agentThoughtChunk content messageId =>
    cases messageId <;> cases hsource
    exact h
  | _ => cases hsource

theorem fallbackKey_item (h : (rowShape message).1 = none) : fallbackKey message = none := by
  cases message with
  | user m => cases h
  | agentMessage m => cases h
  | _ => rfl

theorem fallbackKey_unmarked (h : containsReplay message.identity = false) :
    fallbackKey message = none := by
  unfold fallbackKey
  split
  · rename_i kind text id hparts
    have hid : id = message.identity := by
      cases message with
      | user m => cases hparts; rfl
      | agentMessage m =>
        simp only [replayTextParts] at hparts
        split at hparts
        · cases hparts; rfl
        · cases hparts
      | _ => cases hparts
    simp [hid, h]
  · rfl

variable {f : NormalizedMessage → NormalizedMessage}

namespace ReplayBuffer

/-- The row that still takes anonymous text. -/
def openIndex (b : ReplayBuffer) : Option Nat := b.activeAnonymousText.map (·.messageIndex)

/-- From `b` to `b'` the rows that are not open keep what decides about their identity, and none of
them is opened again. -/
structure Settles (b b' : ReplayBuffer) : Prop where
  rows : ∀ index message, b.messages[index]? = some message → b.openIndex ≠ some index →
    ∃ message', b'.messages[index]? = some message' ∧ fallbackKey message' = fallbackKey message
  opens : ∀ index < b.messages.length, b'.openIndex = some index → b.openIndex = some index

variable {p : ReplayProjection} {shown : Shown} {createdAt : String} {b b' b'' : ReplayBuffer}

theorem Settles.trans (h : Settles b b') (h' : Settles b' b'')
    (hlength : b.messages.length ≤ b'.messages.length) : Settles b b'' where
  rows index message hmessage hopen := by
    obtain ⟨hlt, -⟩ := List.getElem?_eq_some_iff.mp hmessage
    obtain ⟨message', hmessage', hkey⟩ := h.rows index message hmessage hopen
    obtain ⟨message'', hmessage'', hkey'⟩ := h'.rows index message' hmessage'
      fun hopen' => hopen (h.opens index hlt hopen')
    exact ⟨message'', hmessage'', hkey'.trans hkey⟩
  opens index hlt hopen := h.opens index hlt (h'.opens index (hlt.trans_le hlength) hopen)

theorem settles_same (hmessages : b'.messages = b.messages)
    (hopen : b'.activeAnonymousText = none ∨ b'.activeAnonymousText = b.activeAnonymousText) :
    Settles b b' where
  rows index message hmessage _ := ⟨message, by rw [hmessages, hmessage], rfl⟩
  opens index _ hindex := by
    rcases hopen with hopen | hopen
    · rw [openIndex, hopen] at hindex
      cases hindex
    · rwa [openIndex, hopen] at hindex

/-- A row follows. -/
theorem settles_append (hmessages : b'.messages = b.messages ++ [message])
    (hopen : b'.openIndex = none ∨ b'.openIndex = some b.messages.length) : Settles b b' where
  rows index message' hmessage _ := by
    obtain ⟨hlt, -⟩ := List.getElem?_eq_some_iff.mp hmessage
    exact ⟨message', by rw [hmessages, List.getElem?_append_left hlt, hmessage], rfl⟩
  opens index hlt hindex := by
    rcases hopen with hopen | hopen
    · rw [hopen] at hindex
      cases hindex
    · rw [hopen, Option.some.injEq] at hindex
      omega

theorem settles_modify {index : Nat} (hmessages : b'.messages = b.messages.modify index f)
    (hopen : b'.activeAnonymousText = none ∨ b'.activeAnonymousText = b.activeAnonymousText)
    (hkey : ∀ message, b.messages[index]? = some message → b.openIndex ≠ some index →
      fallbackKey (f message) = fallbackKey message) : Settles b b' where
  rows index' message hmessage hindex := by
    rw [hmessages, List.getElem?_modify, hmessage]
    by_cases heq : index = index'
    · subst heq
      exact ⟨f message, by simp, hkey message hmessage hindex⟩
    · exact ⟨message, by simp [heq], rfl⟩
  opens index' _ hindex := by
    rcases hopen with hopen | hopen
    · rw [openIndex, hopen] at hindex
      cases hindex
    · rwa [openIndex, hopen] at hindex

theorem settles_upsertRows {sessionId : String} (h : Located sessionId b) {id : String}
    (hmessages : b'.messages = upsertRows b.messages message)
    (hopen : b'.activeAnonymousText = none) (hshape : rowShape message = (none, id))
    (hid : ItemId sessionId id) : Settles b b' := by
  have hidentity : message.identity = id := by rw [← rowShape_snd, hshape]
  rw [upsertRows, hidentity] at hmessages
  cases hindex : b.messages.findIdx? (·.identity = id) with
  | none =>
    rw [hindex] at hmessages
    exact settles_append hmessages (.inl (by simp [openIndex, hopen]))
  | some index =>
    rw [hindex] at hmessages
    refine settles_modify hmessages (.inl hopen) fun existing hexisting _ => ?_
    have hitem : fallbackKey existing = none :=
      fallbackKey_item (by rw [item_of_findIdx? h hid hindex hexisting])
    rw [hitem, fallbackKey_item]
    rw [rowShape_preserveCreatedAtFrom, hshape]

theorem fallbackKey_sourced {kind : ReplayTextKind} {source : String} {index : Nat}
    (hshape : b.shapes[index]? = some (some kind, sourcedId p.sessionId kind source))
    (hunmarked : containsReplay (sourcedId p.sessionId kind source) = false)
    (hf : ∀ message, rowShape (f message) = rowShape message)
    (hmessage : b.messages[index]? = some message) :
    fallbackKey (f message) = fallbackKey message := by
  have hid : message.identity = sourcedId p.sessionId kind source := by
    rw [shapes, List.getElem?_map, hmessage, Option.map_some, Option.some.injEq] at hshape
    rw [← rowShape_snd, hshape]
  have hid' : (f message).identity = sourcedId p.sessionId kind source := by
    rw [← rowShape_snd, hf, rowShape_snd, hid]
  rw [fallbackKey_unmarked (by rw [hid']; exact hunmarked),
    fallbackKey_unmarked (by rw [hid]; exact hunmarked)]

/-- **One update** leaves the rows that are not open as they are. -/
theorem settles_project (h : Located p.sessionId b) (update : SessionUpdate)
    (hunmarked : update.Unmarked p.sessionId) : Settles b (b.project p shown createdAt update) := by
  have hchange : Change p.sessionId update.source b (b.project p shown createdAt update) :=
    change_project h update
  cases hchange with
  | same _ hmessages hopen => exact settles_same hmessages hopen
  | item _ hshape hid hmessages hopen => exact settles_upsertRows h hmessages hopen hshape hid
  | chunk _ hrun hmessages hopen =>
    refine settles_modify hmessages (.inr hopen) fun message _ hclosed => ?_
    exact absurd (by rw [openIndex, hrun]; rfl) hclosed
  | sourcedChunk _ hsource hrow hf hmessages hopen =>
    exact settles_modify hmessages (.inl hopen) fun message hmessage _ =>
      fallbackKey_sourced (h.index? hrow) (hunmarked.source hsource) hf hmessage
  | anonymous _ hmessages _ _ _ hopen =>
    refine settles_append hmessages (hopen.imp (fun hopen => ?_) fun hopen => ?_)
    · rw [openIndex, hopen]
      rfl
    · rw [openIndex, hopen.1]
      rfl
  | sourced _ _ _ hmessages _ _ _ hopen =>
    exact settles_append hmessages (.inl (by rw [openIndex, hopen]; rfl))

/-- **More history**: the rows keep their places and shapes, and those not open what decides about
their identity. -/
theorem settles_run (updates : List SessionUpdate) (h : Located p.sessionId b)
    (hunmarked : ∀ update ∈ updates, update.Unmarked p.sessionId) :
    Settles b (updates.foldl (project p shown createdAt) b) ∧
      b.shapes <+: (updates.foldl (project p shown createdAt) b).shapes := by
  induction updates generalizing b with
  | nil => exact ⟨settles_same rfl (.inr rfl), List.prefix_refl _⟩
  | cons update rest ih =>
    have hadvances : Advances p.sessionId b (b.project p shown createdAt update) :=
      shapes_project h update
    obtain ⟨hlocated, hshapes⟩ := hadvances
    obtain ⟨hsettles, hrest⟩ := ih hlocated fun u hu => hunmarked u (List.mem_cons_of_mem _ hu)
    have hlength := hshapes.length_le
    rw [length_shapes, length_shapes] at hlength
    exact ⟨(settles_project h update (hunmarked update List.mem_cons_self)).trans hsettles hlength,
      hshapes.trans hrest⟩

end ReplayBuffer

/-! ## The clock does not matter -/

/-- A row without its time. -/
def untimed (message : NormalizedMessage) : NormalizedMessage :=
  message.preserveCreatedAtFrom (.user ⟨"", "", "", []⟩)

@[simp] theorem identity_untimed (message : NormalizedMessage) :
    (untimed message).identity = message.identity := by
  cases message <;> rfl

@[simp] theorem sketch_untimed (message : NormalizedMessage) :
    sketch (untimed message) = sketch message := by
  cases message <;> rfl

@[simp] theorem untimed_preserveCreatedAtFrom (message existing : NormalizedMessage) :
    untimed (message.preserveCreatedAtFrom existing) = untimed message := by
  cases message <;> rfl

@[simp] theorem untimed_untimed (message : NormalizedMessage) :
    untimed (untimed message) = untimed message := by
  cases message <;> rfl

@[simp] theorem map_untimed_untimed :
    (messages.map untimed).map untimed = messages.map untimed := by
  simp only [List.map_map, Function.comp_def, untimed_untimed]

theorem untimed_appendTextChunk (chunk : String) (message : NormalizedMessage) :
    untimed (appendTextChunk chunk (untimed message)) =
      untimed (appendTextChunk chunk message) := by
  cases message <;> rfl

theorem untimed_appendAgentPart (role : AgentMessageRole) (part : AgentMessagePart)
    (message : NormalizedMessage) :
    untimed (appendAgentPart role part (untimed message)) =
      untimed (appendAgentPart role part message) := by
  cases message with
  | agentMessage m =>
    by_cases hrole : m.role = role <;>
      simp [untimed, NormalizedMessage.preserveCreatedAtFrom, appendAgentPart, hrole]
  | _ => rfl

theorem map_untimed_modify {g : NormalizedMessage → NormalizedMessage}
    (h : ∀ message, untimed (g (untimed message)) = untimed (f message))
    (messages : List NormalizedMessage) (index : Nat) :
    ((messages.map untimed).modify index g).map untimed =
      (messages.modify index f).map untimed := by
  refine List.ext_getElem? fun i => ?_
  simp only [List.getElem?_map, List.getElem?_modify]
  cases messages[i]? with
  | none => rfl
  | some message => by_cases hi : index = i <;> simp [hi, h]

namespace ReplayBuffer

/-- A buffer without the times of its rows. -/
def untimed (b : ReplayBuffer) :
    ReplayBuffer := { b with messages := b.messages.map Replay.untimed }

variable (p : ReplayProjection) (shown : Shown) (createdAt : String) (b : ReplayBuffer)

theorem untimed_upsert {message' : NormalizedMessage}
    (h : Replay.untimed message' = Replay.untimed message) :
    (b.untimed.upsert message').untimed = (b.upsert message).untimed := by
  have hidentity : message'.identity = message.identity := by
    rw [← identity_untimed, h, identity_untimed]
  have hindex : b.untimed.messages.findIdx? (·.identity = message'.identity) =
      b.messages.findIdx? (·.identity = message.identity) := by
    simp [ReplayBuffer.untimed, List.findIdx?_map, Function.comp_def, hidentity]
  unfold upsert
  rw [hindex]
  cases b.messages.findIdx? (·.identity = message.identity) with
  | none =>
    simp only [ReplayBuffer.untimed, List.map_append, map_untimed_untimed, List.map_cons, h,
      List.map_nil]
  | some index =>
    have hrows : ((b.messages.map Replay.untimed).modify index
        (message'.preserveCreatedAtFrom ·)).map Replay.untimed =
        (b.messages.modify index (message.preserveCreatedAtFrom ·)).map Replay.untimed :=
      map_untimed_modify (fun existing => by simp [h]) _ _
    simp only [ReplayBuffer.untimed, hrows]

@[simp] theorem untimed_untimed : b.untimed.untimed = b.untimed := by
  simp only [ReplayBuffer.untimed, map_untimed_untimed]

variable (createdAt' : String)

theorem untimed_showTool (projection : CodexSubagentProjection) (toolCall : ToolCall) :
    (b.untimed.showTool p shown createdAt' projection toolCall).untimed =
      (b.showTool p shown createdAt projection toolCall).untimed := by
  cases projection with
  | event subagent => exact untimed_upsert b rfl
  | suppress => exact untimed_untimed b
  | genericTool => exact untimed_upsert b rfl

theorem untimed_projectToolCall (toolCall : ToolCall) :
    (b.untimed.projectToolCall p shown createdAt' toolCall).untimed =
      (b.projectToolCall p shown createdAt toolCall).untimed := by
  by_cases hreal : (isDelegationRow toolCall &&
      (b.toolCalls.get? toolCall.toolCallId).any (!isDelegationRow ·)) = true
  · have hleft : b.untimed.projectToolCall p shown createdAt' toolCall =
        b.endAnonymousTextRun.untimed := if_pos hreal
    have hright : b.projectToolCall p shown createdAt toolCall = b.endAnonymousTextRun :=
      if_pos hreal
    rw [hleft, hright, untimed_untimed]
  · have hleft : b.untimed.projectToolCall p shown createdAt' toolCall =
        (b.rememberToolCall p toolCall).untimed.showTool p shown createdAt'
          (b.ifCodex p (projectCodexToolCall b.codexSubagents toolCall)).1 toolCall := if_neg hreal
    have hright : b.projectToolCall p shown createdAt toolCall =
        (b.rememberToolCall p toolCall).showTool p shown createdAt
          (b.ifCodex p (projectCodexToolCall b.codexSubagents toolCall)).1 toolCall := if_neg hreal
    rw [hleft, hright, untimed_showTool p shown createdAt _ createdAt']

theorem untimed_projectToolUpdate (update : ToolCallUpdate) :
    (b.untimed.projectToolUpdate p shown createdAt' update).untimed =
      (b.projectToolUpdate p shown createdAt update).untimed :=
  untimed_showTool p shown createdAt { b.endAnonymousTextRun with
    toolCalls := (mergeToolCallUpdate shown.updated b.toolCalls update).2
    codexSubagents := (b.ifCodex p (projectCodexToolUpdate b.codexSubagents update)).2 } createdAt'
      _ _

theorem untimed_projectToolRow (row : Option ToolRow) :
    (b.untimed.projectToolRow p shown createdAt' row).untimed =
      (b.projectToolRow p shown createdAt row).untimed := by
  match row with
  | none => exact untimed_untimed b
  | some (.call toolCall) => exact untimed_projectToolCall p shown createdAt b createdAt' toolCall
  | some (.update update) => exact untimed_projectToolUpdate p shown createdAt b createdAt' update

theorem untimed_applyCompaction (compactionId : String) (change : AgentCompactionChange) :
    (b.untimed.applyCompaction p createdAt' compactionId change).untimed =
      (b.applyCompaction p createdAt compactionId change).untimed := by
  refine untimed_upsert b ?_
  have hfind : b.untimed.messages.find?
        (·.identity = stableCompactionId p.sessionId compactionId) =
      (b.messages.find? (·.identity = stableCompactionId p.sessionId compactionId)).map
        Replay.untimed := by
    simp [ReplayBuffer.untimed, List.find?_map]
  rw [hfind]
  -- the old row counts only as far as it is a compaction
  cases b.messages.find? (·.identity = stableCompactionId p.sessionId compactionId) with
  | none => cases change <;> rfl
  | some existing => cases existing <;> cases change <;> rfl

theorem untimed_replacePlan (entries : List PlanEntry) :
    (b.untimed.replacePlan p shown createdAt' entries).untimed =
      (b.replacePlan p shown createdAt entries).untimed := by
  unfold replacePlan
  split
  · simp only [ReplayBuffer.untimed, map_untimed_untimed]
  split
  · exact untimed_upsert { b with
      nextPlanOrdinal :=
        if b.completedPlanMessageId.isSome then b.nextPlanOrdinal else b.nextPlanOrdinal + 1
      currentPlan := none
      completedPlanMessageId := some (b.completedPlanId p) } rfl
  · simp only [ReplayBuffer.untimed, map_untimed_untimed]

theorem untimed_pushAnonymousText (kind : ReplayTextKind) (text : String) :
    (b.untimed.pushAnonymousText p createdAt' kind text).untimed =
      (b.pushAnonymousText p createdAt kind text).untimed := by
  have hnew (id : String) : Replay.untimed (kind.newMessage id text createdAt') =
      Replay.untimed (kind.newMessage id text createdAt) := by
    cases kind <;> rfl
  unfold pushAnonymousText
  simp only [ReplayBuffer.untimed, List.length_map]
  split
  · split
    · simp only [map_untimed_modify (untimed_appendTextChunk text)]
    · simp only [List.map_append, map_untimed_untimed, List.map_cons, hnew, List.map_nil]
  · simp only [List.map_append, map_untimed_untimed, List.map_cons, hnew, List.map_nil]

theorem untimed_pushUserText (text : String) (source : Option String) :
    (b.untimed.pushUserText p createdAt' text source).untimed =
      (b.pushUserText p createdAt text source).untimed := by
  cases source with
  | none => exact untimed_pushAnonymousText p createdAt b createdAt' .user text
  | some source =>
    simp only [pushUserText, ReplayBuffer.untimed, endAnonymousTextRun, List.length_map]
    split
    · simp only [map_untimed_modify (untimed_appendTextChunk text)]
    · simp only [List.map_append, map_untimed_untimed, List.map_cons, List.map_nil,
        ReplayTextKind.newMessage]
      rfl

theorem untimed_pushAgentPart (role : AgentMessageRole) (part : AgentMessagePart)
    (source : Option String) :
    (b.untimed.pushAgentPart p createdAt' role part source).untimed =
      (b.pushAgentPart p createdAt role part source).untimed := by
  cases source with
  | none =>
    cases part with
    | text text =>
      have hanonymous := untimed_pushAnonymousText p createdAt b createdAt' (.ofRole role) text
      have hended := untimed_untimed b.endAnonymousTextRun
      simp only [pushAgentPart, pushAnonymousPart]
      by_cases hcopy : (p.codex && decide ((role, text) ∈ b.sourcedAgentTextChunks)) = true
      · rw [if_pos hcopy]
        exact (congrArg ReplayBuffer.untimed (if_pos hcopy)).trans hended
      · rw [if_neg hcopy]
        exact (congrArg ReplayBuffer.untimed (if_neg hcopy)).trans hanonymous
    | image =>
      simp only [pushAgentPart, pushAnonymousPart, ReplayBuffer.untimed, endAnonymousTextRun,
        List.map_append, map_untimed_untimed, List.map_cons, List.map_nil]
      rfl
    | shown =>
      simp only [pushAgentPart, pushAnonymousPart, ReplayBuffer.untimed, endAnonymousTextRun,
        List.map_append, map_untimed_untimed, List.map_cons, List.map_nil]
      rfl
  | some source =>
    simp only [pushAgentPart, pushSourcedPart, ReplayBuffer.untimed, endAnonymousTextRun,
      List.length_map]
    split
    · simp only [map_untimed_modify (untimed_appendAgentPart role part)]
    · simp only [List.map_append, map_untimed_untimed, List.map_cons, List.map_nil]
      rfl

theorem untimed_project (update : SessionUpdate) :
    (b.untimed.project p shown createdAt' update).untimed =
      (b.project p shown createdAt update).untimed := by
  cases update with
  | userMessageChunk content source =>
    cases content with
    | text text => exact untimed_pushUserText p createdAt b createdAt' text source
    | image => exact untimed_untimed b
    | other => exact untimed_untimed b
  | agentMessageChunk content source =>
    exact untimed_pushAgentPart p createdAt b createdAt' .agent _ source
  | agentThoughtChunk content source =>
    exact untimed_pushAgentPart p createdAt b createdAt' .thought _ source
  | toolCall toolCall => exact untimed_projectToolCall p shown createdAt b createdAt' toolCall
  | toolCallUpdate update => exact untimed_projectToolUpdate p shown createdAt b createdAt' update
  | plan entries =>
    simp only [project]
    split
    · exact untimed_untimed b.endAnonymousTextRun
    · exact untimed_replacePlan p shown createdAt b.endAnonymousTextRun createdAt' entries
  | compactionUpdate update =>
    exact untimed_applyCompaction p createdAt b.endAnonymousTextRun createdAt' _ _
  | compactionSummaryChunk compactionId content =>
    simp only [project]
    split
    · exact untimed_applyCompaction p createdAt b.endAnonymousTextRun createdAt' _ _
    · exact untimed_untimed b.endAnonymousTextRun
  | subagentUpdate update =>
    exact untimed_projectToolRow p shown createdAt { b.endAnonymousTextRun with
      delegations := (b.delegations.subagentUpdate (if p.claudeIdentity then
        normalizeClaudeIdentity update else update)).2 } createdAt' _
  | sessionMessage message =>
    exact untimed_projectToolRow p shown createdAt { b.endAnonymousTextRun with
      delegations := (b.delegations.sessionMessage p.sessionId message).2 } createdAt' _
  | other => exact untimed_untimed b.endAnonymousTextRun

theorem untimed_projectAll (updates : List SessionUpdate) :
    (projectAll p shown createdAt' updates).untimed =
      (projectAll p shown createdAt updates).untimed := by
  unfold projectAll
  induction updates using List.reverseRecOn with
  | nil => rfl
  | append_singleton updates update ih =>
    rw [List.foldl_append, List.foldl_append]
    simp only [List.foldl_cons, List.foldl_nil]
    rw [← untimed_project p shown createdAt' _ "", ih, untimed_project p shown createdAt _ ""]

end ReplayBuffer

/-! ## More history -/

open ReplayBuffer

theorem identities_messages (p : ReplayProjection) (shown : Shown) (createdAt createdAt' : String)
    (updates : List SessionUpdate) :
    (p.messages shown createdAt' updates).map (·.identity) =
      (p.messages shown createdAt updates).map (·.identity) := by
  have hsketches : (projectAll p shown createdAt' updates).messages.map sketch =
      (projectAll p shown createdAt updates).messages.map sketch := by
    have hrows := congrArg (fun b => b.messages.map sketch)
      (untimed_projectAll p shown createdAt createdAt' updates)
    simpa only [ReplayBuffer.untimed, List.map_map, Function.comp_def, sketch_untimed] using hrows
  simp only [ReplayProjection.messages, identities_finalizeFallbackIds, hsketches]

theorem untimed_finalizeFallbackIds (occurrences : Assoc (ReplayTextKind × UInt64) Nat) :
    (finalizeFallbackIds sessionId occurrences messages).map untimed =
      finalizeFallbackIds sessionId occurrences (messages.map untimed) := by
  induction messages generalizing occurrences with
  | nil => rfl
  | cons message rest ih =>
    have hkey : fallbackKey (untimed message) = fallbackKey message := by cases message <;> rfl
    simp only [finalizeFallbackIds, List.map_cons, hkey]
    cases fallbackKey message <;> simp only [List.map_cons, ih]
    cases message <;> rfl

/-- **A replay at another time differs in the times of its rows only.** -/
theorem messages_untimed (p : ReplayProjection) (shown : Shown) (createdAt createdAt' : String)
    (updates : List SessionUpdate) :
    (p.messages shown createdAt' updates).map untimed =
      (p.messages shown createdAt updates).map untimed := by
  simp only [ReplayProjection.messages, untimed_finalizeFallbackIds]
  exact congrArg (finalizeFallbackIds _ _ ·.messages)
    (untimed_projectAll p shown createdAt createdAt' updates)

/-- **Replayed identities are stable under more history.**  Whatever updates follow, every row of
the shorter replay has its place and its identity in the longer one, except a last row that is an
anonymous text run still open: provided that no later chunk belongs to a row whose id looks
anonymous. -/
theorem identities_stable (p : ReplayProjection) (shown : Shown) (createdAt createdAt' : String)
    (updates later : List SessionUpdate) (hunmarked : ∀ update ∈ later, update.Unmarked p.sessionId)
    (index : Nat) (hindex : index < (p.messages shown createdAt updates).length)
    (hopen : ¬(index + 1 = (p.messages shown createdAt updates).length ∧
      (projectAll p shown createdAt updates).activeAnonymousText.isSome)) :
    ((p.messages shown createdAt' (updates ++ later))[index]?).map (·.identity) =
      ((p.messages shown createdAt updates)[index]?).map (·.identity) := by
  have hlength : (p.messages shown createdAt updates).length =
      (projectAll p shown createdAt updates).messages.length := by
    have := congrArg List.length (identities_finalizeFallbackIds p.sessionId []
      (projectAll p shown createdAt updates).messages)
    simpa only [ReplayProjection.messages, List.length_map, length_finalIdentities] using this
  rw [hlength] at hindex hopen
  have hlater : projectAll p shown createdAt (updates ++ later) =
      later.foldl (project p shown createdAt) (projectAll p shown createdAt updates) :=
    List.foldl_append
  have hlocated : Located p.sessionId (projectAll p shown createdAt updates) :=
    located_projectAll updates
  rw [← List.getElem?_map, ← List.getElem?_map,
    identities_messages p shown createdAt createdAt' (updates ++ later), ReplayProjection.messages,
    ReplayProjection.messages, identities_finalizeFallbackIds, identities_finalizeFallbackIds,
    hlater]
  generalize projectAll p shown createdAt updates = b at hindex hopen hlocated
  have hrun : Settles b (later.foldl (project p shown createdAt) b) ∧
      b.shapes <+: (later.foldl (project p shown createdAt) b).shapes :=
    settles_run later hlocated hunmarked
  obtain ⟨hsettles, hshapes⟩ := hrun
  refine finalIdentities_getElem? (fun i hi => ?_) (by simpa using hindex)
  have hlt : i < b.messages.length := by omega
  -- the open row is the last, so no row up to `index` is open
  have hclosed : b.openIndex ≠ some i := by
    intro hopenIndex
    obtain ⟨run, hrun, hat⟩ := Option.map_eq_some_iff.mp hopenIndex
    obtain ⟨hlast, -⟩ := hlocated.openRun run hrun
    exact hopen ⟨by omega, by simp [hrun]⟩
  obtain ⟨message', hmessage', hkey⟩ :=
    hsettles.rows i b.messages[i] (List.getElem?_eq_getElem hlt) hclosed
  have hshape := getElem?_of_isPrefix hshapes
    (by rw [shapes, List.getElem?_map, List.getElem?_eq_getElem hlt, Option.map_some])
  rw [shapes, List.getElem?_map, hmessage', Option.map_some, Option.some.injEq] at hshape
  have hidentity : message'.identity = b.messages[i].identity := by
    rw [← rowShape_snd, hshape, rowShape_snd]
  rw [List.getElem?_map, List.getElem?_map, hmessage', List.getElem?_eq_getElem hlt]
  simp only [Option.map_some, sketch, hidentity, hkey]

/-- Rows that show nothing. -/
def Shown.nothing : Shown :=
  ⟨fun toolCall _ => toolCall, fun _ _ => false, fun _ _ => ⟨""⟩, fun _ => { kind := "other" },
    fun _ => ⟨""⟩, fun _ => ⟨""⟩⟩

/-- A question, a sourced answer and more of the answer: the answer keeps its identity. -/
theorem sourced_answer_keeps_identity :
    ((ReplayProjection.messages ⟨none, "session"⟩ .nothing "later"
        ([.userMessageChunk (.text "Hi") none, .agentMessageChunk (.text "Hel") (some "m1")] ++
          [.agentMessageChunk (.text "lo") (some "m1")]))[1]?).map (·.identity) =
      ((ReplayProjection.messages ⟨none, "session"⟩ .nothing "now"
        [.userMessageChunk (.text "Hi") none,
        .agentMessageChunk (.text "Hel") (some "m1")])[1]?).map (·.identity) :=
  identities_stable ⟨none, "session"⟩ .nothing "now" "later" _ _
    (by
      intro update hupdate
      rw [List.mem_singleton.mp hupdate]
      show containsReplay _ = false
      decide +kernel) 1 (by decide +kernel) (by decide +kernel)

/-- Neither the session `session` nor the ACP message id `replay:1` contains `:replay:`, but the id
of the row does: more text gives the row another identity. -/
theorem marked_source_changes_identity :
    containsReplay "session" = false ∧ containsReplay "replay:1" = false ∧
    (projectAll ⟨none, "session"⟩ .nothing "now"
      [.agentMessageChunk (.text "a") (some "replay:1")]).activeAnonymousText = none ∧
    ((ReplayProjection.messages ⟨none, "session"⟩ .nothing "now"
        ([.agentMessageChunk (.text "a") (some "replay:1")] ++
          [.agentMessageChunk (.text "b") (some "replay:1")]))[0]?).map (·.identity) ≠
      ((ReplayProjection.messages ⟨none, "session"⟩ .nothing "now"
        [.agentMessageChunk (.text "a") (some "replay:1")])[0]?).map (·.identity) := by
  decide +kernel

end OpenAide.Replay

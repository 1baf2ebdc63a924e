import OpenAide.Library.Keyed
import OpenAide.Storage.SplitCommit
import OpenAide.Tasks.Mutation

/-!
# From published changes to a storage delta

`tasks/mutation/commit/journal_operations.rs`: a mutation is journaled not as its draft but as the
rows that its published changes name.  The question is whether replaying that delta on the old
projection gives the draft.

The proof has two halves, each an exact account of a list after any prefix.

- `Tracks`: what the rows of a draft owe to the changes recorded so far.  Old rows come first and
  keep their keys; one that was only ever appended to is the old row with those texts; and the
  message ids of the rows are, first occurrences only, those of the old rows and then of the
  changes.
- `Replayed`: what the replay has rebuilt after the delta of a prefix of the changes.

Together: a replay that succeeds ends with the first row of each message id
(`replayed_eq_firsts`), and it succeeds unless a row clashes.  A draft with two rows of one message
id therefore loses the second one.
-/

namespace OpenAide

open Library Projection
open TaskMutationContext (draft upserted)

namespace CommittedChatChange

/-- The row a change names. -/
def messageId? : CommittedChatChange → Option String
  | append item => some item.messageId
  | upsert item => some item.messageId
  | appendText messageId _ => some messageId
  | replace => none

def appended? : CommittedChatChange → Option String
  | append item => some item.messageId
  | _ => none

def upserted? : CommittedChatChange → Option String
  | upsert item => some item.messageId
  | _ => none

end CommittedChatChange

open CommittedChatChange

namespace JournalOperations

/-! ## The delta -/

/-- One round of the loop of `journal_operations`: what it pushes, and the ids emitted so far. -/
def delta (projection : TaskProjection) (appended upserted emitted : List String)
    (change : CommittedChatChange) : Except RuntimeError (List TaskOperation × List String) :=
  match change.messageId? with
  | none => .error (.internal "replacement handled above")
  | some messageId =>
    match projection.messages.find? (·.chat.messageId = messageId) with
    | none =>
      .error (.internal "Committed Chat change is missing from its durable projection")
    | some stored =>
      if messageId ∈ appended then
        if messageId ∈ emitted then .ok ([], emitted)
        else .ok ([.appendMessage stored], messageId :: emitted)
      else if messageId ∈ upserted then
        if messageId ∈ emitted then .ok ([], emitted)
        else .ok ([.upsertMessage stored], messageId :: emitted)
      else
        match change with
        | .appendText _ text =>
          .ok ([.appendText stored.chat.identity text
            projection.messageMeta.localHistoryUpdatedAt none], emitted)
        | _ => .ok ([], emitted)

/-- The loop of `journal_operations`. -/
def deltas (projection : TaskProjection) (appended upserted : List String) :
    List String → List CommittedChatChange → Except RuntimeError (List TaskOperation)
  | _, [] => .ok []
  | emitted, change :: rest => do
    let (operations, emitted) ← delta projection appended upserted emitted change
    return operations ++ (← deltas projection appended upserted emitted rest)

/-- `journal_operations` (`journal_operations.rs:10`). -/
def journalOperations (projection : TaskProjection) (chat : List CommittedChatChange) :
    Except RuntimeError (List TaskOperation) :=
  if chat.isEmpty then .ok [.replaceTask projection.task]
  else if .replace ∈ chat then
    .ok [.replaceTask projection.task,
      .replaceMessages projection.messages projection.messageMeta]
  else do
    let operations ←
      deltas projection (chat.filterMap appended?) (chat.filterMap upserted?) [] chat
    return .replaceTask projection.task :: operations ++
      [.replaceMessageMeta projection.messageMeta]

section Recoverable

variable {projection : TaskProjection} {operations : List TaskOperation}

theorem journalOperations_replace {chat : List CommittedChatChange} (h : .replace ∈ chat) :
    journalOperations projection chat = .ok [.replaceTask projection.task,
      .replaceMessages projection.messages projection.messageMeta] := by
  rw [journalOperations, if_neg (by simpa using List.ne_nil_of_mem h), if_pos h]

theorem noProjection_delta {appended upserted emitted emitted' : List String}
    {change : CommittedChatChange}
    (h : delta projection appended upserted emitted change = .ok (operations, emitted')) :
    ∀ op ∈ operations, op.isReplaceProjection = false := by
  unfold delta at h
  split at h
  · cases h
  split at h
  · cases h
  split at h
  · split at h <;> cases h <;> simp [TaskOperation.isReplaceProjection]
  split at h
  · split at h <;> cases h <;> simp [TaskOperation.isReplaceProjection]
  · split at h <;> cases h <;> simp [TaskOperation.isReplaceProjection]

theorem noProjection_deltas {appended upserted emitted : List String}
    {changes : List CommittedChatChange}
    (h : deltas projection appended upserted emitted changes = .ok operations) :
    ∀ op ∈ operations, op.isReplaceProjection = false := by
  induction changes generalizing emitted operations with
  | nil =>
    cases h
    simp
  | cons change rest ih =>
    obtain ⟨⟨first, emitted'⟩, hfirst, h⟩ := bind_eq_ok.mp h
    obtain ⟨others, hothers, heq⟩ := bind_eq_ok.mp h
    cases heq
    exact List.forall_mem_append.mpr ⟨noProjection_delta hfirst, ih hothers⟩

theorem recoverable_journalOperations {changes : List CommittedChatChange}
    (h : journalOperations projection changes = .ok operations) :
    TaskOperation.recoverable operations := by
  unfold journalOperations at h
  split_ifs at h
  · cases h
    rfl
  · cases h
    rfl
  · obtain ⟨others, hothers, heq⟩ := bind_eq_ok.mp h
    cases heq
    refine TaskOperation.recoverable_of_noProjection ?_
    simp only [List.cons_append, List.forall_mem_cons, List.forall_mem_append]
    exact ⟨rfl, noProjection_deltas hothers, rfl, by simp⟩

end Recoverable

/-! ## What the changes say of the rows -/

/-- The ids that the changes name, in order. -/
def named (changes : List CommittedChatChange) : List String := changes.filterMap messageId?

/-- Whether a change publishes the whole row with the id. -/
def Published (changes : List CommittedChatChange) (id : String) : Prop :=
  id ∈ changes.filterMap appended? ∨ id ∈ changes.filterMap upserted?

instance (changes : List CommittedChatChange) (id : String) : Decidable (Published changes id) :=
  inferInstanceAs (Decidable (_ ∨ _))

/-- A row after the texts that one change appends to it. -/
def textChange (id : String) (row : StoredMessage) : CommittedChatChange → StoredMessage
  | .appendText messageId text => if messageId = id then appendToMessage text row else row
  | _ => row

/-- A row after all the texts the changes append to its id. -/
def texts (id : String) (changes : List CommittedChatChange) (row : StoredMessage) :
    StoredMessage :=
  changes.foldl (textChange id) row

@[simp] theorem named_append (xs ys : List CommittedChatChange) :
    named (xs ++ ys) = named xs ++ named ys := List.filterMap_append

theorem published_append {xs ys : List CommittedChatChange} {id : String} :
    Published (xs ++ ys) id ↔ Published xs id ∨ Published ys id := by
  simp only [Published, List.filterMap_append, List.mem_append]
  tauto

theorem texts_append (id : String) (xs ys : List CommittedChatChange) (row : StoredMessage) :
    texts id (xs ++ ys) row = texts id ys (texts id xs row) := List.foldl_append

theorem named_of_published {changes : List CommittedChatChange} {id : String}
    (h : Published changes id) : id ∈ named changes := by
  rcases h with h | h <;> obtain ⟨change, hmem, hid⟩ := List.mem_filterMap.mp h <;>
    refine List.mem_filterMap.mpr ⟨change, hmem, ?_⟩ <;> cases change <;>
    first | exact hid | cases hid

theorem texts_of_not_named {id : String} {changes : List CommittedChatChange}
    (h : id ∉ named changes) (row : StoredMessage) : texts id changes row = row := by
  induction changes generalizing row with
  | nil => rfl
  | cons change rest ih =>
    have hrest : id ∉ named rest := fun hmem =>
      h (by rw [← List.singleton_append, named_append]; exact List.mem_append_right _ hmem)
    have hchange : textChange id row change = row := by
      cases change with
      | appendText messageId text =>
        have hne : messageId ≠ id := fun heq =>
          h (List.mem_filterMap.mpr ⟨_, List.mem_cons_self, congrArg some heq⟩)
        exact if_neg hne
      | _ => rfl
    rw [texts, List.foldl_cons, hchange]
    exact ih hrest row

theorem alike_texts (id : String) (changes : List CommittedChatChange) (row : StoredMessage) :
    Alike (texts id changes row) row := by
  induction changes generalizing row with
  | nil => exact ⟨.refl row, Iff.rfl⟩
  | cons change rest ih =>
    have hchange : Alike (textChange id row change) row := by
      cases change with
      | appendText messageId text =>
        by_cases heq : messageId = id
        · simp only [textChange, if_pos heq]
          exact ⟨sameKeys_appendToMessage text row, endsInText_appendToMessage text row⟩
        · simp only [textChange, if_neg heq]
          exact ⟨.refl row, Iff.rfl⟩
      | _ => exact ⟨.refl row, Iff.rfl⟩
    have hrest := ih (textChange id row change)
    exact ⟨hrest.keys.trans hchange.keys, hrest.endsInText.trans hchange.endsInText⟩

/-! ## The rows of a draft -/

/-- What became of an old row: its keys stay, and unless a change published it whole, it is the old
row with the texts appended to it. -/
structure Kept (changes : List CommittedChatChange) (old row : StoredMessage) : Prop where
  keys : row.SameKeys old
  texts : ¬ Published changes old.chat.messageId →
    row = texts old.chat.messageId changes old ∧
      (old.chat.messageId ∈ named changes → old.EndsInText)

/-- What the rows of a draft owe to the old rows and the changes, none of them a replacement. -/
structure Tracks (old rows : List StoredMessage) (changes : List CommittedChatChange) : Prop where
  /-- Old rows first, then rows that a change published. -/
  split : ∃ kept added, rows = kept ++ added ∧ List.Forall₂ (Kept changes) old kept ∧
    ∀ row ∈ added, Published changes row.chat.messageId
  /-- New message ids come in the order in which the changes name them. -/
  ids : firsts id (rows.map (·.chat.messageId)) =
    firsts id (old.map (·.chat.messageId) ++ named changes)
  /-- A row under the identity of an earlier one was appended. -/
  identities : (rows.map fun row => (row.chat.identity, row.chat.messageId)).Pairwise fun a b =>
    a.1 = b.1 → b.2 ∈ changes.filterMap appended?

section Tracks

variable {old rows rows' : List StoredMessage} {changes more : List CommittedChatChange}

theorem tracks_refl (h : Distinct old) : Tracks old old [] where
  split := by
    refine ⟨old, [], by simp, List.forall₂_same.mpr fun row _ =>
      ⟨.refl row, fun _ => ⟨rfl, ?_⟩⟩, ?_⟩
    · exact fun hmem => (List.not_mem_nil hmem).elim
    · exact fun row hrow => (List.not_mem_nil hrow).elim
  ids := by simp [named]
  identities := by
    have hpairs : old.Pairwise fun a b => a.chat.identity ≠ b.chat.identity :=
      List.pairwise_map.mp h.identities
    exact List.pairwise_map.mpr (hpairs.imp fun hne heq => absurd heq hne)

theorem Kept.mono {old row : StoredMessage} (h : Kept changes old row)
    (hmore : ¬ Published (changes ++ more) old.chat.messageId → old.chat.messageId ∉ named more) :
    Kept (changes ++ more) old row := by
  refine ⟨h.keys, fun hpub => ?_⟩
  have hnamed := hmore hpub
  rw [published_append, not_or] at hpub
  obtain ⟨hrow, hends⟩ := h.texts hpub.1
  refine ⟨by rw [texts_append, texts_of_not_named hnamed, hrow], fun hmem => hends ?_⟩
  rw [named_append, List.mem_append] at hmem
  exact hmem.resolve_right hnamed

theorem published_mono {id : String} (h : Published changes id) : Published (changes ++ more) id :=
  published_append.mpr (.inl h)

theorem Tracks.concat (h : Tracks old rows changes) {stored : StoredMessage}
    {change : CommittedChatChange} (hid : change.messageId? = some stored.chat.messageId)
    (hpub : Published [change] stored.chat.messageId)
    (hidentity : change.appended? = some stored.chat.messageId ∨
      stored.chat.identity ∉ rows.map (·.chat.identity)) :
    Tracks old (rows ++ [stored]) (changes ++ [change]) := by
  have hnamed : named [change] = [stored.chat.messageId] := by simp [named, hid]
  constructor
  · obtain ⟨kept, added, rfl, hkept, hadded⟩ := h.split
    have hmono : ∀ a b, Kept changes a b → Kept (changes ++ [change]) a b := fun a b hab =>
      hab.mono fun hnot hmem => hnot (published_append.mpr
        (.inr (List.mem_singleton.mp (hnamed ▸ hmem) ▸ hpub)))
    refine ⟨kept, added ++ [stored], List.append_assoc .., hkept.imp hmono, ?_⟩
    · intro row hrow
      rcases List.mem_append.mp hrow with hrow | hrow
      · exact published_mono (hadded row hrow)
      · rw [List.mem_singleton.mp hrow]
        exact published_append.mpr (.inr hpub)
  · rw [List.map_append, List.map_singleton, named_append, hnamed, ← List.append_assoc]
    exact firsts_append_congr h.ids _
  · rw [List.map_append, List.map_singleton, List.filterMap_append]
    refine List.pairwise_append.mpr
      ⟨h.identities.imp fun hab heq => ?_, List.pairwise_singleton _ _, fun a ha b hb heq => ?_⟩
    · exact List.mem_append_left _ (hab heq)
    · rw [List.mem_singleton.mp hb] at heq ⊢
      rcases hidentity with happended | habsent
      · exact List.mem_append_right _ (List.mem_filterMap.mpr ⟨change, by simp, happended⟩)
      · obtain ⟨row, hrow, rfl⟩ := List.mem_map.mp ha
        exact absurd (List.mem_map.mpr ⟨row, hrow, heq⟩) habsent

theorem Tracks.keys_congr (h : Tracks old rows changes)
    (hkeys : List.Forall₂ StoredMessage.SameKeys rows' rows)
    (hmore : ∀ id ∈ named more, id ∈ rows.map (·.chat.messageId)) :
    firsts id (rows'.map (·.chat.messageId)) =
        firsts id (old.map (·.chat.messageId) ++ named (changes ++ more)) ∧
      (rows'.map fun row => (row.chat.identity, row.chat.messageId)).Pairwise fun a b =>
        a.1 = b.1 → b.2 ∈ (changes ++ more).filterMap appended? := by
  constructor
  · rw [(keys_eq hkeys).2.2, named_append, ← List.append_assoc, ← firsts_append_congr h.ids,
      firsts_append_subset hmore]
  · have hpairs : (rows'.map fun row => (row.chat.identity, row.chat.messageId)) =
        rows.map fun row => (row.chat.identity, row.chat.messageId) :=
      map_eq_of_forall₂ (hkeys.imp fun _ _ hab => by rw [hab.identity, hab.messageId])
    rw [hpairs, List.filterMap_append]
    exact h.identities.imp fun hab heq => List.mem_append_left _ (hab heq)

theorem named_upserted (changed : List StoredMessage) :
    named (changed.map upserted) = changed.map (·.chat.messageId) := by
  induction changed with
  | nil => rfl
  | cons c rest ih => exact congrArg (c.chat.messageId :: ·) ih

theorem published_upserted {changed : List StoredMessage} {id : String}
    (h : id ∈ changed.map (·.chat.messageId)) : Published (changed.map upserted) id := by
  obtain ⟨c, hc, rfl⟩ := List.mem_map.mp h
  exact .inr (List.mem_filterMap.mpr ⟨_, List.mem_map_of_mem hc, rfl⟩)

theorem published_of_sameKeys {added added' : List StoredMessage}
    (h : ∀ row ∈ added, Published changes row.chat.messageId)
    (hkeys : List.Forall₂ StoredMessage.SameKeys added' added) :
    ∀ row ∈ added', Published (changes ++ more) row.chat.messageId := by
  intro row' hrow'
  have hmem : row'.chat.messageId ∈ added.map (·.chat.messageId) := by
    rw [← (keys_eq hkeys).2.2]
    exact List.mem_map_of_mem hrow'
  obtain ⟨row, hrow, heq⟩ := List.mem_map.mp hmem
  exact heq ▸ published_mono (h row hrow)

theorem Tracks.rewrite (h : Tracks old rows changes) {changed : List StoredMessage}
    (hrows : Rewritten (changed.map (·.chat.messageId)) rows rows')
    (hmem : ∀ c ∈ changed, c ∈ rows') : Tracks old rows' (changes ++ changed.map upserted) := by
  have hkeys : List.Forall₂ StoredMessage.SameKeys rows' rows :=
    (hrows.imp fun _ _ hab => hab.1).flip
  have hpresent : ∀ id ∈ named (changed.map upserted),
      id ∈ rows.map (·.chat.messageId) := by
    rw [named_upserted, ← (keys_eq hkeys).2.2]
    rintro id hid
    obtain ⟨c, hc, rfl⟩ := List.mem_map.mp hid
    exact List.mem_map_of_mem (hmem c hc)
  obtain ⟨hids, hidentities⟩ := h.keys_congr hkeys hpresent
  refine ⟨?_, hids, hidentities⟩
  obtain ⟨kept, added, rfl, hkept, hadded⟩ := h.split
  obtain ⟨kept', added', rfl, hkept', hadded'⟩ := forall₂_append_left hrows
  refine ⟨kept', added', rfl, forall₂_comp ?_ hkept hkept', ?_⟩
  · -- a row that is not published was not rewritten
    rintro a b c hab ⟨hbc, hsame⟩
    have hab' : Kept (changes ++ changed.map upserted) a b :=
      hab.mono fun hnot hnamed => hnot (published_append.mpr
        (.inr (published_upserted (named_upserted changed ▸ hnamed))))
    refine ⟨hbc.trans hab.keys, fun hpub => ?_⟩
    have hnot : b.chat.messageId ∉ changed.map (·.chat.messageId) := fun hmem =>
      hpub (published_append.mpr (.inr (published_upserted (hab.keys.messageId ▸ hmem))))
    rw [hsame hnot]
    exact hab'.texts hpub
  · exact published_of_sameKeys hadded ((hadded'.imp fun _ _ hab => hab.1).flip)

theorem Tracks.text (hold : Distinct old) (h : Tracks old rows changes) {identity : String}
    {stored : StoredMessage} (text : String)
    (found : rows.find? (·.chat.identity = identity) = some stored) (ends : stored.EndsInText) :
    Tracks old (updateFirst identity (appendToMessage text) rows)
      (changes ++ [.appendText stored.chat.messageId text]) := by
  have hpresent : ∀ id ∈ named [.appendText stored.chat.messageId text],
      id ∈ rows.map (·.chat.messageId) := by
    intro id hid
    rw [List.mem_singleton.mp hid]
    exact List.mem_map_of_mem (List.mem_of_find?_eq_some found)
  obtain ⟨hids, hidentities⟩ := h.keys_congr
    (sameKeys_updateFirst (sameKeys_appendToMessage text) rows identity) hpresent
  refine ⟨?_, hids, hidentities⟩
  obtain ⟨kept, added, rfl, hkept, hadded⟩ := h.split
  rw [List.find?_append] at found
  rw [updateFirst_append]
  cases hfind : kept.find? (·.chat.identity = identity) with
  | some row =>
    -- an old row: the only one with its identity, and the only one with its message id
    obtain rfl : row = stored := by simpa [hfind] using found
    have hrow : row ∈ kept := List.mem_of_find?_eq_some hfind
    have hidentity : row.chat.identity = identity := by simpa using List.find?_some hfind
    have hkeys : List.Forall₂ StoredMessage.SameKeys kept old :=
      (hkept.imp fun _ _ hab => hab.keys).flip
    have hdistinct : Distinct kept := distinct_of_sameKeys hkeys hold
    refine ⟨_, added, if_pos rfl, ?_, fun r hr => published_mono (hadded r hr)⟩
    rw [updateFirst_eq_map hdistinct.identities, List.forall₂_map_right_iff]
    refine List.forall₂_iff_zip.mpr ⟨hkept.length_eq, fun {a b} hmem => ?_⟩
    have hab : Kept changes a b := (List.forall₂_iff_zip.mp hkept).2 hmem
    have hb : b ∈ kept := (List.of_mem_zip hmem).2
    by_cases heq : b.chat.identity = identity
    · obtain rfl : b = row :=
        List.inj_on_of_nodup_map hdistinct.identities hb hrow (heq.trans hidentity.symm)
      rw [if_pos heq]
      refine ⟨(sameKeys_appendToMessage text b).trans hab.keys, fun hpub => ?_⟩
      obtain ⟨htexts, -⟩ := hab.texts fun hpub' => hpub (published_mono hpub')
      refine ⟨?_, fun _ => (alike_texts _ changes a).endsInText.mp (htexts ▸ ends)⟩
      rw [texts_append, ← htexts]
      exact (if_pos hab.keys.messageId).symm
    · rw [if_neg heq]
      refine hab.mono fun _ hnamed => heq ?_
      have hid : b.chat.messageId = row.chat.messageId :=
        hab.keys.messageId.trans (List.mem_singleton.mp hnamed)
      rw [List.inj_on_of_nodup_map hdistinct.messageIds hb hrow hid, hidentity]
  | none =>
    -- a new row: published whole, so no text of it is an old row's
    have hstored : stored ∈ added := by
      rw [hfind] at found
      exact List.mem_of_find?_eq_some found
    refine ⟨kept, _, if_neg (by simp), hkept.imp fun a b hab => hab.mono fun hpub hnamed => ?_,
      published_of_sameKeys hadded
        (sameKeys_updateFirst (sameKeys_appendToMessage text) added identity)⟩
    refine hpub (published_mono ?_)
    rw [List.mem_singleton.mp hnamed]
    exact hadded stored hstored

/-- **One operation keeps track**, as long as the Chat is not replaced. -/
theorem Tracks.step (hold : Distinct old) (h : Tracks old rows changes)
    (hchange : RowChange rows rows' more) (hreplace : .replace ∉ more) :
    Tracks old rows' (changes ++ more) := by
  cases hchange with
  | append stored =>
    exact h.concat rfl (.inl (List.mem_singleton_self _)) (.inl rfl)
  | insert stored absent =>
    exact h.concat rfl (.inr (List.mem_singleton_self _)) (.inr absent)
  | rewrite changed rewritten present => exact h.rewrite rewritten present
  | text text found ends => exact h.text hold text found ends
  | replace rows' => exact absurd (List.mem_singleton_self _) hreplace

end Tracks

/-- What a draft has become of a projection. -/
structure DraftOf (p : TaskProjection) (ctx : TaskMutationContext) : Prop where
  heads : ctx.projection.artifactHeads = p.artifactHeads
  idle : ctx.chatChanges = [] → ctx.projection.chat = p.chat
  tracks : .replace ∉ ctx.chatChanges →
    Tracks p.messages ctx.projection.messages ctx.chatChanges

theorem DraftOf.step {p : TaskProjection} (hp : Distinct p.messages)
    {ctx ctx' : TaskMutationContext} (h : DraftOf p ctx) (hstep : Drafts ctx ctx') :
    DraftOf p ctx' := by
  cases hstep with
  | idle hchat hchanges =>
    have hmessages : ctx'.projection.messages = ctx.projection.messages :=
      congrArg Chat.messages hchat
    have hheads : ctx'.projection.artifactHeads = ctx.projection.artifactHeads :=
      congrArg Chat.artifactHeads hchat
    refine ⟨hheads.trans h.heads, fun hnil => hchat.trans (h.idle (hchanges ▸ hnil)),
      fun hreplace => ?_⟩
    rw [hmessages, hchanges]
    exact h.tracks (hchanges ▸ hreplace)
  | recorded hrows hne hchanges hheads =>
    refine ⟨hheads.trans h.heads, fun hnil => ?_, fun hreplace => ?_⟩
    · rw [hchanges, List.append_eq_nil_iff] at hnil
      exact absurd hnil.2 hne
    · rw [hchanges, List.mem_append, not_or] at hreplace
      rw [hchanges]
      exact (h.tracks hreplace.1).step hp hrows hreplace.2

variable {p : TaskProjection}

/-- **A whole mutation keeps track.** -/
theorem draftOf_draft (hp : Distinct p.messages)
    (mutations : List TaskMutation) : DraftOf p (draft p mutations) := by
  have hrun : ∀ ctx, DraftOf p ctx →
      DraftOf p (mutations.foldl TaskMutationContext.perform ctx) := by
    induction mutations with
    | nil => exact fun ctx h => h
    | cons mutation rest ih =>
      exact fun ctx h => ih _ (h.step hp (Mutation.drafts_perform ctx mutation))
  exact hrun _ ⟨rfl, fun _ => rfl, fun _ => tracks_refl hp⟩

/-! ## Looking the changed rows up -/

section Lookup

variable {old rows : List StoredMessage} {all : List CommittedChatChange}

theorem Tracks.find_old (hold : Distinct old) (h : Tracks old rows all) {a : StoredMessage}
    (ha : a ∈ old) :
    ∃ b, rows.find? (·.chat.messageId = a.chat.messageId) = some b ∧ Kept all a b := by
  obtain ⟨kept, added, rfl, hkept, -⟩ := h.split
  have hkeys : List.Forall₂ StoredMessage.SameKeys kept old :=
    (hkept.imp fun _ _ hab => hab.keys).flip
  obtain ⟨b, hb, hab⟩ : ∃ b ∈ kept, Kept all a b := by
    obtain ⟨i, hi, rfl⟩ := List.getElem_of_mem ha
    have hi' : i < kept.length := hkept.length_eq ▸ hi
    exact ⟨kept[i], List.getElem_mem hi', hkept.get hi hi'⟩
  refine ⟨b, ?_, hab⟩
  rw [List.find?_append, ← hab.keys.messageId,
    find?_key (distinct_of_sameKeys hkeys hold).messageIds hb, Option.some_or]

theorem Tracks.find_named (h : Tracks old rows all) {m : String} (hm : m ∈ named all) :
    ∃ row, rows.find? (·.chat.messageId = m) = some row ∧ row.chat.messageId = m := by
  have hmem : m ∈ rows.map (·.chat.messageId) := by
    rw [← mem_firsts_id, h.ids, mem_firsts_id]
    exact List.mem_append_right _ hm
  obtain ⟨row, hrow, heq⟩ := List.mem_map.mp hmem
  obtain ⟨found, hfound⟩ := Option.isSome_iff_exists.mp
    (List.find?_isSome.mpr ⟨row, hrow, decide_eq_true heq⟩ :
      (rows.find? (·.chat.messageId = m)).isSome)
  exact ⟨found, hfound, by simpa using List.find?_some hfound⟩

theorem Tracks.old_of_not_published (h : Tracks old rows all) {row : StoredMessage}
    (hrow : row ∈ rows) (hpub : ¬ Published all row.chat.messageId) :
    ∃ a ∈ old, Kept all a row := by
  obtain ⟨kept, added, rfl, hkept, hadded⟩ := h.split
  have hrow : row ∈ kept :=
    (List.mem_append.mp hrow).resolve_right fun hrow => hpub (hadded row hrow)
  obtain ⟨i, hi, rfl⟩ := List.getElem_of_mem hrow
  have hi' : i < old.length := hkept.length_eq ▸ hi
  exact ⟨old[i], List.getElem_mem hi', hkept.get hi' hi⟩

end Lookup

/-! ## The replay -/

/-- What replaying the delta of the first changes, `done`, has made of the old rows. -/
structure Replayed (old rows : List StoredMessage) (all done : List CommittedChatChange)
    (replay : List StoredMessage) : Prop where
  ids : replay.map (·.chat.messageId) = firsts id (old.map (·.chat.messageId) ++ named done)
  written : ∀ row ∈ replay, Published all row.chat.messageId → row.chat.messageId ∈ named done →
    rows.find? (·.chat.messageId = row.chat.messageId) = some row
  pending : ∀ row ∈ replay, ¬ (Published all row.chat.messageId ∧ row.chat.messageId ∈ named done) →
    ∃ a ∈ old, row = texts a.chat.messageId done a
  distinct : Distinct replay
  fresh : ∀ m ∈ named done, m ∈ all.filterMap appended? → m ∉ old.map (·.chat.messageId)

namespace Replayed

variable {old rows replay : List StoredMessage} {all done : List CommittedChatChange}

theorem start (hold : Distinct old) : Replayed old rows all [] old where
  ids := by
    rw [named, List.filterMap_nil, List.append_nil]
    exact (firsts_eq_self (by simpa using hold.messageIds)).symm
  written := fun _ _ _ hmem => (List.not_mem_nil hmem).elim
  pending := fun row hrow _ => ⟨row, hrow, rfl⟩
  distinct := hold
  fresh := fun _ hmem => (List.not_mem_nil hmem).elim

theorem mem_ids (h : Replayed old rows all done replay) {m : String} :
    m ∈ replay.map (·.chat.messageId) ↔ m ∈ old.map (·.chat.messageId) ∨ m ∈ named done := by
  rw [h.ids, mem_firsts_id, List.mem_append]

theorem find_row (hold : Distinct old) (htracks : Tracks old rows all)
    (h : Replayed old rows all done replay) {row : StoredMessage} (hrow : row ∈ replay) :
    ∃ final, rows.find? (·.chat.messageId = row.chat.messageId) = some final ∧
      final.SameKeys row := by
  by_cases hcase : Published all row.chat.messageId ∧ row.chat.messageId ∈ named done
  · exact ⟨row, h.written row hrow hcase.1 hcase.2, .refl row⟩
  · obtain ⟨a, ha, rfl⟩ := h.pending row hrow hcase
    have hkeys := (alike_texts a.chat.messageId done a).keys
    obtain ⟨b, hb, hkept⟩ := htracks.find_old hold ha
    exact ⟨b, by rw [hkeys.messageId, hb], hkept.keys.trans hkeys.symm⟩

/-- **A replay of all the changes leaves the first row of each message id.** -/
theorem eq_firsts (hold : Distinct old) (htracks : Tracks old rows all)
    (h : Replayed old rows all all replay) : replay = firsts (·.chat.messageId) rows := by
  refine eq_of_keys (·.chat.messageId) (fun m => rows.find? (·.chat.messageId = m)) ?_ ?_ ?_
  · rw [h.ids, map_firsts, htracks.ids]
  · intro row hrow
    by_cases hpub : Published all row.chat.messageId
    · exact h.written row hrow hpub (named_of_published hpub)
    · obtain ⟨a, ha, rfl⟩ := h.pending row hrow fun hcase => hpub hcase.1
      have hkeys := (alike_texts a.chat.messageId all a).keys
      obtain ⟨b, hb, hkept⟩ := htracks.find_old hold ha
      rw [hkeys.messageId] at hpub ⊢
      rw [hb, (hkept.texts hpub).1]
  · exact fun row hrow => mem_firsts_iff.mp hrow

variable {change : CommittedChatChange}

theorem skip (h : Replayed old rows all done replay) {m : String}
    (hid : change.messageId? = some m) (hpub : Published all m) (hdone : m ∈ named done) :
    Replayed old rows all (done ++ [change]) replay := by
  have hnamed : named [change] = [m] := by simp [named, hid]
  have hmem : ∀ k, k ∈ named (done ++ [change]) ↔ k ∈ named done := by
    intro k
    rw [named_append, hnamed, List.mem_append, List.mem_singleton]
    exact ⟨fun hk => hk.elim id (· ▸ hdone), .inl⟩
  refine ⟨?_, fun row hrow hp hk => h.written row hrow hp ((hmem _).mp hk), ?_, h.distinct,
    fun k hk => h.fresh k ((hmem k).mp hk)⟩
  · rw [named_append, hnamed, ← List.append_assoc,
      firsts_append_subset (by simpa using Or.inr hdone), h.ids]
  · intro row hrow hcase
    rw [hmem] at hcase
    obtain ⟨a, ha, rfl⟩ := h.pending row hrow hcase
    have hkey := (alike_texts a.chat.messageId done a).keys.messageId
    -- the change is about another row, since this one is still pending
    have hother : a.chat.messageId ∉ named [change] := fun hin => by
      rw [hnamed, List.mem_singleton] at hin
      rw [hkey, hin] at hcase
      exact hcase ⟨hpub, hdone⟩
    exact ⟨a, ha, by rw [texts_append, texts_of_not_named hother]⟩

theorem push (h : Replayed old rows all done replay)
    {stored : StoredMessage} (hid : change.messageId? = some stored.chat.messageId)
    (hpub : Published all stored.chat.messageId)
    (hfound : rows.find? (·.chat.messageId = stored.chat.messageId) = some stored)
    (happend : validateMessageAppend replay stored = .ok ()) :
    Replayed old rows all (done ++ [change]) (replay ++ [stored]) := by
  have hnamed : named [change] = [stored.chat.messageId] := by simp [named, hid]
  obtain ⟨-, -, hnew⟩ := validateMessageAppend_eq_ok_iff.mp happend
  have hnew' := hnew
  rw [h.mem_ids, not_or] at hnew'
  have hne : ∀ row ∈ replay, row.chat.messageId ≠ stored.chat.messageId := fun row hrow heq =>
    hnew (heq ▸ List.mem_map_of_mem hrow)
  have hmem : ∀ row ∈ replay,
      (row.chat.messageId ∈ named (done ++ [change]) ↔ row.chat.messageId ∈ named done) := by
    intro row hrow
    rw [named_append, hnamed, List.mem_append, List.mem_singleton]
    exact ⟨fun hk => hk.resolve_right (hne row hrow), .inl⟩
  refine ⟨?_, ?_, ?_, distinct_append h.distinct happend, ?_⟩
  · rw [List.map_append, List.map_singleton, h.ids, named_append, hnamed, ← List.append_assoc,
      firsts_concat_new (by simpa using hnew')]
  · intro row hrow hp hk
    rcases List.mem_append.mp hrow with hrow | hrow
    · exact h.written row hrow hp ((hmem row hrow).mp hk)
    · rw [List.mem_singleton.mp hrow]
      exact hfound
  · intro row hrow hcase
    rcases List.mem_append.mp hrow with hrow | hrow
    · rw [hmem row hrow] at hcase
      obtain ⟨a, ha, rfl⟩ := h.pending row hrow hcase
      have hother : a.chat.messageId ∉ named [change] := fun hin => by
        rw [hnamed, List.mem_singleton] at hin
        exact hne _ hrow ((alike_texts a.chat.messageId done a).keys.messageId.trans hin)
      exact ⟨a, ha, by rw [texts_append, texts_of_not_named hother]⟩
    · rw [List.mem_singleton.mp hrow] at hcase
      refine absurd ⟨hpub, ?_⟩ hcase
      rw [named_append, hnamed]
      exact List.mem_append_right _ (List.mem_singleton_self _)
  · intro k hk hin
    rw [named_append, hnamed, List.mem_append, List.mem_singleton] at hk
    rcases hk with hk | rfl
    · exact h.fresh k hk hin
    · exact hnew'.1

theorem alter (h : Replayed old rows all done replay)
    {row : StoredMessage} (hrow : row ∈ replay) (hid : change.messageId? = some row.chat.messageId)
    (hnew : row.chat.messageId ∉ all.filterMap appended?) {f : StoredMessage → StoredMessage}
    (hkeys : (f row).SameKeys row)
    (hwritten : Published all row.chat.messageId →
      rows.find? (·.chat.messageId = row.chat.messageId) = some (f row))
    (htext : ¬ Published all row.chat.messageId → f row = textChange row.chat.messageId row change)
    :
    Replayed old rows all (done ++ [change]) (updateFirst row.chat.identity f replay) := by
  have hnamed : named [change] = [row.chat.messageId] := by simp [named, hid]
  rw [updateFirst_eq_map h.distinct.identities]
  have hself : ∀ r ∈ replay, r.chat.identity = row.chat.identity → r = row := fun r hr heq =>
    List.inj_on_of_nodup_map h.distinct.identities hr hrow heq
  have hsame : List.Forall₂ StoredMessage.SameKeys
      (replay.map fun r => if r.chat.identity = row.chat.identity then f r else r) replay := by
    refine sameKeys_map fun r hr => ?_
    split
    · rename_i heq
      rw [hself r hr heq]
      exact hkeys
    · exact .refl r
  -- every other row has another message id, so the change says nothing of it
  have hother : ∀ r ∈ replay, r.chat.identity ≠ row.chat.identity →
      r.chat.messageId ∉ named [change] := by
    intro r hr hne hin
    rw [hnamed, List.mem_singleton] at hin
    exact hne (by rw [List.inj_on_of_nodup_map h.distinct.messageIds hr hrow hin])
  refine ⟨?_, ?_, ?_, distinct_of_sameKeys hsame h.distinct, ?_⟩
  · rw [(keys_eq hsame).2.2, named_append, hnamed, ← List.append_assoc, firsts_append_subset, h.ids]
    intro k hk
    rw [List.mem_singleton.mp hk, List.mem_append]
    exact h.mem_ids.mp (List.mem_map_of_mem hrow)
  · intro r' hr' hpub hk
    obtain ⟨r, hr, rfl⟩ := List.mem_map.mp hr'
    by_cases heq : r.chat.identity = row.chat.identity
    · obtain rfl := hself r hr heq
      simp only [if_true] at hpub ⊢
      rw [hkeys.messageId] at hpub ⊢
      exact hwritten hpub
    · simp only [if_neg heq] at hpub hk ⊢
      rw [named_append, List.mem_append] at hk
      exact h.written r hr hpub (hk.resolve_right (hother r hr heq))
  · intro r' hr' hcase
    obtain ⟨r, hr, rfl⟩ := List.mem_map.mp hr'
    by_cases heq : r.chat.identity = row.chat.identity
    · obtain rfl := hself r hr heq
      simp only [if_true] at hcase ⊢
      rw [hkeys.messageId] at hcase
      have hpub : ¬ Published all r.chat.messageId := fun hpub =>
        hcase ⟨hpub, by rw [named_append, hnamed]; simp⟩
      obtain ⟨a, ha, hra⟩ := h.pending r hr fun hp => hpub hp.1
      have hida : r.chat.messageId = a.chat.messageId := by
        rw [hra, (alike_texts a.chat.messageId done a).keys.messageId]
      refine ⟨a, ha, ?_⟩
      rw [htext hpub, texts_append, hida, ← hra]
      rfl
    · simp only [if_neg heq] at hcase ⊢
      obtain ⟨a, ha, hra⟩ := h.pending r hr fun hp =>
        hcase ⟨hp.1, by rw [named_append]; exact List.mem_append_left _ hp.2⟩
      have hida : r.chat.messageId = a.chat.messageId := by
        rw [hra, (alike_texts a.chat.messageId done a).keys.messageId]
      exact ⟨a, ha, by rw [texts_append, texts_of_not_named (hida ▸ hother r hr heq), ← hra]⟩
  · intro k hk hin
    rw [named_append, hnamed, List.mem_append, List.mem_singleton] at hk
    rcases hk with hk | rfl
    · exact h.fresh k hk hin
    · exact absurd hin hnew

end Replayed

/-- The replay meets no clash: no appended id is an old row's, and the first rows of the draft are
told apart. -/
structure ConflictFree (old rows : List StoredMessage) (all : List CommittedChatChange) : Prop where
  fresh : ∀ m ∈ all.filterMap appended?, m ∉ old.map (·.chat.messageId)
  distinct : Distinct (firsts (·.chat.messageId) rows)

namespace Replayed

variable {old rows replay : List StoredMessage} {all done rest : List CommittedChatChange}
  {stored : StoredMessage} (hold : Distinct old) (htracks : Tracks old rows all)
  (h : Replayed old rows all done replay)
  (hfound : rows.find? (·.chat.messageId = stored.chat.messageId) = some stored)
  (hnew : stored.chat.messageId ∉ replay.map (·.chat.messageId))
include hold htracks h hfound hnew

theorem validateMessageAppend_new (hfree : ConflictFree old rows all) :
    validateMessageAppend replay stored = .ok () := by
  have hstored : stored ∈ firsts (·.chat.messageId) rows := mem_firsts_iff.mpr hfound
  -- a replayed row that shared a key would be the stored row itself
  have hapart : ∀ row ∈ replay, row.sequence ≠ stored.sequence ∧
      row.chat.identity ≠ stored.chat.identity := by
    intro row hrow
    obtain ⟨final, hfinal, hkeys⟩ := h.find_row hold htracks hrow
    rw [← hkeys.messageId] at hfinal
    have hmem : final ∈ firsts (·.chat.messageId) rows := mem_firsts_iff.mpr hfinal
    have hne : final ≠ stored := by
      rintro rfl
      exact hnew (hkeys.messageId ▸ List.mem_map_of_mem hrow)
    constructor
    · intro heq
      exact hne (List.inj_on_of_nodup_map hfree.distinct.sequences hmem hstored
        (hkeys.sequence.trans heq))
    · intro heq
      exact hne (List.inj_on_of_nodup_map hfree.distinct.identities hmem hstored
        (hkeys.identity.trans heq))
  refine validateMessageAppend_eq_ok_iff.mpr ⟨fun hin => ?_, fun hin => ?_, hnew⟩
  · obtain ⟨row, hrow, heq⟩ := List.mem_map.mp hin
    exact (hapart row hrow).1 heq
  · obtain ⟨row, hrow, heq⟩ := List.mem_map.mp hin
    exact (hapart row hrow).2 heq

theorem identity_absent (hall : all = done ++ rest)
    (hinserted : stored.chat.messageId ∉ all.filterMap appended?) :
    stored.chat.identity ∉ replay.map (·.chat.identity) := by
  intro hin
  obtain ⟨row, hrow, heq⟩ := List.mem_map.mp hin
  obtain ⟨final, hfinal, hkeys⟩ := h.find_row hold htracks hrow
  rw [← hkeys.messageId] at hfinal
  obtain ⟨more, hmore⟩ := firsts_append_left (old.map (·.chat.messageId) ++ named done) (named rest)
  have hids : (firsts (·.chat.messageId) rows).map (·.chat.messageId) =
      replay.map (·.chat.messageId) ++ more := by
    rw [map_firsts, htracks.ids, hall, named_append, ← List.append_assoc, hmore, h.ids]
  obtain ⟨before, behind, hsplit, hbefore, -⟩ := List.map_eq_append_iff.mp hids
  have hwhere : ∀ x, rows.find? (·.chat.messageId = x.chat.messageId) = some x →
      x ∈ before ∨ x ∈ behind := fun x hx => by
    rw [← List.mem_append, ← hsplit]
    exact mem_firsts_iff.mpr hx
  have hstored : stored ∈ behind := (hwhere stored hfound).resolve_left fun hx =>
    hnew (hbefore ▸ List.mem_map_of_mem hx)
  have hnodup : ((before ++ behind).map (·.chat.messageId)).Nodup :=
    hsplit ▸ nodup_map_firsts _ rows
  have hfinal' : final ∈ before := by
    refine (hwhere final hfinal).resolve_right fun hx => ?_
    rw [List.map_append, hbefore] at hnodup
    exact (List.nodup_append.mp hnodup).2.2 _ (hkeys.messageId ▸ List.mem_map_of_mem hrow) _
      (List.mem_map_of_mem hx) rfl
  have hpairs : (before ++ behind).Pairwise fun a b =>
      a.chat.identity = b.chat.identity → b.chat.messageId ∈ all.filterMap appended? := by
    rw [← hsplit]
    exact (List.pairwise_map.mp htracks.identities).sublist (firsts_sublist _ rows)
  exact hinserted ((List.pairwise_append.mp hpairs).2.2 final hfinal' stored hstored
    (hkeys.identity.trans heq))

end Replayed

/-! ## One change, then all of them -/

/-- What operations do to a replay: row operations only; where they apply, the next replay; and
without a clash they apply. -/
structure Advances (taskId : String) (old rows : List StoredMessage)
    (all done next : List CommittedChatChange) (operations : List TaskOperation) : Prop where
  rowOperations : ∀ op ∈ operations, op.changesHistory = true
  replayed : ∀ c c' : Chat, Replayed old rows all done c.messages →
    operations.foldlM (editChat taskId) c = .ok c' →
      Replayed old rows all next c'.messages ∧ c'.artifactHeads = c.artifactHeads
  applies : ∀ c : Chat, Replayed old rows all done c.messages → ConflictFree old rows all →
    ∃ c', operations.foldlM (editChat taskId) c = .ok c'

section Step

variable {taskId : String} {old rows : List StoredMessage}
  {all done next rest : List CommittedChatChange} {change : CommittedChatChange}

theorem foldlM_singleton (c : Chat) (op : TaskOperation) :
    [op].foldlM (editChat taskId) c = editChat taskId c op := by
  rw [List.foldlM_cons]
  exact bind_pure _

theorem advances_skip {m : String} (hid : change.messageId? = some m) (hpub : Published all m)
    (hdone : m ∈ named done) : Advances taskId old rows all done (done ++ [change]) [] where
  rowOperations := fun _ hop => (List.not_mem_nil hop).elim
  replayed := by
    intro c c' h hc
    cases hc
    exact ⟨h.skip hid hpub hdone, rfl⟩
  applies := fun c _ _ => ⟨c, rfl⟩

section Found

variable {stored : StoredMessage} (hold : Distinct old) (htracks : Tracks old rows all)
  (hfound : rows.find? (·.chat.messageId = stored.chat.messageId) = some stored)
include hold htracks hfound

theorem advances_append (hid : change.messageId? = some stored.chat.messageId)
    (happended : stored.chat.messageId ∈ all.filterMap appended?)
    (hdone : stored.chat.messageId ∉ named done) :
    Advances taskId old rows all done (done ++ [change]) [.appendMessage stored] where
  rowOperations := by simp [TaskOperation.changesHistory]
  replayed := by
    intro c c' h hc
    rw [foldlM_singleton] at hc
    obtain ⟨⟨⟩, happend, heq⟩ := bind_eq_ok.mp hc
    cases heq
    exact ⟨h.push hid (.inl happended) hfound happend, rfl⟩
  applies := by
    intro c h hfree
    have hnew : stored.chat.messageId ∉ c.messages.map (·.chat.messageId) := by
      rw [h.mem_ids, not_or]
      exact ⟨hfree.fresh _ happended, hdone⟩
    have happend := h.validateMessageAppend_new hold htracks hfound hnew hfree
    rw [foldlM_singleton]
    exact ⟨_, bind_eq_ok.mpr ⟨(), happend, rfl⟩⟩

theorem advances_upsert (hall : all = done ++ rest)
    (hid : change.messageId? = some stored.chat.messageId)
    (hupserted : stored.chat.messageId ∈ all.filterMap upserted?)
    (happended : stored.chat.messageId ∉ all.filterMap appended?) :
    Advances taskId old rows all done (done ++ [change]) [.upsertMessage stored] := by
  -- an old row is replaced, a new one is appended
  have hcases : ∀ replay, Replayed old rows all done replay →
      (∃ row ∈ replay, stored.SameKeys row ∧ stored.chat.messageId = row.chat.messageId ∧
        upsertMessage replay stored =
          .ok (updateFirst row.chat.identity (fun _ => stored) replay)) ∨
      (stored.chat.messageId ∉ replay.map (·.chat.messageId) ∧ upsertMessage replay stored = do
        validateMessageAppend replay stored
        return replay ++ [stored]) := by
    intro replay h
    by_cases hmem : stored.chat.messageId ∈ replay.map (·.chat.messageId)
    · obtain ⟨row, hrow, hkey⟩ := List.mem_map.mp hmem
      obtain ⟨final, hfinal, hkeys⟩ := h.find_row hold htracks hrow
      obtain rfl : stored = final := by
        rw [hkey, hfound] at hfinal
        exact Option.some.inj hfinal
      refine .inl ⟨row, hrow, hkeys, hkey.symm, ?_⟩
      rw [upsertMessage_present h.distinct hrow hkeys, hkeys.identity]
    · exact .inr ⟨hmem, upsertMessage_absent
        (h.identity_absent hold htracks hfound hmem hall happended)⟩
  constructor
  · simp [TaskOperation.changesHistory]
  · intro c c' h hc
    rw [foldlM_singleton] at hc
    obtain ⟨messages, hupsert, heq⟩ := bind_eq_ok.mp hc
    cases heq
    refine ⟨?_, rfl⟩
    rcases hcases c.messages h with ⟨row, hrow, hkeys, hkey, hresult⟩ | ⟨-, hresult⟩
    · cases hresult.symm.trans hupsert
      exact h.alter hrow (hkey ▸ hid) (hkey ▸ happended) hkeys (fun _ => hkey ▸ hfound)
        fun hnot => absurd (.inr (hkey ▸ hupserted)) hnot
    · rw [hresult] at hupsert
      obtain ⟨⟨⟩, happend, heq⟩ := bind_eq_ok.mp hupsert
      cases heq
      exact h.push hid (.inr hupserted) hfound happend
  · intro c h hfree
    rw [foldlM_singleton]
    rcases hcases c.messages h with ⟨row, -, -, -, hresult⟩ | ⟨hnew, hresult⟩
    · exact ⟨_, bind_eq_ok.mpr ⟨_, hresult, rfl⟩⟩
    · have happend := h.validateMessageAppend_new hold htracks hfound hnew hfree
      exact ⟨_, bind_eq_ok.mpr ⟨_, hresult.trans (bind_eq_ok.mpr ⟨(), happend, rfl⟩), rfl⟩⟩

theorem advances_text {text : String} (hpub : ¬ Published all stored.chat.messageId)
    (hmem : .appendText stored.chat.messageId text ∈ all) (updatedAt : String) :
    Advances taskId old rows all done (done ++ [.appendText stored.chat.messageId text])
      [.appendText stored.chat.identity text updatedAt none] := by
  have hnamed : stored.chat.messageId ∈ named all := List.mem_filterMap.mpr ⟨_, hmem, rfl⟩
  obtain ⟨a, ha, hkept⟩ := htracks.old_of_not_published (List.mem_of_find?_eq_some hfound) hpub
  have hends : a.EndsInText := by
    rw [hkept.keys.messageId] at hpub hnamed
    exact (hkept.texts hpub).2 hnamed
  -- so the text has a target: the replayed row is that old row with the texts before
  have htarget : ∀ replay, Replayed old rows all done replay →
      ∃ row ∈ replay, stored.SameKeys row ∧ validateTextTarget replay row.chat.identity =
        .ok () := by
    intro replay h
    obtain ⟨row, hrow, hkey⟩ : ∃ row ∈ replay, row.chat.messageId = stored.chat.messageId := by
      refine List.mem_map.mp (h.mem_ids.mpr (.inl ?_))
      rw [hkept.keys.messageId]
      exact List.mem_map_of_mem ha
    obtain ⟨final, hfinal, hkeys⟩ := h.find_row hold htracks hrow
    obtain rfl : stored = final := by
      rw [hkey, hfound] at hfinal
      exact Option.some.inj hfinal
    obtain ⟨a', ha', heq⟩ := h.pending row hrow fun hcase => hpub (hkey ▸ hcase.1)
    have halike := alike_texts a'.chat.messageId done a'
    obtain rfl : a' = a := by
      refine List.inj_on_of_nodup_map hold.messageIds ha' ha ?_
      rw [← halike.keys.messageId, ← heq, hkey, hkept.keys.messageId]
    refine ⟨row, hrow, hkeys, validateTextTarget_eq_ok_iff.mpr
      ⟨row, find?_key h.distinct.identities hrow, ?_⟩⟩
    rw [heq]
    exact halike.endsInText.mpr hends
  constructor
  · simp [TaskOperation.changesHistory]
  · intro c c' h hc
    rw [foldlM_singleton] at hc
    obtain ⟨messages, happend, heq⟩ := bind_eq_ok.mp hc
    cases heq
    obtain ⟨⟨⟩, -, heq⟩ := bind_eq_ok.mp happend
    cases heq
    obtain ⟨row, hrow, hkeys, -⟩ := htarget c.messages h
    refine ⟨?_, rfl⟩
    rw [hkeys.identity, hkeys.messageId]
    rw [hkeys.messageId] at hpub
    refine h.alter hrow rfl (fun happended => hpub (.inl happended))
      (sameKeys_appendToMessage text row) (fun hpub' => absurd hpub' hpub) fun _ => ?_
    exact (if_pos rfl).symm
  · intro c h _
    obtain ⟨row, -, hkeys, hvalid⟩ := htarget c.messages h
    rw [foldlM_singleton]
    refine ⟨_, bind_eq_ok.mpr ⟨_, bind_eq_ok.mpr ⟨(), ?_, rfl⟩, rfl⟩⟩
    rw [hkeys.identity, hvalid]

end Found

/-- The ids emitted so far, of those that are published whole. -/
def Emitted (all done : List CommittedChatChange) (emitted : List String) : Prop :=
  ∀ m, Published all m → (m ∈ emitted ↔ m ∈ named done)

/-- **The delta of one change** advances the replay by that change. -/
theorem advances_delta (taskId : String) (hold : Distinct old) (htracks : Tracks old rows all)
    (hreplace : .replace ∉ all) (hall : all = done ++ change :: rest) {p : TaskProjection}
    (hp : p.messages = rows) {emitted : List String} (hemitted : Emitted all done emitted) :
    ∃ operations emitted',
    delta p (all.filterMap appended?) (all.filterMap upserted?) emitted change =
        .ok (operations, emitted') ∧ Emitted all (done ++ [change]) emitted' ∧
      Advances taskId old rows all done (done ++ [change]) operations := by
  have hmem : change ∈ all := hall ▸ List.mem_append_right _ List.mem_cons_self
  obtain ⟨m, hid⟩ : ∃ m, change.messageId? = some m := by
    cases change with
    | replace => exact absurd hmem hreplace
    | _ => exact ⟨_, rfl⟩
  have hnamed : named [change] = [m] := by simp [named, hid]
  obtain ⟨stored, hfound, rfl⟩ := htracks.find_named (List.mem_filterMap.mpr ⟨change, hmem, hid⟩)
  have hsame : Published all stored.chat.messageId → stored.chat.messageId ∈ emitted →
      Emitted all (done ++ [change]) emitted := by
    intro hpub hin m hm
    rw [hemitted m hm, named_append, hnamed, List.mem_append, List.mem_singleton]
    exact ⟨.inl, fun h => h.elim id (· ▸ (hemitted _ hpub).mp hin)⟩
  have hmore : Emitted all (done ++ [change]) (stored.chat.messageId :: emitted) := by
    intro m hm
    rw [List.mem_cons, hemitted m hm, named_append, hnamed, List.mem_append, List.mem_singleton]
    exact or_comm
  unfold delta
  simp only [hid, hp, hfound]
  by_cases happended : stored.chat.messageId ∈ all.filterMap appended?
  · simp only [if_pos happended]
    by_cases hin : stored.chat.messageId ∈ emitted
    · rw [if_pos hin]
      exact ⟨_, _, rfl, hsame (.inl happended) hin,
        advances_skip hid (.inl happended) ((hemitted _ (.inl happended)).mp hin)⟩
    · rw [if_neg hin]
      exact ⟨_, _, rfl, hmore, advances_append hold htracks hfound hid happended
        fun hdone => hin ((hemitted _ (.inl happended)).mpr hdone)⟩
  · simp only [if_neg happended]
    by_cases hupserted : stored.chat.messageId ∈ all.filterMap upserted?
    · simp only [if_pos hupserted]
      by_cases hin : stored.chat.messageId ∈ emitted
      · rw [if_pos hin]
        exact ⟨_, _, rfl, hsame (.inr hupserted) hin,
          advances_skip hid (.inr hupserted) ((hemitted _ (.inr hupserted)).mp hin)⟩
      · rw [if_neg hin]
        exact ⟨_, _, rfl, hmore, advances_upsert hold htracks hfound hall hid hupserted happended⟩
    · simp only [if_neg hupserted]
      have hpub : ¬ Published all stored.chat.messageId := not_or.mpr ⟨happended, hupserted⟩
      cases change with
      | appendText messageId text =>
        cases hid
        refine ⟨_, _, rfl, fun m hm => ?_, advances_text hold htracks hfound hpub hmem _⟩
        rw [hemitted m hm, named_append, hnamed, List.mem_append, List.mem_singleton]
        exact ⟨.inl, fun h => h.resolve_right fun heq => hpub (heq ▸ hm)⟩
      | append item => exact (happended (List.mem_filterMap.mpr ⟨_, hmem, hid⟩)).elim
      | upsert item => exact (hupserted (List.mem_filterMap.mpr ⟨_, hmem, hid⟩)).elim
      | replace => cases hid

/-- **The whole delta**, by induction on the changes that are left. -/
theorem advances_deltas (taskId : String) (hold : Distinct old) (htracks : Tracks old rows all)
    (hreplace : .replace ∉ all) {p : TaskProjection} (hp : p.messages = rows)
    {done rest : List CommittedChatChange} (hall : all = done ++ rest) {emitted : List String}
    (hemitted : Emitted all done emitted) :
    ∃ operations, deltas p (all.filterMap appended?) (all.filterMap upserted?) emitted rest =
        .ok operations ∧ Advances taskId old rows all done all operations := by
  induction rest generalizing done emitted with
  | nil =>
    obtain rfl : all = done := by rw [hall, List.append_nil]
    refine ⟨[], rfl, fun _ hop => (List.not_mem_nil hop).elim, ?_, fun c _ _ => ⟨c, rfl⟩⟩
    intro c c' h hc
    cases hc
    exact ⟨h, rfl⟩
  | cons change rest ih =>
    obtain ⟨first, emitted', hdelta, hemitted', hfirst⟩ :=
      advances_delta taskId hold htracks hreplace hall hp hemitted
    obtain ⟨others, hdeltas, hothers⟩ := ih (by rw [hall]; simp) hemitted'
    refine ⟨first ++ others, ?_, ?_, ?_, ?_⟩
    · rw [deltas, hdelta]
      simp only [bind, Except.bind, hdeltas]
      rfl
    · intro op hop
      exact (List.mem_append.mp hop).elim (hfirst.rowOperations op) (hothers.rowOperations op)
    · intro c c' h hc
      obtain ⟨middle, hmiddle, hrest⟩ := foldlM_append_eq_ok.mp hc
      obtain ⟨hmiddle', hheads⟩ := hfirst.replayed c middle h hmiddle
      obtain ⟨hlast, hheads'⟩ := hothers.replayed middle c' hmiddle' hrest
      exact ⟨hlast, hheads'.trans hheads⟩
    · intro c h hfree
      obtain ⟨middle, hmiddle⟩ := hfirst.applies c h hfree
      obtain ⟨c', hc'⟩ := hothers.applies middle (hfirst.replayed c middle h hmiddle).1 hfree
      exact ⟨c', foldlM_append_eq_ok.mpr ⟨middle, hmiddle, hc'⟩⟩

end Step

/-! ## The delta reproduces the draft -/

/-- Commit operations to an available Task: validate, then apply to a copy. -/
def commitOperations (p : TaskProjection) (sequence : Nat) (operations : List TaskOperation) :
    Except RuntimeError RecoveredTask := do
  validateOperations (some (.available p sequence)) p.task.taskId operations
  applyOperations (some (.available p sequence)) p.task.taskId operations (sequence + 1)

/-- The delta of a draft with its recorded changes, committed to the projection it started from. -/
def journaled (p : TaskProjection) (sequence : Nat) (ctx : TaskMutationContext) :
    Except RuntimeError RecoveredTask := do
  commitOperations p sequence (← journalOperations ctx.projection ctx.chatChanges)

/-- **A journaled mutation is a commit of the split store**, which a crash undoes or keeps whole. -/
theorem commit_journaled {p P : TaskProjection} {sequence : Nat} {ctx : TaskMutationContext}
    (h : journaled p sequence ctx = .ok (.available P (sequence + 1)))
    (hs : sequence + 1 < 2 ^ 64) :
    ∃ operations, journalOperations ctx.projection ctx.chatChanges = .ok operations ∧
      Split.Commit p.task.taskId p sequence operations P := by
  obtain ⟨operations, hoperations, h⟩ := bind_eq_ok.mp h
  obtain ⟨⟨⟩, hvalid, happlied⟩ := bind_eq_ok.mp h
  exact ⟨operations, hoperations, hvalid, happlied, recoverable_journalOperations hoperations, hs⟩

/-- The committed Task is the draft, up to the history version of its record. -/
def Reproduces (draft : TaskProjection) (result : RecoveredTask) : Prop :=
  ∃ q sequence, result = .available q sequence ∧ q.messages = draft.messages ∧
    q.messageMeta = draft.messageMeta ∧ q.artifactHeads = draft.artifactHeads ∧
    q.task.unversioned = draft.task.unversioned

/-- When the delta cannot go wrong: the Chat is replaced whole, the rows of the draft have distinct
message ids, or the commit is refused. -/
def ReproducedWhen (p : TaskProjection) (ctx : TaskMutationContext) : Prop :=
  .replace ∈ ctx.chatChanges ∨
  (ctx.projection.messages.map (·.chat.messageId)).Nodup ∨
  (∃ m ∈ ctx.chatChanges.filterMap appended?, m ∈ p.messages.map (·.chat.messageId)) ∨
  validateMessageSet (firsts (·.chat.messageId) ctx.projection.messages) ≠ .ok () ∨
  ctx.projection.task.taskId ≠ p.task.taskId ∨
  ctx.projection.messageMeta.taskId ≠ p.task.taskId

variable {operations : List TaskOperation}

theorem commitOperations_eq_ok {sequence : Nat} {result : RecoveredTask}
    (h : commitOperations p sequence operations = .ok result) :
    (∀ op ∈ operations, Identified p.task.taskId op) ∧
      ∃ c, applyChat p.task.taskId p.chat operations = .ok c ∧
        result = .available
          (c.withTask (applyTask p.task operations c.messageMeta.version)) (sequence + 1) := by
  obtain ⟨⟨⟩, hvalid, happly⟩ := bind_eq_ok.mp h
  have hops := validateOperations_available hvalid
  exact ⟨fun op hop => (hops op hop).2,
    applyOperations_eq_ok (fun op hop => (hops op hop).1) happly⟩

/-- Row operations between the draft's Task record and its metadata. -/
def wrapped (draft : TaskProjection) (operations : List TaskOperation) : List TaskOperation :=
  .replaceTask draft.task :: operations ++ [.replaceMessageMeta draft.messageMeta]

theorem foldlM_editChat_wrapped {taskId : String} {draft : TaskProjection} {c c' : Chat} :
    (wrapped draft operations).foldlM (editChat taskId) c = .ok c' ↔
      ∃ middle, operations.foldlM (editChat taskId) c = .ok middle ∧
        draft.messageMeta.taskId = taskId ∧
        c' = { middle with messageMeta := draft.messageMeta } := by
  rw [wrapped, List.cons_append, foldlM_cons_eq_ok]
  constructor
  · rintro ⟨start, hstart, hrest⟩
    cases hstart
    obtain ⟨middle, hmiddle, hmeta⟩ := foldlM_concat_eq_ok.mp hrest
    obtain ⟨⟨⟩, hvalid, heq⟩ := bind_eq_ok.mp hmeta
    cases heq
    refine ⟨middle, hmiddle, ?_, rfl⟩
    by_contra hne
    rw [validateMessageMeta, if_pos hne] at hvalid
    cases hvalid
  · rintro ⟨middle, hmiddle, hid, rfl⟩
    refine ⟨c, rfl, foldlM_concat_eq_ok.mpr ⟨middle, hmiddle, bind_eq_ok.mpr ⟨(), ?_, rfl⟩⟩⟩
    exact if_neg (not_not.mpr hid)

theorem lastTask_wrapped (task : TaskRecord) (draft : TaskProjection)
    (hops : ∀ op ∈ operations, op.changesHistory = true) :
    lastTask task (wrapped draft operations) = draft.task := by
  have hrows : ∀ t, lastTask t operations = t := by
    induction operations with
    | nil => exact fun _ => rfl
    | cons op rest ih =>
      intro t
      have hop : op.task? = none := by
        have := hops op List.mem_cons_self
        cases op <;> first | rfl | cases this
      simp only [lastTask, List.foldl_cons, hop, Option.getD_none]
      exact ih (fun o ho => hops o (List.mem_cons_of_mem _ ho)) t
  have happend : ∀ t, lastTask t (operations ++ [.replaceMessageMeta draft.messageMeta]) =
      lastTask t operations := fun t => by
    simp only [lastTask, List.foldl_append, List.foldl_cons, List.foldl_nil, TaskOperation.task?,
      Option.getD_none]
  exact (happend draft.task).trans (hrows draft.task)

theorem isCreate_wrapped (draft : TaskProjection)
    (hops : ∀ op ∈ operations, op.changesHistory = true) :
    ∀ op ∈ wrapped draft operations, op.isCreate = false := by
  intro op hop
  rw [wrapped, List.cons_append, List.mem_cons, List.mem_append, List.mem_singleton] at hop
  rcases hop with rfl | hop | rfl
  · rfl
  · have := hops op hop
    cases op <;> first | rfl | cases this
  · rfl

theorem applyChat_wrapped (taskId : String) (c : Chat) (draft : TaskProjection)
    (operations : List TaskOperation) :
    applyChat taskId c (wrapped draft operations) =
      (wrapped draft operations).foldlM (editChat taskId) c := by
  have hadvances : advances (wrapped draft operations) = false := by
    simp [advances, wrapped, TaskOperation.replacesMeta]
  rw [applyChat]
  simp only [hadvances, Bool.false_eq_true, if_false]
  exact bind_pure _

theorem validateOperations_wrapped {draft : TaskProjection} {sequence : Nat}
    (hops : ∀ op ∈ operations, op.changesHistory = true) {c : Chat}
    (hedit : operations.foldlM (editChat p.task.taskId) p.chat = .ok c)
    (htask : draft.task.taskId = p.task.taskId) (hmeta : draft.messageMeta.taskId = p.task.taskId) :
    validateOperations (some (.available p sequence)) p.task.taskId (wrapped draft operations) =
      .ok () := by
  obtain ⟨last, hlast⟩ := foldlM_validateOperation_of_editChat hops
    (p := { p with task := draft.task }) (alike_refl p.messages) hedit
  have hwrapped : (wrapped draft operations).foldlM (validateOperation p.task.taskId) (some p) =
      .ok (some { last with messageMeta := draft.messageMeta }) := by
    rw [wrapped, List.cons_append]
    refine foldlM_cons_eq_ok.mpr ⟨some { p with task := draft.task }, ?_,
      foldlM_concat_eq_ok.mpr ⟨some last, hlast, ?_⟩⟩
    · exact if_neg (not_not.mpr htask)
    · exact bind_eq_ok.mpr ⟨last, rfl, bind_eq_ok.mpr ⟨(), if_neg (not_not.mpr hmeta), rfl⟩⟩
  simp only [validateOperations, bind, Except.bind, hwrapped]
  rfl

section Draft

variable {p : TaskProjection} {ctx : TaskMutationContext}

theorem journalOperations_rows (hp : Distinct p.messages) (h : DraftOf p ctx)
    (hne : ctx.chatChanges ≠ []) (hreplace : .replace ∉ ctx.chatChanges) :
    ∃ operations, journalOperations ctx.projection ctx.chatChanges =
        .ok (wrapped ctx.projection operations) ∧
      Advances p.task.taskId p.messages ctx.projection.messages ctx.chatChanges [] ctx.chatChanges
        operations := by
  obtain ⟨operations, hdeltas, hadvances⟩ := advances_deltas p.task.taskId hp (h.tracks hreplace)
    hreplace rfl (List.nil_append _).symm
    (show Emitted ctx.chatChanges [] [] from fun _ _ => Iff.rfl)
  refine ⟨operations, ?_, hadvances⟩
  rw [journalOperations, if_neg (by simpa using hne), if_neg hreplace, hdeltas]
  rfl

variable {result : RecoveredTask}

theorem journaled_rows (hp : Distinct p.messages) (h : DraftOf p ctx) {sequence : Nat}
    (hne : ctx.chatChanges ≠ []) (hreplace : .replace ∉ ctx.chatChanges)
    (hresult : journaled p sequence ctx = .ok result) :
    (∃ q, result = .available q (sequence + 1) ∧
      q.messages = firsts (·.chat.messageId) ctx.projection.messages ∧
      q.messageMeta = ctx.projection.messageMeta ∧
      q.artifactHeads = ctx.projection.artifactHeads ∧
      q.task.unversioned = ctx.projection.task.unversioned) ∧
    ConflictFree p.messages ctx.projection.messages ctx.chatChanges ∧
    ctx.projection.task.taskId = p.task.taskId ∧
    ctx.projection.messageMeta.taskId = p.task.taskId := by
  obtain ⟨operations, hops, hadvances⟩ := journalOperations_rows hp h hne hreplace
  rw [journaled, hops] at hresult
  obtain ⟨hidentified, c, hchat, rfl⟩ := commitOperations_eq_ok hresult
  rw [applyChat_wrapped, foldlM_editChat_wrapped] at hchat
  obtain ⟨middle, hmiddle, hmeta, rfl⟩ := hchat
  obtain ⟨hreplayed, hheads⟩ := hadvances.replayed p.chat middle (Replayed.start hp) hmiddle
  have hrows := hreplayed.eq_firsts hp (h.tracks hreplace)
  have htask := unversioned_applyTask (isCreate_wrapped ctx.projection hadvances.rowOperations)
    p.task ctx.projection.messageMeta.version
  rw [lastTask_wrapped p.task ctx.projection hadvances.rowOperations] at htask
  refine ⟨⟨_, rfl, hrows, rfl, hheads.trans h.heads.symm, htask⟩, ⟨fun m hm => ?_, ?_⟩, ?_, hmeta⟩
  · exact hreplayed.fresh m (named_of_published (.inl hm)) hm
  · exact hrows ▸ hreplayed.distinct
  · exact hidentified (.replaceTask ctx.projection.task) (by simp [wrapped])

theorem journaled_applies (hp : Distinct p.messages) (h : DraftOf p ctx) (sequence : Nat)
    (hne : ctx.chatChanges ≠ []) (hreplace : .replace ∉ ctx.chatChanges)
    (hfree : ConflictFree p.messages ctx.projection.messages ctx.chatChanges)
    (htask : ctx.projection.task.taskId = p.task.taskId)
    (hmeta : ctx.projection.messageMeta.taskId = p.task.taskId) :
    ∃ result, journaled p sequence ctx = .ok result := by
  obtain ⟨operations, hops, hadvances⟩ := journalOperations_rows hp h hne hreplace
  obtain ⟨c, hc⟩ := hadvances.applies p.chat (Replayed.start hp) hfree
  have hvalid : validateOperations (some (.available p sequence)) p.task.taskId
      (wrapped ctx.projection operations) = .ok () :=
    validateOperations_wrapped hadvances.rowOperations hc htask hmeta
  have hchat : applyChat p.task.taskId p.chat (wrapped ctx.projection operations) =
      .ok { c with messageMeta := ctx.projection.messageMeta } := by
    rw [applyChat_wrapped]
    exact foldlM_editChat_wrapped.mpr ⟨c, hc, hmeta, rfl⟩
  have happly := applyOperations_available p.task.taskId (sequence + 1) sequence p
    (isCreate_wrapped ctx.projection hadvances.rowOperations)
  rw [hchat] at happly
  exact ⟨_, bind_eq_ok.mpr ⟨_, hops, bind_eq_ok.mpr ⟨(), hvalid, happly⟩⟩⟩

theorem journaled_replace (h : DraftOf p ctx) {sequence : Nat}
    (hreplace : .replace ∈ ctx.chatChanges)
    (hresult : journaled p sequence ctx = .ok result) : Reproduces ctx.projection result := by
  rw [journaled, journalOperations_replace hreplace] at hresult
  obtain ⟨-, c, hchat, rfl⟩ := commitOperations_eq_ok hresult
  have hcreate : ∀ op ∈ [TaskOperation.replaceTask ctx.projection.task,
      .replaceMessages ctx.projection.messages ctx.projection.messageMeta], op.isCreate =
        false := by
    simp [TaskOperation.isCreate]
  have htask := unversioned_applyTask hcreate p.task c.messageMeta.version
  obtain ⟨c', hfold, hc⟩ := bind_eq_ok.mp hchat
  cases hc
  obtain ⟨c'', hstart, hrest⟩ := foldlM_cons_eq_ok.mp hfold
  cases hstart
  obtain ⟨⟨⟩, -, hmessages⟩ := bind_eq_ok.mp ((foldlM_singleton _ _).symm.trans hrest)
  obtain ⟨⟨⟩, -, heq⟩ := bind_eq_ok.mp hmessages
  cases heq
  exact ⟨_, _, rfl, rfl, rfl, h.heads.symm, htask⟩

theorem journaled_idle (h : DraftOf p ctx) {sequence : Nat} (hnil : ctx.chatChanges = [])
    (hresult : journaled p sequence ctx = .ok result) : Reproduces ctx.projection result := by
  rw [journaled, journalOperations, hnil, List.isEmpty_nil, if_pos rfl] at hresult
  obtain ⟨-, c, hchat, rfl⟩ := commitOperations_eq_ok hresult
  have hcreate : ∀ op ∈ [TaskOperation.replaceTask ctx.projection.task], op.isCreate = false := by
    simp [TaskOperation.isCreate]
  have htask := unversioned_applyTask hcreate p.task c.messageMeta.version
  cases hchat
  have hchat := h.idle hnil
  exact ⟨_, _, rfl, congrArg Chat.messages hchat.symm, congrArg Chat.messageMeta hchat.symm,
    congrArg Chat.artifactHeads hchat.symm, htask⟩

end Draft

/-- **Delta journaling reproduces the draft exactly when `ReproducedWhen`.** -/
theorem journal_reproduces_draft_iff (p : TaskProjection) (hp : Distinct p.messages)
    (sequence : Nat) (mutations : List TaskMutation) :
    (∀ result, journaled p sequence (draft p mutations) = .ok result →
      Reproduces (draft p mutations).projection result) ↔
    ReproducedWhen p (draft p mutations) := by
  have h := draftOf_draft hp mutations
  generalize draft p mutations = ctx at h ⊢
  by_cases hreplace : .replace ∈ ctx.chatChanges
  · exact ⟨fun _ => .inl hreplace, fun _ result hresult => journaled_replace h hreplace hresult⟩
  by_cases hnil : ctx.chatChanges = []
  · refine ⟨fun _ => .inr (.inl ?_), fun _ result hresult => journaled_idle h hnil hresult⟩
    rw [show ctx.projection.messages = p.messages from congrArg Chat.messages (h.idle hnil)]
    exact hp.messageIds
  constructor
  · intro hreproduces
    -- otherwise the commit succeeds with the first rows only
    by_contra hnot
    simp only [ReproducedWhen, not_or, not_exists, not_and, not_not] at hnot
    obtain ⟨-, hids, hfresh, hset, htask, hmeta⟩ := hnot
    have hfree : ConflictFree p.messages ctx.projection.messages ctx.chatChanges :=
      ⟨hfresh, validateMessageSet_eq_ok_iff.mp hset⟩
    obtain ⟨result, hresult⟩ := journaled_applies hp h sequence hnil hreplace hfree htask hmeta
    obtain ⟨⟨q, rfl, hrows, -⟩, -⟩ := journaled_rows hp h hnil hreplace hresult
    obtain ⟨q', n, heq, hmessages, -⟩ := hreproduces _ hresult
    cases heq
    exact hids ((firsts_eq_self_iff _ _).mp (hrows.symm.trans hmessages))
  · intro hwhen result hresult
    obtain ⟨⟨q, rfl, hrows, hmeta, hheads, htask⟩, hfree, htaskId, hmetaId⟩ :=
      journaled_rows hp h hnil hreplace hresult
    have hids : (ctx.projection.messages.map (·.chat.messageId)).Nodup := by
      rcases hwhen with hwhen | hids | ⟨m, hm, hold⟩ | hset | hne | hne
      · exact absurd hwhen hreplace
      · exact hids
      · exact absurd hold (hfree.fresh m hm)
      · exact absurd (validateMessageSet_eq_ok_iff.mpr hfree.distinct) hset
      · exact absurd htaskId hne
      · exact absurd hmetaId hne
    exact ⟨q, _, rfl, hrows.trans (firsts_eq_self hids), hmeta, hheads, htask⟩

namespace Example

def task : TaskRecord where
  taskId := "t"
  status := .inactive
  taskVersion := 0
  messageHistoryVersion := 0
  unread := false
  updatedAt := "1"
  lastActivity := "1"
  lifecycle := .open

/-- A Task without Chat rows. -/
def projection : TaskProjection where
  task := task
  messages := []
  messageMeta := ⟨"t", 0, 0, "1", none, none⟩

def first : TaskMutation := .appendMessage (.user { id := "m", text := "a", createdAt := "1" }) 2

def second : TaskMutation := .appendMessage (.user { id := "m", text := "b", createdAt := "2" }) 3

def answer (text : String) : NormalizedMessage := .agentMessage ⟨"n", .agent, [.text text], "2"⟩

/-- A Task whose Chat has a prompt and an answer. -/
def answered : TaskProjection :=
  (draft projection [first, .appendMessage (answer "b") 3]).projection

/-- The answer grows, an Activity follows it and ends, and the record is edited. -/
def turn : List TaskMutation :=
  [.appendAgentMessagePart (answer "c") 4,
    .appendMessage (.activity ⟨"o", "Run", .running, "4", false, []⟩) 5,
    .finishRunningActivities .completed 6 6,
    .editTask fun task => { task with unread := true }]

theorem distinct_answered : Distinct answered.messages :=
  ⟨by decide +kernel, by decide +kernel, by decide +kernel⟩

theorem distinct_projection : Distinct projection.messages :=
  ⟨List.nodup_nil, List.nodup_nil, List.nodup_nil⟩

def rows : Except RuntimeError RecoveredTask → Nat
  | .ok (.available q _) => q.messages.length
  | _ => 0

end Example

open Example

/-- A turn's mutations are reproduced. -/
theorem journal_reproduces_turn :
    rows (journaled answered 3
      (draft answered turn)) = 3 ∧
    ∀ result, journaled answered 3
        (draft answered turn) = .ok result →
      Reproduces (draft answered turn).projection result :=
  ⟨by decide +kernel, (journal_reproduces_draft_iff answered distinct_answered 3
    turn).mpr (.inr (.inl (by decide +kernel)))⟩

/-- Two appended messages of one identity: the draft has two rows, the journal keeps one. -/
theorem two_appends_lose_a_row :
    Distinct projection.messages ∧
    ∃ result, journaled projection 1
        (draft projection [first, second]) = .ok result ∧
      ¬ Reproduces
        (draft projection [first, second]).projection
        result := by
  refine ⟨distinct_projection, ?_⟩
  have hrows : rows (journaled projection 1
      (draft projection [first, second])) = 1 := by
    decide +kernel
  cases hresult : journaled projection 1
      (draft projection [first, second]) with
  | error e => rw [hresult] at hrows; cases hrows
  | ok result =>
    refine ⟨result, rfl, ?_⟩
    rintro ⟨q, n, rfl, hmessages, -⟩
    simp only [hresult, rows, hmessages] at hrows
    revert hrows
    decide +kernel

end JournalOperations

end OpenAide

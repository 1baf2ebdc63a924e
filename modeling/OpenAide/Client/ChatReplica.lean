import OpenAide.Client.TaskReplica
import OpenAide.Snapshots.Paging

/-!
# The client's Chat follows the server's

A client starts from a tail page of a Chat and applies the Chat changes of one revision after
another. What it has should be the rows of the server from its first loaded row on, as a page shows
them.  A page shows a Tool step with what is saved in the step's artifact; a published row is shown
as it is.

- `Suffix.step`: **the changes an operation of a mutation records** do to the loaded items what the
  operation did to the rows, unless they upsert a row above the page;
- `suffix_draft`, `suffix_streamed`: a whole mutation, and a batch of streamed text;
- `followed_chat_is_suffix`: every run of commits in which each mutation `Fits`;
- `upsert_above_page_lands_at_end`: an upsert of a row that is not loaded is appended to the page.
-/

namespace OpenAide

open Library Projection ChatImages ChatPage ChatProjection TaskSnapshots JournalOperations
open TaskMutationContext (appended draft upserted)
open TaskChatChange

/-- The ids of Chat rows. -/
def messageIds (rows : List StoredMessage) : List String := rows.map (·.chat.messageId)

/-- The ids of Chat items. -/
def itemIds (items : List ChatItemView) : List String := items.map (·.messageId)

@[simp] theorem messageIds_append (xs ys : List StoredMessage) :
    messageIds (xs ++ ys) = messageIds xs ++ messageIds ys := List.map_append

/-- A way to see rows: under their ids, and the messages of the Agent as they are. -/
structure RowView (imaging : Imaging) (see : StoredMessage → ChatItemView) : Prop where
  messageId : ∀ row, (see row).messageId = row.chat.messageId
  agent : ∀ row m, row.chat.message = .agentMessage m → see row = viewRow imaging row

theorem rowView_page (imaging : Imaging) (summarized : ToolStep → ToolStep) :
    RowView imaging (pageRow imaging summarized) where
  messageId row := by
    simp only [pageRow, view, projectChatItem, withLightweightToolSummaries]
    split <;> rfl
  agent row m hm := by
    simp only [pageRow, viewRow, withLightweightToolSummaries, hm]

theorem rowView_self (imaging : Imaging) : RowView imaging (viewRow imaging) :=
  ⟨fun _ => rfl, fun _ _ _ => rfl⟩

theorem RowView.itemIds_map {imaging : Imaging} {see : StoredMessage → ChatItemView}
    (h : RowView imaging see) (rows : List StoredMessage) :
    itemIds (rows.map see) = messageIds rows := by
  simp [itemIds, messageIds, h.messageId]

def TaskChatChange.isReplace : TaskChatChange → Bool
  | .replace _ => true
  | _ => false

namespace TaskReplica

/-! ## One change of the client's Chat -/

variable {chat : ChatSnapshot}

theorem upsertChatItem_loaded {item : ChatItemView}
    (h : (itemIds chat.items).Nodup) (hitem : item.messageId ∈ itemIds chat.items) :
    (upsertChatItem chat item).items =
      chat.items.map fun x => if x.messageId = item.messageId then item else x := by
  obtain ⟨x, hx, hid⟩ := List.mem_map.mp hitem
  have hsome : (chat.items.findIdx? (·.messageId = item.messageId)).isSome := by
    rw [List.findIdx?_isSome]
    exact List.any_eq_true.mpr ⟨x, hx, decide_eq_true hid⟩
  obtain ⟨index, hindex⟩ := Option.isSome_iff_exists.mp hsome
  simp only [upsertChatItem, hindex]
  rw [List.set_eq_modify, modify_findIdx? h hindex]

theorem upsertChatItem_new {item : ChatItemView} (h : item.messageId ∉ itemIds chat.items) :
    (upsertChatItem chat item).items = chat.items ++ [item] := by
  have hnone : chat.items.findIdx? (·.messageId = item.messageId) = none := by
    rw [List.findIdx?_eq_none_iff]
    intro x hx
    exact decide_eq_false fun hid => h (List.mem_map.mpr ⟨x, hx, hid⟩)
  simp only [upsertChatItem, hnone]

theorem updateChatItemText_eq_ok {chat' : ChatSnapshot} {messageId text : String}
    (h : (itemIds chat.items).Nodup)
    (hupdate : updateChatItemText chat messageId text = .ok chat') :
    messageId ∈ itemIds chat.items ∧ chat'.items = chat.items.map fun x =>
      if x.messageId = messageId then { x with parts := appendTextToMessageParts x.parts text }
      else x := by
  unfold updateChatItemText at hupdate
  split at hupdate
  · cases hupdate
  · rename_i index hindex
    cases hupdate
    refine ⟨?_, modify_findIdx? h hindex _⟩
    obtain ⟨hlt, hid, -⟩ := List.findIdx?_eq_some_iff_getElem.mp hindex
    exact List.mem_map.mpr ⟨_, List.getElem_mem hlt, of_decide_eq_true hid⟩

theorem appendToLastPart_concat (chunk last : String) (parts : List AgentMessagePart) :
    appendToLastPart chunk (parts ++ [.text last]) = parts ++ [.text (last ++ chunk)] := by
  induction parts with
  | nil => rfl
  | cons part rest ih =>
    have hcons : appendToLastPart chunk (part :: (rest ++ [.text last])) =
        part :: appendToLastPart chunk (rest ++ [.text last]) := by
      cases rest <;> cases part <;> rfl
    rw [List.cons_append, hcons, ih, List.cons_append]

theorem viewRow_appendToMessage (imaging : Imaging) {stored : StoredMessage}
    (h : stored.EndsInText) (text : String) :
    viewRow imaging (appendToMessage text stored) =
      { viewRow imaging stored with
        parts := appendTextToMessageParts (viewRow imaging stored).parts text } := by
  obtain ⟨m, last, hm, hlast⟩ := h
  obtain ⟨parts, hparts⟩ := List.getLast?_eq_some_iff.mp hlast
  simp only [viewRow, view, projectChatItem, appendToMessage, hm, projectMessage, hparts,
    appendToLastPart_concat, List.filterMap_append, List.filterMap_cons, List.filterMap_nil,
    projectAgentMessagePart, appendTextToMessageParts, List.getLast?_concat, List.dropLast_concat]

/-! ## A suffix of the rows -/

/-- The items are what is seen of the rows from the `k`th on. -/
structure Suffix (see : StoredMessage → ChatItemView) (k : Nat) (rows : List StoredMessage)
    (items : List ChatItemView) : Prop where
  start : k ≤ rows.length
  items : items = (rows.drop k).map see

namespace Suffix

variable {imaging : Imaging} {see see' : StoredMessage → ChatItemView} {k : Nat}
  {rows rows' : List StoredMessage} {chat chat' : ChatSnapshot}

theorem ids (h : Suffix see k rows chat.items) (hsee : RowView imaging see) :
    itemIds chat.items = (messageIds rows).drop k := by
  rw [h.items, hsee.itemIds_map, messageIds, messageIds, List.map_drop]

theorem nodup (h : Suffix see k rows chat.items) (hsee : RowView imaging see)
    (hids : (messageIds rows).Nodup) : (itemIds chat.items).Nodup :=
  h.ids hsee ▸ hids.sublist (List.drop_sublist _ _)

theorem loaded (h : Suffix see k rows chat.items) (hsee : RowView imaging see) {m : String}
    (hm : m ∈ messageIds rows) (habove : m ∉ (messageIds rows).take k) :
    m ∈ itemIds chat.items := by
  rw [h.ids hsee]
  rw [← List.take_append_drop k (messageIds rows), List.mem_append] at hm
  exact hm.resolve_left habove

theorem concat (h : Suffix see k rows chat.items) {stored : StoredMessage} {item : ChatItemView}
    (hitem : see stored = item) : Suffix see k (rows ++ [stored]) (chat.items ++ [item]) where
  start := by simpa using Nat.le_succ_of_le h.start
  items := by
    rw [h.items, List.drop_append_of_le_length h.start, List.map_append, List.map_singleton, hitem]

theorem inPlace (h : Suffix see k rows chat.items) {f : ChatItemView → ChatItemView}
    (hrows : List.Forall₂ (fun a b => f (see a) = see' b) rows rows') :
    Suffix see' k rows' (chat.items.map f) where
  start := hrows.length_eq ▸ h.start
  items := by
    have hdrop := List.forall₂_drop k hrows
    rw [h.items, List.map_map, ← List.forall₂_eq_eq_eq, List.forall₂_map_left_iff,
      List.forall₂_map_right_iff]
    exact hdrop

theorem congr (h : Suffix see k rows chat.items) (hsame : ∀ row ∈ rows, see row = see' row) :
    Suffix see' k rows chat.items := by
  simpa only [List.map_id] using h.inPlace (f := id) (List.forall₂_same.mpr hsame)

variable {changed : List StoredMessage}

theorem upserts_loaded (h : (itemIds chat.items).Nodup)
    (hloaded : ∀ c ∈ changed, c.chat.messageId ∈ itemIds chat.items)
    (hrun : (changed.map fun c => upsert (viewRow imaging c)).foldlM applyChatChange
      chat = .ok chat') :
    chat'.items = chat.items.map fun x => changed.foldl
      (fun x c => if x.messageId = c.chat.messageId then viewRow imaging c else x) x := by
  induction changed generalizing chat with
  | nil =>
    cases hrun
    exact (List.map_id _).symm
  | cons c rest ih =>
    obtain ⟨middle, hfirst, hrest⟩ := foldlM_cons_eq_ok.mp hrun
    cases hfirst
    have hitems : (upsertChatItem chat (viewRow imaging c)).items = _ :=
      upsertChatItem_loaded h (hloaded c List.mem_cons_self)
    have hids : itemIds (upsertChatItem chat (viewRow imaging c)).items = itemIds chat.items := by
      rw [hitems, itemIds, itemIds, List.map_map]
      refine List.map_congr_left fun x _ => ?_
      simp only [Function.comp_apply]
      split
      · rename_i hid
        exact hid.symm
      · rfl
    rw [ih (hids ▸ h) (fun d hd => hids ▸ hloaded d (List.mem_cons_of_mem _ hd)) hrest, hitems,
      List.map_map]
    rfl

theorem foldl_changed {b : StoredMessage} {x : ChatItemView} (hx : x.messageId = b.chat.messageId)
    (honly : ∀ c ∈ changed, c.chat.messageId = b.chat.messageId → c = b) :
    changed.foldl (fun x c => if x.messageId = c.chat.messageId then viewRow imaging c else x) x =
      if b.chat.messageId ∈ messageIds changed then viewRow imaging b else x := by
  induction changed generalizing x with
  | nil => rfl
  | cons c rest ih =>
    have hrest := fun d hd => honly d (List.mem_cons_of_mem c hd)
    rw [List.foldl_cons, messageIds, List.map_cons, ← messageIds]
    by_cases hc : c.chat.messageId = b.chat.messageId
    · obtain rfl := honly c List.mem_cons_self hc
      rw [if_pos hx, ih rfl hrest, ite_self, if_pos List.mem_cons_self]
    · have hne : x.messageId ≠ c.chat.messageId := fun h => hc (h.symm.trans hx)
      rw [if_neg hne, ih hx hrest]
      simp only [List.mem_cons, Ne.symm hc, false_or]

theorem rewritten_mem {ids : List String} (h : Rewritten ids rows rows') :
    List.Forall₂ (fun a b => (a ∈ rows ∧ b ∈ rows') ∧ b.SameKeys a ∧
      (a.chat.messageId ∉ ids → b = a)) rows rows' := by
  have hright := ((List.forall₂_and_left _ _).mpr ⟨fun _ hb => hb, h.flip⟩).flip
  exact ((List.forall₂_and_left _ _).mpr ⟨fun _ ha => ha, hright⟩).imp
    fun a b ⟨ha, hb, hab⟩ => ⟨⟨ha, hb⟩, hab⟩

theorem messageIds_rewritten {ids : List String} (h : Rewritten ids rows rows') :
    messageIds rows' = messageIds rows :=
  (keys_eq (h.imp fun _ _ hab => hab.1.symm)).2.2.symm

/-- Rows rewritten in place. -/
theorem rewrite (h : Suffix see k rows chat.items) (hsee : RowView imaging see)
    (hseen : ∀ c ∈ changed, see c = viewRow imaging c) (hids : (messageIds rows').Nodup)
    (hrewritten : Rewritten (messageIds changed) rows rows') (hpresent : ∀ c ∈ changed, c ∈ rows')
    (habove : ∀ c ∈ changed, c.chat.messageId ∉ (messageIds rows).take k)
    (hrun : (changed.map fun c => upsert (viewRow imaging c)).foldlM applyChatChange
      chat = .ok chat') : Suffix see k rows' chat'.items := by
  have hkeys := messageIds_rewritten hrewritten
  have hloaded : ∀ c ∈ changed, c.chat.messageId ∈ itemIds chat.items := fun c hc =>
    h.loaded hsee (hkeys ▸ List.mem_map_of_mem (hpresent c hc)) (habove c hc)
  rw [upserts_loaded (h.nodup hsee (hkeys ▸ hids)) hloaded hrun]
  refine h.inPlace ((rewritten_mem hrewritten).imp fun a b ⟨⟨_, hb⟩, hsame, hother⟩ => ?_)
  -- a rewritten row is the only one with its id, so the last upsert of the id shows it
  have honly : ∀ c ∈ changed, c.chat.messageId = b.chat.messageId → c = b := fun c hc hcb =>
    List.inj_on_of_nodup_map hids (hpresent c hc) hb hcb
  rw [foldl_changed ((hsee.messageId a).trans hsame.messageId.symm) honly]
  split
  · rename_i hchanged
    obtain ⟨c, hc, hcb⟩ := List.mem_map.mp hchanged
    exact (honly c hc hcb ▸ hseen c hc).symm
  · rename_i hnot
    rw [hother (hsame.messageId ▸ hnot)]

@[simp] theorem messageIds_appendToMessage (text identity : String) (rows : List StoredMessage) :
    messageIds (updateFirst identity (appendToMessage text) rows) = messageIds rows :=
  (keys_eq (sameKeys_updateFirst (sameKeys_appendToMessage text) rows identity)).2.2

/-- Text for a loaded row. -/
theorem text (h : Suffix see k rows chat.items) (hsee : RowView imaging see)
    (hids : (messageIds rows).Nodup) {identity : String} {stored : StoredMessage} {text : String}
    (hfound : rows.find? (·.chat.identity = identity) = some stored) (hends : stored.EndsInText)
    (hrun : updateChatItemText chat stored.chat.messageId text = .ok chat') :
    Suffix see k (updateFirst identity (appendToMessage text) rows) chat'.items := by
  obtain ⟨-, hitems⟩ := updateChatItemText_eq_ok (h.nodup hsee hids) hrun
  have hsame := sameKeys_appendToMessage text stored
  obtain ⟨hrewritten, hmem⟩ := Mutation.rewritten_updateFirst hfound hsame
  rw [← updateFirst_found hfound] at hrewritten hmem
  have hids' := messageIds_rewritten hrewritten ▸ hids
  rw [hitems]
  refine h.inPlace ((rewritten_mem hrewritten).imp fun a b ⟨⟨ha, hb⟩, hab, hother⟩ => ?_)
  rw [hsee.messageId]
  split
  · rename_i hid
    obtain rfl := List.inj_on_of_nodup_map hids ha (List.mem_of_find?_eq_some hfound) hid
    obtain rfl := List.inj_on_of_nodup_map hids' hb hmem (hab.messageId.trans hsame.messageId.symm)
    -- a row that text is appended to is a message of the Agent
    obtain ⟨m, last, hm, -⟩ := id hends
    have hnew : (appendToMessage text a).chat.message =
        .agentMessage { m with parts := appendToLastPart text m.parts } := by
      simp only [appendToMessage, hm]
    rw [hsee.agent _ _ hm, hsee.agent _ _ hnew]
    exact (viewRow_appendToMessage imaging hends text).symm
  · rename_i hid
    rw [hother fun hmem => hid ((List.mem_singleton.mp hmem).trans hsame.messageId)]

/-- The row is recorded as appended or upserted. -/
def Recorded (row : StoredMessage) (changes : List CommittedChatChange) : Prop :=
  appended row ∈ changes ∨ upserted row ∈ changes
  deriving Decidable

/-- **The changes that an operation on the rows records**, none of them a replacement. -/
theorem step (h : Suffix see k rows chat.items) (hsee : RowView imaging see)
    (hids : (messageIds rows').Nodup) {changes : List CommittedChatChange}
    (hchange : RowChange rows rows' changes) (hreplace : .replace ∉ changes)
    (hseen : ∀ row, Recorded row changes → see row = viewRow imaging row)
    (habove : ∀ m ∈ changes.filterMap CommittedChatChange.upserted?, m ∉ (messageIds rows).take k)
    (summarized : ToolStep → ToolStep) (p : TaskProjection)
    (hrun : (changes.map (projectChatChange imaging summarized p)).foldlM applyChatChange chat =
      .ok chat') : Suffix see k rows' chat'.items := by
  cases hchange with
  | append stored =>
    cases hrun
    exact h.concat (hseen stored (.inl (List.mem_singleton_self _)))
  | insert stored absent =>
    cases hrun
    have hnew : stored.chat.messageId ∉ itemIds chat.items := by
      rw [messageIds_append, List.nodup_append] at hids
      rw [h.ids hsee]
      exact fun hm => hids.2.2 _ (List.mem_of_mem_drop hm) _ (List.mem_singleton_self _) rfl
    rw [upsertChatItem_new hnew]
    exact h.concat (hseen stored (.inr (List.mem_singleton_self _)))
  | rewrite changed hrewritten hpresent =>
    rw [List.map_map] at hrun
    refine h.rewrite hsee (fun c hc => hseen c (.inr (List.mem_map_of_mem hc))) hids hrewritten
      hpresent (fun c hc => habove _ ?_) hrun
    exact List.mem_filterMap.mpr ⟨upserted c, List.mem_map_of_mem hc, rfl⟩
  | text text found ends =>
    rw [messageIds_appendToMessage] at hids
    obtain ⟨middle, hfirst, hrest⟩ := foldlM_cons_eq_ok.mp hrun
    cases hrest
    exact h.text hsee hids found ends hfirst
  | replace rows' => exact absurd (List.mem_singleton_self _) hreplace

end Suffix

/-! ## A mutation -/

theorem draft_concat (p : TaskProjection) (mutations : List TaskMutation)
    (mutation : TaskMutation) :
    draft p (mutations ++ [mutation]) =
      (draft p mutations).perform mutation := by
  simp only [draft, List.foldl_append, List.foldl_cons, List.foldl_nil]

theorem messageIds_rowChange {rows rows' : List StoredMessage} {changes : List CommittedChatChange}
    (h : RowChange rows rows' changes) (hreplace : .replace ∉ changes) :
    messageIds rows <+: messageIds rows' := by
  cases h with
  | append stored => exact messageIds_append _ _ ▸ List.prefix_append _ _
  | insert stored absent => exact messageIds_append _ _ ▸ List.prefix_append _ _
  | rewrite changed hrewritten hpresent => rw [Suffix.messageIds_rewritten hrewritten]
  | text text found ends =>
    rw [Suffix.messageIds_appendToMessage]
  | replace rows' => exact absurd (List.mem_singleton_self _) hreplace

theorem messageIds_draft (p : TaskProjection) (mutations : List TaskMutation)
    (hreplace : .replace ∉ (draft p mutations).chatChanges) :
    messageIds p.messages <+:
      messageIds (draft p mutations).projection.messages := by
  induction mutations using List.reverseRecOn with
  | nil => exact List.prefix_rfl
  | append_singleton mutations mutation ih =>
    rw [draft_concat] at hreplace ⊢
    cases Mutation.drafts_perform (draft p mutations) mutation with
    | idle hchat hchanges =>
      have hrows : ((draft p mutations).perform mutation).projection.messages =
          (draft p mutations).projection.messages := congrArg Chat.messages hchat
      rw [hrows]
      exact ih (hchanges ▸ hreplace)
    | recorded hrows _ hchanges _ =>
      rw [hchanges, List.mem_append, not_or] at hreplace
      exact (ih hreplace.1).trans (messageIds_rowChange hrows hreplace.2)

/-- **A mutation that does not replace the Chat** and upserts no row above the page. -/
theorem suffix_draft {imaging : Imaging} {see : StoredMessage → ChatItemView} {k : Nat}
    {p : TaskProjection} {chat' : ChatSnapshot} (h : Suffix see k p.messages chat.items)
    (hsee : RowView imaging see) (mutations : List TaskMutation)
    (hseen : ∀ row, Suffix.Recorded row (draft p mutations).chatChanges →
      see row = viewRow imaging row)
    (hids : (messageIds (draft p mutations).projection.messages).Nodup)
    (hreplace : .replace ∉ (draft p mutations).chatChanges)
    (habove : ∀ m ∈ (draft p mutations).chatChanges.filterMap
      CommittedChatChange.upserted?, m ∉ (messageIds p.messages).take k)
    (summarized : ToolStep → ToolStep) (shown : TaskProjection)
    (hrun : ((draft p mutations).chatChanges.map
      (projectChatChange imaging summarized shown)).foldlM applyChatChange chat = .ok chat') :
    Suffix see k (draft p mutations).projection.messages chat'.items := by
  -- from the whole mutation to the one without its last operation
  induction mutations using List.reverseRecOn generalizing chat' with
  | nil =>
    cases hrun
    exact h
  | append_singleton mutations mutation ih =>
    rw [draft_concat] at hseen hids hreplace habove hrun ⊢
    cases Mutation.drafts_perform (draft p mutations) mutation with
    | idle hchat hchanges =>
      have hrows : ((draft p mutations).perform mutation).projection.messages =
          (draft p mutations).projection.messages := congrArg Chat.messages hchat
      rw [hrows] at hids ⊢
      rw [hchanges] at hseen hreplace habove hrun
      exact ih hseen hids hreplace habove hrun
    | recorded hrows _ hchanges _ =>
      rw [hchanges] at hseen hreplace habove hrun
      rw [List.mem_append, not_or] at hreplace
      rw [List.map_append, foldlM_append_eq_ok] at hrun
      obtain ⟨middle, hbefore, hlast⟩ := hrun
      have habove' := fun m hm => habove m (by
        rw [List.filterMap_append]
        exact List.mem_append_left _ hm)
      have hseen' := fun row hrow => hseen row
        (Or.imp (List.mem_append_left _) (List.mem_append_left _) hrow)
      have hseenLast := fun row hrow => hseen row
        (Or.imp (List.mem_append_right _) (List.mem_append_right _) hrow)
      have hnodup := hids.sublist (messageIds_rowChange hrows hreplace.2).sublist
      refine (ih hseen' hnodup hreplace.1 habove' hbefore).step hsee hids hrows hreplace.2 hseenLast
        (fun m hm => ?_) summarized shown hlast
      -- the rows above the page are still the same
      obtain ⟨more, hmore⟩ := messageIds_draft p mutations hreplace.1
      have hlength : k ≤ (messageIds p.messages).length := by
        simpa only [messageIds, List.length_map] using h.start
      rw [← hmore, List.take_append_of_le_length hlength]
      refine habove m ?_
      rw [List.filterMap_append]
      exact List.mem_append_right _ hm

/-! ## Pages and stored images -/

theorem suffix_page (imaging : Imaging) (summarized : ToolStep → ToolStep) (p : TaskProjection)
    (requestedStart : Nat) (h : requestedStart ≤ p.messages.length) :
    Suffix (pageRow imaging summarized)
      (chatPageStart p.messages requestedStart p.messages.length) p.messages
      (projectChatPage imaging (pageFromProjection summarized p
        (chatPageStart p.messages requestedStart p.messages.length) p.messages.length)).items where
  start := (chatPageStart_le_requested _ _ _).trans h
  items := by
    simp only [projectChatPage, pageFromProjection, List.take_length, List.map_map]
    rfl

/-- What a commit has stored of the rows of a draft. -/
def StoredRows (imaging : Imaging) : List StoredMessage → List StoredMessage → Prop :=
  List.Forall₂ fun row row' => row' = row ∨ row' = storedRow imaging row

/-- The row is seen as it will be once its images are stored. -/
def ShownAsStored (imaging : Imaging) (see : StoredMessage → ChatItemView) (row : StoredMessage) :
    Prop :=
  see (storedRow imaging row) = see row

theorem shownAsStored_of_no_image {imaging : Imaging} {see : StoredMessage → ChatItemView}
    {row : StoredMessage} (h : hasInlineImage imaging row.chat.message = false) :
    ShownAsStored imaging see row := by
  rw [ShownAsStored, storedRow, storedMessage_of_no_image h]

namespace StoredRows

variable {imaging : Imaging} {rows rows' : List StoredMessage}

theorem sameKeys (h : StoredRows imaging rows rows') :
    List.Forall₂ StoredMessage.SameKeys rows' rows := by
  refine h.flip.imp fun row' row hrow => ?_
  rcases hrow with rfl | rfl
  · exact .refl _
  · exact ⟨rfl, rfl, rfl⟩

theorem messageIds (h : StoredRows imaging rows rows') :
    OpenAide.messageIds rows' = OpenAide.messageIds rows := (keys_eq h.sameKeys).2.2

theorem suffix (h : StoredRows imaging rows rows') {see : StoredMessage → ChatItemView}
    (hshown : ∀ row ∈ rows, ShownAsStored imaging see row) {k : Nat} {chat : ChatSnapshot}
    (hsuffix : Suffix see k rows chat.items) : Suffix see k rows' chat.items := by
  have hsame : List.Forall₂ (fun row row' => id (see row) = see row') rows rows' := by
    refine ((List.forall₂_and_left _ _).mpr ⟨hshown, h⟩).imp fun row row' ⟨hrow, hstored⟩ => ?_
    rcases hstored with rfl | rfl
    · rfl
    · exact hrow.symm
  simpa only [List.map_id] using hsuffix.inPlace hsame

end StoredRows

/-! ## Commits -/

/-- A Task as the App Server has it; `summarized` is what a page shows of a Tool step, with the
artifacts as they are. -/
structure ServerTask where
  record : ShownTask
  projection : TaskProjection
  summarized : ToolStep → ToolStep
  same : record.toTaskRecord = projection.task

/-- What clients see of a row on a page of the Task. -/
def ServerTask.see (imaging : Imaging) (a : ServerTask) : StoredMessage → ChatItemView :=
  pageRow imaging a.summarized

/-- A committed Task: its record has what the journal keeps. -/
def ServerTask.committed (record : ShownTask) (p : TaskProjection)
    (summarized : ToolStep → ToolStep) : ServerTask :=
  ⟨{ record with toTaskRecord := p.task }, p, summarized, rfl⟩

/-- A commit: a mutation with the record it drafted, or a batch of streamed texts, each with the
identity of its row and its time. -/
inductive ChatCommit where
  | mutation (draft : ShownTask) (refreshMessageHistory : Bool) (mutations : List TaskMutation)
  | streamed (texts : List (String × String × String))

/-- The row that text was appended to. -/
def committedTextAppend (p : TaskProjection) (identity text : String) :
    Except RuntimeError (String × String) :=
  match p.messages.find? (·.chat.identity = identity) with
  | some stored => .ok (stored.chat.messageId, text)
  | none => .error (.internal "Committed streamed Chat change is missing from its projection")

/-- `committed_chat_text_appends` (`store/chat_changes.rs:9`). -/
def committedChatTextAppends (operations : List TaskOperation) (p : TaskProjection) :
    Except RuntimeError (List (String × String)) :=
  (operations.filterMap fun
    | .appendText identity text _ (some _) => some (identity, text)
    | _ => none).mapM fun (identity, text) => committedTextAppend p identity text

/-- The operations that append streamed texts. -/
def textOperations (texts : List (String × String × String)) : List TaskOperation :=
  texts.map fun (identity, text, now) => .appendText identity text now (some now)

/-- The operations of a batch of streamed texts, with the record that the store puts before them
(`store.rs:364`). -/
def streamedOperations (task : TaskRecord) (texts : List (String × String × String)) :
    List TaskOperation :=
  .replaceTask task :: textOperations texts

theorem recoverable_streamedOperations (task : TaskRecord)
    (texts : List (String × String × String)) :
    TaskOperation.recoverable (streamedOperations task texts) := by
  refine TaskOperation.recoverable_of_noProjection
    (List.forall_mem_cons.mpr ⟨rfl, fun op hop => ?_⟩)
  obtain ⟨text, -, rfl⟩ := List.mem_map.mp hop
  rfl

/-- A committed mutation as the publication sees it. -/
def mutationCommit (a : ServerTask) (draft : ShownTask) (refresh : Bool)
    (mutations : List TaskMutation) : TaskCommit :=
  let ctx := TaskMutationContext.draft a.projection mutations
  .mutation draft refresh ctx.projection ctx.chatChanges

/-- A committed batch of texts as the publication sees it: the last text dates the record. -/
def streamedCommit (a : ServerTask) (texts : List (String × String × String))
    (appends : List (String × String)) : TaskCommit :=
  .streamedText ((texts.getLast?.map (·.2.2)).getD a.record.updatedAt) appends

/-- `a` commits, publishes the changes and is `b`; the artifacts may have changed too. -/
inductive Commits (values : StoredValues) (imaging : Imaging) (a : ServerTask) :
    ChatCommit → TaskChanges → ServerTask → Prop where
  | mutation {draft : ShownTask} {refresh available : Bool} {mutations : List TaskMutation}
      {q : TaskProjection} {rows : List StoredMessage} {sequence n : Nat}
      {summarized : ToolStep → ToolStep}
      (drafted : draft.toTaskRecord =
        (TaskMutationContext.draft a.projection mutations).projection.task)
      (committed : journaled a.projection sequence (TaskMutationContext.draft a.projection
        (mutations ++ [.editTask fun _ =>
          ((mutationCommit a draft refresh mutations).record a.record).toTaskRecord])) =
        .ok (.available q n))
      (stored : StoredRows imaging q.messages rows) :
      Commits values imaging a (.mutation draft refresh mutations)
        ((mutationCommit a draft refresh mutations).published values imaging summarized available
          a.record)
        (.committed ((mutationCommit a draft refresh mutations).record a.record)
          { q with messages := rows } summarized)
  | streamed {texts : List (String × String × String)} {appends : List (String × String)}
      {available : Bool} {q : TaskProjection} {sequence n : Nat} {summarized : ToolStep → ToolStep}
      (committed : commitOperations a.projection sequence
        (streamedOperations ((streamedCommit a texts appends).record a.record).toTaskRecord texts) =
        .ok (.available q n))
      (looked : committedChatTextAppends
        (streamedOperations ((streamedCommit a texts appends).record a.record).toTaskRecord texts)
        q =
        .ok appends) :
      Commits values imaging a (.streamed texts)
        ((streamedCommit a texts appends).published values imaging summarized available a.record)
        (.committed ((streamedCommit a texts appends).record a.record) q summarized)

/-- **Pages show the rows of a draft as they were published**: a new or changed row as it is, every
other row as before; and a row that is recorded although it did not change was shown as it is. -/
structure PublishedAsShown (imaging : Imaging) (a : ServerTask) (summarized : ToolStep → ToolStep)
    (ctx : TaskMutationContext) : Prop where
  new : ∀ row ∈ ctx.projection.messages, row ∉ a.projection.messages →
    pageRow imaging summarized row = viewRow imaging row
  old : ∀ row ∈ ctx.projection.messages, row ∈ a.projection.messages →
    pageRow imaging summarized row = a.see imaging row
  again : ∀ row ∈ a.projection.messages, Suffix.Recorded row ctx.chatChanges →
    a.see imaging row = viewRow imaging row

/-- When a client with these rows loaded can follow a commit, `summarized` being what pages show of
Tool steps after it: every row is shown as it will be stored, and the Chat is replaced at the end,
or never, with distinct row ids and no unloaded row upserted. -/
def ChatCommit.Fits (imaging : Imaging) (a : ServerTask) (summarized : ToolStep → ToolStep)
    (loaded : List String) : ChatCommit → Prop
  | .mutation _ _ mutations =>
    let ctx := draft a.projection mutations
    (∀ row ∈ ctx.projection.messages, ShownAsStored imaging (pageRow imaging summarized) row) ∧
    (ctx.chatChanges.getLast? = some .replace ∨
      .replace ∉ ctx.chatChanges ∧ (messageIds ctx.projection.messages).Nodup ∧
      (∀ m ∈ ctx.chatChanges.filterMap CommittedChatChange.upserted?,
        m ∈ messageIds a.projection.messages → m ∈ loaded) ∧
      PublishedAsShown imaging a summarized ctx)
  | .streamed _ =>
    ∀ row ∈ a.projection.messages, pageRow imaging summarized row = a.see imaging row

/-! ## One commit -/

section Commit

variable {imaging : Imaging} {see : StoredMessage → ChatItemView} {k : Nat}
  {chat chat' : ChatSnapshot} {summarized : ToolStep → ToolStep} {values : StoredValues}
  {a b : ServerTask} {changes : TaskChanges}

variable {p : TaskProjection}

/-- **What a committed mutation leaves.** -/
theorem journaled_draft {q : TaskProjection} {ctx : TaskMutationContext} {sequence n : Nat}
    (hp : Distinct p.messages) (h : DraftOf p ctx)
    (hresult : journaled p sequence ctx = .ok (.available q n))
    (hids : .replace ∈ ctx.chatChanges ∨ (messageIds ctx.projection.messages).Nodup) :
    Reproduces ctx.projection (.available q n) ∧ Distinct q.messages := by
  by_cases hreplace : .replace ∈ ctx.chatChanges
  · refine ⟨journaled_replace h hreplace hresult, ?_⟩
    rw [journaled, journalOperations_replace hreplace] at hresult
    obtain ⟨operations, hops, hcommit⟩ := bind_eq_ok.mp hresult
    cases hops
    obtain ⟨⟨⟩, hvalid, happly⟩ := bind_eq_ok.mp hcommit
    exact distinct_applyOperations_available hp (by simp [TaskOperation.InstallsDistinct]) hvalid
      happly
  · by_cases hnil : ctx.chatChanges = []
    · have hreproduces := journaled_idle h hnil hresult
      refine ⟨hreproduces, ?_⟩
      obtain ⟨q', n', heq, hmessages, -⟩ := hreproduces
      cases heq
      rw [hmessages, show ctx.projection.messages = p.messages from
        congrArg Chat.messages (h.idle hnil)]
      exact hp
    · obtain ⟨⟨q', heq, hrows, hmeta, hheads, htask⟩, hfree, -, -⟩ :=
        journaled_rows hp h hnil hreplace hresult
      cases heq
      have hself := firsts_eq_self (hids.resolve_left hreplace)
      refine ⟨⟨q, _, rfl, hrows.trans hself, hmeta, hheads, htask⟩, ?_⟩
      rw [hrows]
      exact hfree.distinct

theorem committedTextAppend_eq_ok {identity text : String}
    {append : String × String} (h : committedTextAppend p identity text = .ok append) :
    ∃ stored, p.messages.find? (·.chat.identity = identity) = some stored ∧
      append = (stored.chat.messageId, text) := by
  unfold committedTextAppend at h
  split at h
  · rename_i stored hstored
    cases h
    exact ⟨stored, hstored, rfl⟩
  · cases h

variable {taskId : String}

theorem editChat_appendText {identity text now : String} {updatedAt : Option String}
    {c c' : Chat} (h : editChat taskId c (.appendText identity text now updatedAt) = .ok c') :
    (∃ stored, c.messages.find? (·.chat.identity = identity) = some stored ∧ stored.EndsInText) ∧
      c'.messages = updateFirst identity (appendToMessage text) c.messages := by
  obtain ⟨rows, happend, heq⟩ := bind_eq_ok.mp h
  cases heq
  obtain ⟨⟨⟩, htarget, heq⟩ := bind_eq_ok.mp happend
  cases heq
  exact ⟨validateTextTarget_eq_ok_iff.mp htarget, rfl⟩

variable {texts : List (String × String × String)}

theorem sameKeys_texts {c c' : Chat}
    (hedit : (textOperations texts).foldlM (editChat taskId) c = .ok c') :
    List.Forall₂ StoredMessage.SameKeys c'.messages c.messages := by
  induction texts generalizing c with
  | nil =>
    cases hedit
    exact List.forall₂_same.mpr fun row _ => .refl row
  | cons head rest ih =>
    obtain ⟨middle, hfirst, hrest⟩ := foldlM_cons_eq_ok.mp hedit
    obtain ⟨-, hrows⟩ := editChat_appendText hfirst
    have hkeys := sameKeys_updateFirst (sameKeys_appendToMessage head.2.1) c.messages head.1
    rw [← hrows] at hkeys
    exact forall₂_comp (fun _ _ _ hab hbd => hab.trans hbd) (ih hrest) hkeys

theorem mem_texts {c c' : Chat}
    (hedit : (textOperations texts).foldlM (editChat taskId) c = .ok c') {row : StoredMessage}
    (hrow : row ∈ c'.messages) : row ∈ c.messages ∨ ∃ m, row.chat.message = .agentMessage m := by
  induction texts generalizing c with
  | nil =>
    cases hedit
    exact .inl hrow
  | cons head rest ih =>
    obtain ⟨middle, hfirst, hrest⟩ := foldlM_cons_eq_ok.mp hedit
    refine (ih hrest).elim (fun hmiddle => ?_) .inr
    rw [(editChat_appendText hfirst).2] at hmiddle
    rcases mem_updateFirst hmiddle with hmem | ⟨old, hold, rfl⟩
    · exact .inl hmem
    · unfold appendToMessage
      split
      · exact .inr ⟨_, rfl⟩
      · exact .inl hold

theorem suffix_texts {c c' : Chat} {appends : List (String × String)}
    (h : Suffix see k c.messages chat.items) (hsee : RowView imaging see)
    (hids : (messageIds c.messages).Nodup)
    (hkeys : List.Forall₂ StoredMessage.SameKeys p.messages c.messages)
    (hedit : (textOperations texts).foldlM (editChat taskId) c = .ok c')
    (hlooked : (texts.map fun (identity, text, _) => (identity, text)).mapM
      (fun (identity, text) => committedTextAppend p identity text) = .ok appends)
    (hrun : (appends.map fun (messageId, text) => appendText messageId text).foldlM
      applyChatChange chat = .ok chat') : Suffix see k c'.messages chat'.items := by
  induction texts generalizing c chat appends with
  | nil =>
    cases hedit
    cases hlooked
    cases hrun
    exact h
  | cons head rest ih =>
    obtain ⟨identity, text, now⟩ := head
    obtain ⟨c₁, hfirst, hedit⟩ := foldlM_cons_eq_ok.mp hedit
    obtain ⟨⟨stored, hfound, hends⟩, hrows⟩ := editChat_appendText hfirst
    rw [List.map_cons, List.mapM_cons] at hlooked
    obtain ⟨append, hone, hlooked⟩ := bind_eq_ok.mp hlooked
    obtain ⟨others, hothers, heq⟩ := bind_eq_ok.mp hlooked
    cases heq
    obtain ⟨shown, hshown, rfl⟩ := committedTextAppend_eq_ok hone
    obtain ⟨stored', hstored', hsame⟩ := find?_sameKeys hkeys hshown
    obtain rfl : stored' = stored := Option.some.inj (hstored'.symm.trans hfound)
    rw [List.map_cons, foldlM_cons_eq_ok] at hrun
    obtain ⟨middle, hupdate, hrun⟩ := hrun
    rw [hsame.messageId] at hupdate
    have hnext := h.text hsee hids hfound hends hupdate
    have hsame₁ := sameKeys_updateFirst (sameKeys_appendToMessage text) c.messages identity
    rw [← hrows] at hnext hsame₁
    refine ih hnext ?_ ?_ hedit hothers hrun
    · rw [hrows]
      simpa using hids
    · exact forall₂_comp (fun a b d hab hbd => hab.trans hbd.symm) hkeys hsame₁.flip

theorem committedChatTextAppends_streamed (task : TaskRecord) (p : TaskProjection)
    (texts : List (String × String × String)) :
    committedChatTextAppends (streamedOperations task texts) p =
      (texts.map fun (identity, text, _) => (identity, text)).mapM
        fun (identity, text) => committedTextAppend p identity text := by
  simp only [committedChatTextAppends, streamedOperations, textOperations, List.filterMap_cons,
    List.filterMap_map]
  congr 1
  exact congrFun (List.filterMap_eq_map
    (f := fun t : String × String × String => (t.1, t.2.1))) texts

theorem installsDistinct_streamed (task : TaskRecord) (texts : List (String × String × String)) :
    ∀ op ∈ streamedOperations task texts, op.InstallsDistinct := by
  intro op hop
  rcases List.mem_cons.mp hop with rfl | htext
  · trivial
  · obtain ⟨head, -, rfl⟩ := List.mem_map.mp htext
    trivial

theorem revision_streamed (task task' : TaskRecord) (texts : List (String × String × String))
    (version : Nat) :
    (applyTask task (streamedOperations task' texts) version).revision = task'.revision := by
  have hfold : (textOperations texts).foldl editTask task' = task' := by
    induction texts with
    | nil => rfl
    | cons head rest ih => exact ih
  simp only [applyTask, streamedOperations, List.foldl_cons, editTask, hfold]
  split <;> rfl

/-- What a followed commit does to the server's rows and to the loaded items. -/
structure Kept (imaging : Imaging) (k : Nat) (a b : ServerTask) (changes : List TaskChatChange)
    (items : List ChatItemView) : Prop where
  distinct : Distinct b.projection.messages
  suffix : ∃ k', Suffix (b.see imaging) k' b.projection.messages items ∧
    (changes.any isReplace = false →
      k' = k ∧ messageIds a.projection.messages <+: messageIds b.projection.messages)

theorem suffix_replace {changes : List CommittedChatChange}
    (hlast : changes.getLast? = some .replace)
    (hrun : (changes.map (projectChatChange imaging summarized p)).foldlM applyChatChange chat =
      .ok chat') :
    (changes.map (projectChatChange imaging summarized p)).any isReplace = true ∧
      ∃ k, Suffix (pageRow imaging summarized) k p.messages chat'.items := by
  obtain ⟨earlier, rfl⟩ := List.getLast?_eq_some_iff.mp hlast
  refine ⟨by simp [projectChatChange, isReplace], ?_⟩
  rw [List.map_append, foldlM_append_eq_ok] at hrun
  obtain ⟨middle, -, hpage⟩ := hrun
  cases hpage
  exact ⟨_, suffix_page imaging summarized p _ (Nat.sub_le _ _)⟩

theorem not_above {rows : List StoredMessage} (h : Suffix see k rows chat.items)
    (hsee : RowView imaging see) (hids : (messageIds rows).Nodup) {m : String}
    (hm : m ∈ messageIds rows → m ∈ itemIds chat.items) : m ∉ (messageIds rows).take k := by
  intro habove
  have hloaded := hm (List.mem_of_mem_take habove)
  rw [h.ids hsee] at hloaded
  exact List.disjoint_take_drop hids (Nat.le_refl k) habove hloaded

section Mutation

variable {draft : ShownTask} {refresh : Bool} {mutations : List TaskMutation}
  (hcommit : Commits values imaging a (.mutation draft refresh mutations) changes b)
  (hdistinct : Distinct a.projection.messages)
include hcommit

theorem chat_of_mutation : ∃ recorded,
    (recorded.getLast? = some .replace ∨
      recorded = (TaskMutationContext.draft a.projection mutations).chatChanges) ∧
    changes.chat = recorded.map (projectChatChange imaging b.summarized
      (TaskMutationContext.draft a.projection mutations).projection) := by
  cases hcommit with
  | mutation drafted committed stored =>
    refine ⟨_, ?_, rfl⟩
    unfold committedChat
    split
    · exact .inl rfl
    · exact .inr rfl

include hdistinct

theorem committed_mutation {loaded : List String}
    (hfits : (ChatCommit.mutation draft refresh mutations).Fits imaging a b.summarized loaded) :
    StoredRows imaging (TaskMutationContext.draft a.projection mutations).projection.messages
        b.projection.messages ∧
      Distinct b.projection.messages ∧ b.record.revision = a.record.revision + 1 := by
  cases hcommit with
  | mutation drafted committed stored =>
    have hdraft := draftOf_draft hdistinct (mutations ++ [.editTask fun _ =>
      ((mutationCommit a draft refresh mutations).record a.record).toTaskRecord])
    rw [draft_concat] at committed hdraft
    obtain ⟨⟨q', n', heq, hrows, -, -, htask⟩, hq⟩ := journaled_draft hdistinct hdraft committed
      (hfits.2.imp (List.mem_of_getLast? ·) (·.2.1))
    cases heq
    refine ⟨?_, distinct_of_sameKeys stored.sameKeys hq, congrArg TaskRecord.revision htask⟩
    rw [hrows] at stored
    exact stored

end Mutation

/-- What is seen of a row of a draft: an old row as on pages, a new one as published. -/
def draftedRow (imaging : Imaging) (a : ServerTask) (row : StoredMessage) : ChatItemView :=
  if row ∈ a.projection.messages then a.see imaging row else viewRow imaging row

theorem rowView_drafted (imaging : Imaging) (a : ServerTask) :
    RowView imaging (draftedRow imaging a) where
  messageId row := by
    unfold draftedRow
    split
    · exact (rowView_page imaging a.summarized).messageId row
    · rfl
  agent row m hm := by
    unfold draftedRow
    split
    · exact (rowView_page imaging a.summarized).agent row m hm
    · rfl

namespace PublishedAsShown

variable {a : ServerTask} {ctx : TaskMutationContext} {row : StoredMessage}

theorem draftedRow_recorded (h : PublishedAsShown imaging a summarized ctx)
    (hrow : Suffix.Recorded row ctx.chatChanges) :
    draftedRow imaging a row = viewRow imaging row := by
  unfold draftedRow
  split
  · rename_i hold
    exact h.again row hold hrow
  · rfl

theorem draftedRow_eq (h : PublishedAsShown imaging a summarized ctx)
    (hrow : row ∈ ctx.projection.messages) :
    draftedRow imaging a row = pageRow imaging summarized row := by
  unfold draftedRow
  split
  · rename_i hold
    exact (h.old row hrow hold).symm
  · rename_i hnew
    exact (h.new row hrow hnew).symm

end PublishedAsShown

/-- **A mutation that fits.** -/
theorem kept_mutation {draft : ShownTask} {refresh : Bool} {mutations : List TaskMutation}
    (hcommit : Commits values imaging a (.mutation draft refresh mutations) changes b)
    (hdistinct : Distinct a.projection.messages)
    (hfits : (ChatCommit.mutation draft refresh mutations).Fits imaging a b.summarized
      (itemIds chat.items))
    (h : Suffix (a.see imaging) k a.projection.messages chat.items)
    (hrun : changes.chat.foldlM applyChatChange chat = .ok chat') :
    Kept imaging k a b changes.chat chat'.items := by
  obtain ⟨hstored, hb, -⟩ := committed_mutation hcommit hdistinct hfits
  obtain ⟨hshown, hlast⟩ := hfits
  obtain ⟨recorded, hrecorded, hchat⟩ := chat_of_mutation hcommit
  refine ⟨hb, ?_⟩
  rw [hchat] at hrun ⊢
  by_cases hreplace : recorded.getLast? = some .replace
  · obtain ⟨hany, k', hsuffix⟩ := suffix_replace hreplace hrun
    exact ⟨k', hstored.suffix hshown hsuffix, fun hnone => by rw [hnone] at hany; cases hany⟩
  · -- without a replacement the changes are those that the mutation recorded
    obtain rfl := hrecorded.resolve_left hreplace
    obtain ⟨hnone, hnodup, hloaded, hpublished⟩ := hlast.resolve_left hreplace
    refine ⟨k, hstored.suffix hshown ?_, fun _ => ⟨rfl, ?_⟩⟩
    · have hbefore : Suffix (draftedRow imaging a) k a.projection.messages chat.items :=
        h.congr fun row hrow => (if_pos hrow).symm
      refine (suffix_draft hbefore (rowView_drafted imaging a) mutations
        (fun row => hpublished.draftedRow_recorded) hnodup hnone (fun m hm => ?_) b.summarized
        _ hrun).congr fun row => hpublished.draftedRow_eq
      exact not_above h (rowView_page imaging a.summarized) hdistinct.messageIds (hloaded m hm)
    · rw [hstored.messageIds]
      exact messageIds_draft a.projection mutations hnone

/-- **A batch of streamed texts.** -/
theorem kept_streamed (hcommit : Commits values imaging a (.streamed texts) changes b)
    (hdistinct : Distinct a.projection.messages)
    (hfits : (ChatCommit.streamed texts).Fits imaging a b.summarized (itemIds chat.items))
    (h : Suffix (a.see imaging) k a.projection.messages chat.items)
    (hrun : changes.chat.foldlM applyChatChange chat = .ok chat') :
    Kept imaging k a b changes.chat chat'.items := by
  cases hcommit with
  | streamed committed looked =>
    rename_i summarized
    obtain ⟨⟨⟩, hvalid, happly⟩ := bind_eq_ok.mp committed
    have hq := distinct_applyOperations_available hdistinct (installsDistinct_streamed _ texts)
      hvalid happly
    obtain ⟨-, c, hchat, heq⟩ := commitOperations_eq_ok committed
    cases heq
    obtain ⟨c', hedit, hversion⟩ := bind_eq_ok.mp hchat
    have hmessages : c.messages = c'.messages := by
      split at hversion
      · obtain ⟨version, -, heq⟩ := bind_eq_ok.mp hversion
        cases heq
        rfl
      · cases hversion
        rfl
    obtain ⟨c₀, hfirst, hedit⟩ := foldlM_cons_eq_ok.mp hedit
    cases hfirst
    have hkeys : List.Forall₂ StoredMessage.SameKeys c.messages a.projection.messages :=
      hmessages ▸ sameKeys_texts hedit
    rw [committedChatTextAppends_streamed] at looked
    have hids : (messageIds a.projection.chat.messages).Nodup := hdistinct.messageIds
    have hview := rowView_page imaging a.summarized
    have hsuffix := suffix_texts h hview hids hkeys hedit looked hrun
    have hsame : ∀ row ∈ c'.messages, a.see imaging row = pageRow imaging summarized row := by
      intro row hrow
      rcases mem_texts hedit hrow with hold | ⟨m, hm⟩
      · exact (hfits row hold).symm
      · exact (hview.agent row m hm).trans ((rowView_page imaging summarized).agent row m hm).symm
    replace hsuffix := hsuffix.congr hsame
    rw [← hmessages] at hsuffix
    refine ⟨hq, k, hsuffix, fun _ => ⟨rfl, ?_⟩⟩
    show _ <+: messageIds c.messages
    rw [messageIds, messageIds, (keys_eq hkeys).2.2]

theorem kept_of_commits {commit : ChatCommit} (hcommit : Commits values imaging a commit changes b)
    (hdistinct : Distinct a.projection.messages)
    (hfits : commit.Fits imaging a b.summarized (itemIds chat.items))
    (h : Suffix (a.see imaging) k a.projection.messages chat.items)
    (hrun : changes.chat.foldlM applyChatChange chat = .ok chat') :
    Kept imaging k a b changes.chat chat'.items := by
  cases commit with
  | mutation draft refresh mutations => exact kept_mutation hcommit hdistinct hfits h hrun
  | streamed texts => exact kept_streamed hcommit hdistinct hfits h hrun

theorem revision_of_commits {commit : ChatCommit} {loaded : List String}
    (hcommit : Commits values imaging a commit changes b)
    (hdistinct : Distinct a.projection.messages)
    (hfits : commit.Fits imaging a b.summarized loaded) :
    b.record.revision = a.record.revision + 1 := by
  cases commit with
  | mutation draft refresh mutations => exact (committed_mutation hcommit hdistinct hfits).2.2
  | streamed texts =>
    cases hcommit with
    | streamed committed looked =>
      obtain ⟨-, c, -, heq⟩ := commitOperations_eq_ok committed
      cases heq
      exact revision_streamed _ _ _ _

end Commit

/-! ## Runs -/

/-- The server's rows when the client last got a whole Chat, and how many of them it did not get. -/
structure Baseline where
  ids : List String
  first : Nat

def Baseline.of (rows : List StoredMessage) (items : List ChatItemView) : Baseline :=
  ⟨messageIds rows, rows.length - items.length⟩

/-- A client that starts from a tail page and applies what is published of one commit after another,
all of which fit. -/
inductive Followed (values : StoredValues) (imaging : Imaging) (around : Surroundings)
    (start : ServerTask) (limit : Nat) : ServerTask → TaskSnapshot → Baseline → Prop where
  | start : Followed values imaging around start limit start
      (projectStoredTaskSnapshot values imaging around start.record
        (tailPageOf start.summarized start.projection limit))
      (.of start.projection.messages
        (projectChatPage imaging (tailPageOf start.summarized start.projection limit)).items)
  | commit {a b : ServerTask} {s s' : TaskSnapshot} {base : Baseline} {commit : ChatCommit}
      {changes : TaskChanges} (before : Followed values imaging around start limit a s base)
      (committed : Commits values imaging a commit changes b)
      (fits : commit.Fits imaging a b.summarized (itemIds s.chat.items))
      (applied : updateTaskSnapshot s b.record.revision changes = .ok s') :
      Followed values imaging around start limit b s'
        (if changes.chat.any isReplace then
          .of b.projection.messages s'.chat.items else base)

/-- What holds of the server's Task, the client's copy and its baseline. -/
structure Follows (imaging : Imaging) (a : ServerTask) (s : TaskSnapshot) (base : Baseline) :
    Prop where
  distinct : Distinct a.projection.messages
  revision : s.revision = a.record.revision
  suffix : Suffix (a.see imaging) base.first a.projection.messages s.chat.items
  ids : base.ids <+: messageIds a.projection.messages
  start : base.first ≤ base.ids.length

theorem Suffix.first {see : StoredMessage → ChatItemView} {k : Nat} {rows : List StoredMessage}
    {items : List ChatItemView} (h : Suffix see k rows items) :
    (Baseline.of rows items).first = k := by
  have hlength : items.length = rows.length - k := by
    rw [h.items, List.length_map, List.length_drop]
  have hstart := h.start
  show rows.length - items.length = k
  omega

/-- A new baseline. -/
theorem follows_baseline {imaging : Imaging} {a : ServerTask} {s : TaskSnapshot} {k : Nat}
    (hdistinct : Distinct a.projection.messages) (hrevision : s.revision = a.record.revision)
    (h : Suffix (a.see imaging) k a.projection.messages s.chat.items) :
    Follows imaging a s (.of a.projection.messages s.chat.items) where
  distinct := hdistinct
  revision := hrevision
  suffix := by rw [h.first]; exact h
  ids := List.prefix_rfl
  start := by simp [Baseline.of, messageIds]

theorem updateTaskSnapshot_eq_ok {s s' : TaskSnapshot} {changes : TaskChanges} {revision : Nat}
    (h : updateTaskSnapshot s revision changes = .ok s') (hnext : revision = s.revision + 1) :
    s'.revision = revision ∧ changes.chat.foldlM applyChatChange s.chat = .ok s'.chat := by
  rw [updateTaskSnapshot, if_neg (by omega), if_neg (by omega)] at h
  obtain ⟨chat, hchat, heq⟩ := bind_eq_ok.mp h
  cases heq
  exact ⟨rfl, hchat⟩

/-- **One published commit.** -/
theorem Follows.commit {values : StoredValues} {imaging : Imaging} {a b : ServerTask}
    {s s' : TaskSnapshot} {base : Baseline} {commit : ChatCommit} {changes : TaskChanges}
    (h : Follows imaging a s base) (hcommit : Commits values imaging a commit changes b)
    (hfits : commit.Fits imaging a b.summarized (itemIds s.chat.items))
    (happly : updateTaskSnapshot s b.record.revision changes = .ok s') :
    Follows imaging b s' (if changes.chat.any isReplace then
      .of b.projection.messages s'.chat.items else base) := by
  have hrevision := revision_of_commits hcommit h.distinct hfits
  obtain ⟨hnext, hchat⟩ := updateTaskSnapshot_eq_ok happly (h.revision ▸ hrevision)
  obtain ⟨hdistinct, k', hsuffix, hsame⟩ :=
    kept_of_commits hcommit h.distinct hfits h.suffix hchat
  cases hany : changes.chat.any isReplace with
  | true => exact follows_baseline hdistinct hnext hsuffix
  | false =>
    obtain ⟨rfl, hids⟩ := hsame hany
    exact ⟨hdistinct, hnext, hsuffix, h.ids.trans hids, h.start⟩

namespace Example

def storedAs (sequence : Nat) (message : NormalizedMessage) (id : String) : StoredMessage where
  sequence
  chat := {
    cursor := Mutation.fromSequence sequence
    messageId := id
    identity := message.identity
    messageType := message.messageType
    message
    timing := {} }

/-- An answer of the Agent. -/
def answer (text : String) : NormalizedMessage :=
  .agentMessage { id := "a", role := .agent, parts := [.text text], createdAt := "1" }

/-- A Tool step without a summary of its own. -/
def reading : NormalizedMessage :=
  .activity { id := "b", title := "Read", status := .completed, createdAt := "1", collapsed := false
              steps := [.tool { toolCallId := "c", name := "read", status := .completed }] }

/-- An answer, and a Tool step that pages show with a path out of its artifact. -/
def server : ServerTask where
  record := task
  projection := { projection with messages :=
    [storedAs 1 (answer "x") "a", storedAs 2 reading "b"] }
  summarized step := { step with inputSummary := some "a.txt" }
  same := rfl

/-- The client has the second row. -/
def client : TaskSnapshot :=
  projectStoredTaskSnapshot values imaging around server.record
    (tailPageOf server.summarized server.projection 1)

def appendRow : List TaskMutation :=
  [.appendMessage (.user { id := "c", text := "z", createdAt := "2" }) 2]

def upsertFirst : List TaskMutation :=
  [.upsertMessageWithDetails (answer "z") 2 2]

/-- What the mutation leaves in the journal. -/
def journaledOf (mutations : List TaskMutation) : Except RuntimeError RecoveredTask :=
  journaled server.projection 1 (draft server.projection
    (mutations ++ [.editTask fun _ =>
      ((mutationCommit server task false mutations).record server.record).toTaskRecord]))

def resultOf (mutations : List TaskMutation) : TaskProjection :=
  match journaledOf mutations with
  | .ok (.available q _) => q
  | _ => server.projection

def serverAfter (mutations : List TaskMutation) : ServerTask :=
  .committed ((mutationCommit server task false mutations).record server.record)
    (resultOf mutations) server.summarized

def changesOf (mutations : List TaskMutation) : TaskChanges :=
  (mutationCommit server task false mutations).published values imaging server.summarized true
    server.record

def clientAfter (mutations : List TaskMutation) : TaskSnapshot :=
  match updateTaskSnapshot client 2 (changesOf mutations) with
  | .ok s => s
  | .error _ => client

theorem distinct_server : Distinct server.projection.messages :=
  validateMessageSet_eq_ok_iff.mp rfl

theorem commits_of_journaled (mutations : List TaskMutation)
    (hdrafted : task.toTaskRecord = (draft server.projection mutations).projection.task)
    (hresult : journaledOf mutations = .ok (.available (resultOf mutations) 2)) :
    Commits values imaging server (.mutation task false mutations) (changesOf mutations)
      (serverAfter mutations) :=
  Commits.mutation hdrafted hresult (List.forall₂_same.mpr fun _ _ => .inl rfl)

end Example

open TaskReplica.Example

end TaskReplica

end OpenAide

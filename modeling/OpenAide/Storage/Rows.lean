import OpenAide.Library.Keyed
import OpenAide.Storage.Projection

/-!
# The rows of a Chat

What the row operations of `storage/task_journal/projection.rs` do to rows that are told apart by
sequence, identity and message id (`Distinct`).

- `upsertMessage_present`, `upsertMessage_absent`, `updateFirst_eq_map`: each operation as a change
  of one row or an append;
- `validateOperation_of_editChat`: the shadow of `validate_operations` accepts a row operation that
  applies.  The shadow does not append the text itself, so its rows are only `Alike` the real ones.
-/

namespace OpenAide

open Library

/-- The rows agree in what rows are told apart by. -/
structure StoredMessage.SameKeys (a b : StoredMessage) : Prop where
  sequence : a.sequence = b.sequence
  identity : a.chat.identity = b.chat.identity
  messageId : a.chat.messageId = b.chat.messageId

theorem StoredMessage.SameKeys.refl (a : StoredMessage) : a.SameKeys a := ⟨rfl, rfl, rfl⟩

theorem StoredMessage.SameKeys.trans {a b c : StoredMessage} (h : a.SameKeys b)
    (h' : b.SameKeys c) : a.SameKeys c :=
  ⟨h.sequence.trans h'.sequence, h.identity.trans h'.identity, h.messageId.trans h'.messageId⟩

theorem StoredMessage.SameKeys.symm {a b : StoredMessage} (h : a.SameKeys b) : b.SameKeys a :=
  ⟨h.sequence.symm, h.identity.symm, h.messageId.symm⟩

/-- The row is an Agent message whose last part is text, so that text can be appended. -/
def StoredMessage.EndsInText (stored : StoredMessage) : Prop :=
  ∃ m text, stored.chat.message = .agentMessage m ∧ m.parts.getLast? = some (.text text)

/-- No two rows share a sequence, an identity or a message id. -/
structure Distinct (messages : List StoredMessage) : Prop where
  sequences : (messages.map (·.sequence)).Nodup
  identities : (messages.map (·.chat.identity)).Nodup
  messageIds : (messages.map (·.chat.messageId)).Nodup

namespace Projection

variable {messages : List StoredMessage}

theorem validateMessageSet_eq_ok_iff :
    validateMessageSet messages = .ok () ↔ Distinct messages := by
  unfold validateMessageSet
  split
  · rename_i h
    exact ⟨fun _ => ⟨h.1, h.2.1, h.2.2⟩, fun _ => rfl⟩
  · rename_i h
    exact ⟨fun h' => (nomatch h'), fun h' => absurd ⟨h'.1, h'.2, h'.3⟩ h⟩

variable {message : StoredMessage}

theorem validateMessageAppend_eq_ok_iff :
    validateMessageAppend messages message = .ok () ↔
      message.sequence ∉ messages.map (·.sequence) ∧
      message.chat.identity ∉ messages.map (·.chat.identity) ∧
      message.chat.messageId ∉ messages.map (·.chat.messageId) := by
  have hclash : messages.any (clash · message) = true ↔
      ¬ (message.sequence ∉ messages.map (·.sequence) ∧
        message.chat.identity ∉ messages.map (·.chat.identity) ∧
        message.chat.messageId ∉ messages.map (·.chat.messageId)) := by
    simp only [List.any_eq_true, clash, Bool.or_eq_true, decide_eq_true_eq, List.mem_map]
    grind
  unfold validateMessageAppend
  split
  · rename_i h
    exact ⟨fun h' => (nomatch h'), fun h' => absurd h' (hclash.mp h)⟩
  · rename_i h
    exact ⟨fun _ => by_contra fun h' => h (hclash.mpr h'), fun _ => rfl⟩

theorem distinct_append (h : Distinct messages)
    (hm : validateMessageAppend messages message = .ok ()) : Distinct (messages ++ [message]) := by
  obtain ⟨hs, hi, hid⟩ := validateMessageAppend_eq_ok_iff.mp hm
  have hnodup : ∀ {α : Type} {xs : List α} {x : α}, xs.Nodup → x ∉ xs → (xs ++ [x]).Nodup :=
    fun hxs hx => hxs.append (List.nodup_singleton _) (by simpa using hx)
  constructor
  · simpa only [List.map_append, List.map_singleton] using hnodup h.sequences hs
  · simpa only [List.map_append, List.map_singleton] using hnodup h.identities hi
  · simpa only [List.map_append, List.map_singleton] using hnodup h.messageIds hid

variable {identity : String}

theorem updateFirst_found {stored : StoredMessage}
    (found : messages.find? (·.chat.identity = identity) = some stored)
    (f : StoredMessage → StoredMessage) :
    updateFirst identity f messages = updateFirst identity (fun _ => f stored) messages := by
  induction messages with
  | nil => rfl
  | cons row rest ih =>
    by_cases hrow : row.chat.identity = identity
    · simp only [List.find?_cons, hrow, decide_true] at found
      cases found
      simp only [updateFirst, if_pos hrow]
    · simp only [List.find?_cons, hrow, decide_false] at found
      simp only [updateFirst, if_neg hrow, ih found]

theorem updateFirst_eq_map (h : (messages.map (·.chat.identity)).Nodup) (identity : String)
    (f : StoredMessage → StoredMessage) :
    updateFirst identity f messages =
      messages.map fun row => if row.chat.identity = identity then f row else row := by
  induction messages with
  | nil => rfl
  | cons row rest ih =>
    obtain ⟨hrow, hrest⟩ := List.nodup_cons.mp (by simpa only [List.map_cons] using h)
    by_cases heq : row.chat.identity = identity
    · have hothers : (rest.map fun r => if r.chat.identity = identity then f r else r) = rest := by
        refine (List.map_congr_left fun r hr => if_neg fun hr' => hrow ?_).trans rest.map_id
        exact List.mem_map.mpr ⟨r, hr, hr'.trans heq.symm⟩
      simp only [updateFirst, List.map_cons, if_pos heq, hothers]
    · simp only [updateFirst, List.map_cons, if_neg heq, ih hrest]

theorem set_findIdx? {index : Nat} (h : messages.findIdx? (·.chat.identity = identity) = some index)
    (message : StoredMessage) :
    messages.set index message = updateFirst identity (fun _ => message) messages := by
  induction messages generalizing index with
  | nil => cases h
  | cons row rest ih =>
    by_cases hrow : row.chat.identity = identity
    · simp only [List.findIdx?_cons, hrow, decide_true, if_true, Option.some.injEq] at h
      subst h
      simp only [updateFirst, if_pos hrow, List.set_cons_zero]
    · simp only [List.findIdx?_cons, hrow, decide_false, Bool.false_eq_true, if_false] at h
      obtain ⟨i, hi, rfl⟩ := Option.map_eq_some_iff.mp h
      simp only [updateFirst, if_neg hrow, List.set_cons_succ, ih hi]

variable {row : StoredMessage}

theorem collides_eq_false (h : Distinct messages) {index : Nat} (hlt : index < messages.length)
    (hkeys : message.SameKeys messages[index]) : collides messages index message = false := by
  have hnodup : messages.Nodup := List.Nodup.of_map _ h.sequences
  refine List.any_eq_false.mpr fun ⟨other, candidate⟩ hmem => ?_
  obtain ⟨hclt, rfl⟩ := List.getElem?_eq_some_iff.mp (List.mk_mem_zipIdx_iff_getElem?.mp hmem)
  have hself : messages[candidate] = messages[index] → candidate = index :=
    fun heq => hnodup.getElem_inj_iff.mp heq
  have hsequence : messages[candidate].sequence = message.sequence → candidate = index := fun heq =>
    hself (List.inj_on_of_nodup_map h.sequences (List.getElem_mem hclt) (List.getElem_mem hlt)
      (heq.trans hkeys.sequence))
  have hid : messages[candidate].chat.messageId = message.chat.messageId → candidate = index :=
    fun heq => hself (List.inj_on_of_nodup_map h.messageIds (List.getElem_mem hclt)
      (List.getElem_mem hlt) (heq.trans hkeys.messageId))
  simp only [ne_eq, Bool.and_eq_true, Bool.or_eq_true, decide_eq_true_eq]
  rintro ⟨hne, heq | heq⟩
  · exact hne (hsequence heq)
  · exact hne (hid heq)

theorem upsertMessage_present (h : Distinct messages) (hrow : row ∈ messages)
    (hkeys : message.SameKeys row) :
    upsertMessage messages message =
      .ok (updateFirst message.chat.identity (fun _ => message) messages) := by
  obtain ⟨index, hindex⟩ : ∃ index,
      messages.findIdx? (·.chat.identity = message.chat.identity) = some index :=
    Option.isSome_iff_exists.mp (List.findIdx?_isSome.trans
      (List.any_eq_true.mpr ⟨row, hrow, decide_eq_true hkeys.identity.symm⟩))
  obtain ⟨hlt, hidentity, -⟩ := List.findIdx?_eq_some_iff_getElem.mp hindex
  have hat : messages[index] = row :=
    List.inj_on_of_nodup_map h.identities (List.getElem_mem hlt) hrow
      ((of_decide_eq_true hidentity).trans hkeys.identity)
  have hcollides : collides messages index message = false :=
    collides_eq_false h hlt (hat ▸ hkeys)
  simp only [upsertMessage, hindex, hcollides, Bool.false_eq_true, if_false, set_findIdx? hindex]

theorem upsertMessage_absent (h : message.chat.identity ∉ messages.map (·.chat.identity)) :
    upsertMessage messages message = do
      validateMessageAppend messages message
      return messages ++ [message] := by
  have hindex : messages.findIdx? (·.chat.identity = message.chat.identity) = none := by
    refine List.findIdx?_eq_none_iff.mpr fun row hrow => decide_eq_false fun heq => h ?_
    exact List.mem_map.mpr ⟨row, hrow, heq⟩
  simp only [upsertMessage, hindex]

variable {xs ys : List StoredMessage}

theorem keys_eq (h : List.Forall₂ StoredMessage.SameKeys xs ys) :
    xs.map (·.sequence) = ys.map (·.sequence) ∧
      xs.map (·.chat.identity) = ys.map (·.chat.identity) ∧
      xs.map (·.chat.messageId) = ys.map (·.chat.messageId) :=
  ⟨map_eq_of_forall₂ (h.imp fun _ _ hab => hab.sequence),
    map_eq_of_forall₂ (h.imp fun _ _ hab => hab.identity),
    map_eq_of_forall₂ (h.imp fun _ _ hab => hab.messageId)⟩

theorem distinct_of_sameKeys (h : List.Forall₂ StoredMessage.SameKeys xs ys) (hys : Distinct ys) :
    Distinct xs := by
  obtain ⟨hs, hi, hid⟩ := keys_eq h
  exact ⟨hs ▸ hys.sequences, hi ▸ hys.identities, hid ▸ hys.messageIds⟩

variable {f : StoredMessage → StoredMessage}

theorem sameKeys_map (hf : ∀ row ∈ messages, (f row).SameKeys row) :
    List.Forall₂ StoredMessage.SameKeys (messages.map f) messages :=
  List.forall₂_map_left_iff.mpr (List.forall₂_same.mpr hf)

theorem sameKeys_updateFirst (hf : ∀ row, (f row).SameKeys row)
    (messages : List StoredMessage) (identity : String) :
    List.Forall₂ StoredMessage.SameKeys (updateFirst identity f messages) messages := by
  induction messages with
  | nil => exact .nil
  | cons row rest ih =>
    have hrest : List.Forall₂ StoredMessage.SameKeys rest rest :=
      List.forall₂_same.mpr fun r _ => .refl r
    by_cases hrow : row.chat.identity = identity
    · simp only [updateFirst, if_pos hrow]
      exact .cons (hf row) hrest
    · simp only [updateFirst, if_neg hrow]
      exact .cons (.refl row) ih

theorem mem_updateFirst (h : row ∈ updateFirst identity f messages) :
    row ∈ messages ∨ ∃ old ∈ messages, row = f old := by
  induction messages with
  | nil => cases h
  | cons first rest ih =>
    rw [updateFirst] at h
    split at h
    · rcases List.mem_cons.mp h with rfl | h
      · exact .inr ⟨first, List.mem_cons_self, rfl⟩
      · exact .inl (List.mem_cons_of_mem _ h)
    · rcases List.mem_cons.mp h with rfl | h
      · exact .inl List.mem_cons_self
      · rcases ih h with hmem | ⟨old, hold, heq⟩
        · exact .inl (List.mem_cons_of_mem _ hmem)
        · exact .inr ⟨old, List.mem_cons_of_mem _ hold, heq⟩

theorem updateFirst_append (identity : String) (f : StoredMessage → StoredMessage)
    (xs ys : List StoredMessage) :
    updateFirst identity f (xs ++ ys) =
      if (xs.find? (·.chat.identity = identity)).isSome then updateFirst identity f xs ++ ys
      else xs ++ updateFirst identity f ys := by
  induction xs with
  | nil => rfl
  | cons row rest ih =>
    by_cases hrow : row.chat.identity = identity
    · simp [updateFirst, hrow]
    · have hfind : (row :: rest).find? (·.chat.identity = identity) =
          rest.find? (·.chat.identity = identity) := by
        simp only [List.find?_cons, hrow, decide_false]
      rw [hfind, List.cons_append, updateFirst, if_neg hrow, ih, apply_ite (row :: ·)]
      simp only [updateFirst, if_neg hrow, List.cons_append]

theorem find?_sameKeys (h : List.Forall₂ StoredMessage.SameKeys xs ys) {x : StoredMessage}
    (hx : xs.find? (·.chat.identity = identity) = some x) :
    ∃ y, ys.find? (·.chat.identity = identity) = some y ∧ x.SameKeys y := by
  induction h with
  | nil => cases hx
  | @cons a b _ _ hab _ ih =>
    by_cases ha : a.chat.identity = identity
    · have hb : b.chat.identity = identity := hab.identity ▸ ha
      simp only [List.find?_cons, ha, decide_true, Option.some.injEq] at hx
      subst hx
      exact ⟨b, by simp only [List.find?_cons, hb, decide_true], hab⟩
    · have hb : b.chat.identity ≠ identity := fun hb => ha (hab.identity.trans hb)
      simp only [List.find?_cons, ha, decide_false] at hx
      simpa only [List.find?_cons, hb, decide_false] using ih hx

/-! ## Text -/

theorem getLast?_appendToLastPart (chunk : String) (parts : List AgentMessagePart) :
    (appendToLastPart chunk parts).getLast? = parts.getLast?.map fun
      | .text text => .text (text ++ chunk)
      | part => part := by
  induction parts with
  | nil => rfl
  | cons part rest ih =>
    cases rest with
    | nil => cases part <;> rfl
    | cons next rest =>
      have hne : appendToLastPart chunk (next :: rest) ≠ [] := by
        cases next <;> cases rest <;> simp [appendToLastPart]
      have hcons : appendToLastPart chunk (part :: next :: rest) =
          part :: appendToLastPart chunk (next :: rest) := by
        cases part <;> rfl
      rw [hcons, List.getLast?_cons_cons, ← ih]
      exact List.getLast?_cons_of_ne_nil hne

theorem sameKeys_appendToMessage (chunk : String) (stored : StoredMessage) :
    (appendToMessage chunk stored).SameKeys stored := by
  unfold appendToMessage
  split <;> exact ⟨rfl, rfl, rfl⟩

theorem endsInText_appendToMessage (chunk : String) (stored : StoredMessage) :
    (appendToMessage chunk stored).EndsInText ↔ stored.EndsInText := by
  unfold appendToMessage StoredMessage.EndsInText
  split
  · rename_i m hm
    simp only [hm, NormalizedMessage.agentMessage.injEq, exists_and_left, exists_eq_left',
      getLast?_appendToLastPart]
    cases m.parts.getLast? with
    | none => simp
    | some part => cases part <;> simp
  · rfl

theorem validateTextTarget_eq_ok_iff :
    validateTextTarget messages identity = .ok () ↔
      ∃ stored, messages.find? (·.chat.identity = identity) = some stored ∧ stored.EndsInText := by
  unfold validateTextTarget
  cases messages.find? (·.chat.identity = identity) with
  | none => simp
  | some stored =>
    simp only [Option.some.injEq, exists_eq_left', StoredMessage.EndsInText]
    cases hm : stored.chat.message with
    | agentMessage m =>
      simp only [NormalizedMessage.agentMessage.injEq, exists_and_left, exists_eq_left']
      cases m.parts.getLast? with
      | none => simp
      | some part => cases part <;> simp
    | _ => simp

/-! ## Validation against a shadow -/

/-- The rows pass the same checks: same keys, and text can be appended to both or to neither. -/
structure Alike (a b : StoredMessage) : Prop where
  keys : a.SameKeys b
  endsInText : a.EndsInText ↔ b.EndsInText

theorem find?_alike (h : List.Forall₂ Alike xs ys) {y : StoredMessage}
    (hy : ys.find? (·.chat.identity = identity) = some y) :
    ∃ x, xs.find? (·.chat.identity = identity) = some x ∧ Alike x y := by
  induction h with
  | nil => cases hy
  | @cons a b _ _ hab _ ih =>
    by_cases hb : b.chat.identity = identity
    · simp only [List.find?_cons, hb, decide_true] at hy
      cases hy
      exact ⟨a, by simp only [List.find?_cons, hab.keys.identity, hb, decide_true], hab⟩
    · simp only [List.find?_cons, hb, decide_false] at hy
      obtain ⟨x, hx, hxy⟩ := ih hy
      exact ⟨x, by simpa only [List.find?_cons, hab.keys.identity, hb, decide_false] using hx, hxy⟩

theorem findIdx?_alike (h : List.Forall₂ StoredMessage.SameKeys xs ys) (identity : String) :
    xs.findIdx? (·.chat.identity = identity) = ys.findIdx? (·.chat.identity = identity) := by
  have hmap : ∀ zs : List StoredMessage, zs.findIdx? (·.chat.identity = identity) =
      (zs.map (·.chat.identity)).findIdx? (· = identity) := fun zs => by
    rw [List.findIdx?_map]
    rfl
  rw [hmap, hmap, (keys_eq h).2.1]

theorem collides_alike (h : List.Forall₂ StoredMessage.SameKeys xs ys) (index : Nat)
    (message : StoredMessage) : collides xs index message = collides ys index message := by
  have hmap : ∀ zs : List StoredMessage, collides zs index message =
      ((zs.map fun z => (z.sequence, z.chat.messageId)).zipIdx).any fun (keys, candidate) =>
        candidate ≠ index && (keys.1 = message.sequence || keys.2 = message.chat.messageId) := by
    intro zs
    rw [List.zipIdx_map, List.any_map]
    rfl
  have hkeys : xs.map (fun z => (z.sequence, z.chat.messageId)) =
      ys.map fun z => (z.sequence, z.chat.messageId) :=
    map_eq_of_forall₂ (h.imp fun _ _ hab => by rw [hab.sequence, hab.messageId])
  rw [hmap, hmap, hkeys]

theorem validateMessageAppend_alike (h : List.Forall₂ StoredMessage.SameKeys xs ys)
    (hys : validateMessageAppend ys message = .ok ()) :
    validateMessageAppend xs message = .ok () := by
  obtain ⟨hs, hi, hid⟩ := keys_eq h
  rw [validateMessageAppend_eq_ok_iff] at hys ⊢
  rwa [hs, hi, hid]

theorem upsertMessage_alike {ys' : List StoredMessage} (h : List.Forall₂ Alike xs ys)
    (hys : upsertMessage ys message = .ok ys') :
    ∃ xs', upsertMessage xs message = .ok xs' ∧ List.Forall₂ Alike xs' ys' := by
  have hkeys : List.Forall₂ StoredMessage.SameKeys xs ys := h.imp fun _ _ hab => hab.keys
  have hself : Alike message message := ⟨.refl message, Iff.rfl⟩
  unfold upsertMessage at hys ⊢
  rw [findIdx?_alike hkeys]
  split at hys
  · rename_i index _
    rw [collides_alike hkeys]
    split at hys
    · cases hys
    · rename_i hcollides
      cases hys
      exact ⟨_, if_neg hcollides, forall₂_set h hself index⟩
  · obtain ⟨⟨⟩, happend, heq⟩ := bind_eq_ok.mp hys
    cases heq
    refine ⟨xs ++ [message], ?_, List.rel_append h (.cons hself .nil)⟩
    rw [validateMessageAppend_alike hkeys happend]
    rfl

theorem alike_updateFirst (h : List.Forall₂ Alike xs ys) (identity chunk : String) :
    List.Forall₂ Alike xs (updateFirst identity (appendToMessage chunk) ys) := by
  induction h with
  | nil => exact .nil
  | @cons a b _ _ hab hrest ih =>
    by_cases hb : b.chat.identity = identity
    · simp only [updateFirst, if_pos hb]
      refine .cons ⟨hab.keys.trans (sameKeys_appendToMessage chunk b).symm, ?_⟩ hrest
      rw [hab.endsInText, endsInText_appendToMessage]
    · simp only [updateFirst, if_neg hb]
      exact .cons hab ih

/-- **A row operation that applies is one that validates**, on a shadow whose rows are alike. -/
theorem validateOperation_of_editChat {taskId : String} {p : TaskProjection} {c c' : Chat}
    {op : TaskOperation} (hop : op.changesHistory = true)
    (h : List.Forall₂ Alike p.messages c.messages) (hedit : editChat taskId c op = .ok c') :
    ∃ p', validateOperation taskId (some p) op = .ok (some p') ∧
      List.Forall₂ Alike p'.messages c'.messages := by
  cases op with
  | appendText identity text updatedAt taskUpdatedAt =>
    obtain ⟨messages, happend, heq⟩ := bind_eq_ok.mp hedit
    cases heq
    obtain ⟨⟨⟩, htarget, heq⟩ := bind_eq_ok.mp happend
    cases heq
    obtain ⟨y, hy, hends⟩ := validateTextTarget_eq_ok_iff.mp htarget
    obtain ⟨x, hx, hxy⟩ := find?_alike h hy
    have hvalid := validateTextTarget_eq_ok_iff.mpr ⟨x, hx, hxy.endsInText.mpr hends⟩
    refine ⟨p, ?_, alike_updateFirst h identity text⟩
    simp only [validateOperation, shadow, bind, Except.bind, hvalid]
    rfl
  | appendMessage message =>
    obtain ⟨⟨⟩, happend, heq⟩ := bind_eq_ok.mp hedit
    cases heq
    have hvalid := validateMessageAppend_alike (h.imp fun _ _ hab => hab.keys) happend
    refine ⟨{ p with messages := p.messages ++ [message] }, ?_, ?_⟩
    · simp only [validateOperation, shadow, bind, Except.bind, hvalid]
      rfl
    · exact List.rel_append h (.cons ⟨.refl message, Iff.rfl⟩ .nil)
  | upsertMessage message =>
    obtain ⟨messages, hupsert, heq⟩ := bind_eq_ok.mp hedit
    cases heq
    obtain ⟨rows, hrows, halike⟩ := upsertMessage_alike h hupsert
    refine ⟨{ p with messages := rows }, ?_, halike⟩
    simp only [validateOperation, shadow, bind, Except.bind, hrows]
    rfl
  | _ => cases hop

theorem foldlM_validateOperation_of_editChat {taskId : String} {operations : List TaskOperation}
    (hops : ∀ op ∈ operations, op.changesHistory = true) {p : TaskProjection} {c c' : Chat}
    (h : List.Forall₂ Alike p.messages c.messages)
    (hedit : operations.foldlM (editChat taskId) c = .ok c') :
    ∃ p', operations.foldlM (validateOperation taskId) (some p) = .ok (some p') := by
  induction operations generalizing p c with
  | nil => exact ⟨p, rfl⟩
  | cons op rest ih =>
    obtain ⟨next, hnext, hrest⟩ := foldlM_cons_eq_ok.mp hedit
    obtain ⟨p', hp', halike⟩ :=
      validateOperation_of_editChat (hops op List.mem_cons_self) h hnext
    obtain ⟨last, hlast⟩ := ih (fun o ho => hops o (List.mem_cons_of_mem _ ho)) halike hrest
    exact ⟨last, foldlM_cons_eq_ok.mpr ⟨some p', hp', hlast⟩⟩

theorem alike_refl (messages : List StoredMessage) : List.Forall₂ Alike messages messages :=
  List.forall₂_same.mpr fun row _ => ⟨.refl row, Iff.rfl⟩

end Projection

end OpenAide

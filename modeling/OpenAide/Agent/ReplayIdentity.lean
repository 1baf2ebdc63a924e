import OpenAide.Agent.ReplayStability

/-!
# Identities of replayed rows

Two rows of the buffer never have one shape (`Distinct`): ordinals are used once, an ACP message id
has one row per channel, and an item replaces the row of its identity.  Renaming keeps the anonymous
texts apart, from each other by counting and from everything else by the form of their ids.  So rows
can share an identity only across channels, and there is one way they do: `stable_message_id` names
a user's row and an Agent's row of the same ACP message id alike.

- `distinct_projectAll`: no shape twice, in any replay;
- `identities_nodup_iff`: **the identities are distinct exactly when no ACP message id is used by a
  user chunk and by an Agent chunk** (unless its row id looks anonymous; then the user's row is
  renamed).
-/

namespace OpenAide.Replay

open Library

/-! ## Ids determine what they were made from -/

variable {kind : ReplayTextKind}

variable {sessionId : String}

theorem ordinalId_inj {m n : Nat}
    (h : ordinalId sessionId kind m = ordinalId sessionId kind n) : m = n := by
  simpa [ordinalId, ← Nat.repr_inj] using h

theorem sourcedId_inj {source source' : String}
    (h : sourcedId sessionId kind source = sourcedId sessionId kind source') :
    source = source' := by
  cases kind <;> simpa [sourcedId, stableMessageId, stableAgentMessageId] using h

theorem ordinalId_ne_sourcedId (sessionId : String) (kind kind' : ReplayTextKind) (n : Nat)
    (source : String) : ordinalId sessionId kind n ≠ sourcedId sessionId kind' source := by
  cases kind <;> cases kind' <;>
  simp [ordinalId, sourcedId, stableMessageId, stableAgentMessageId, ReplayTextKind.label,
    String.append_assoc, ← String.toList_inj]

theorem hexDigits_inj {width m n : Nat} (hm : m < 16 ^ width) (hn : n < 16 ^ width)
    (h : hexDigits width m = hexDigits width n) : m = n := by
  induction width generalizing m n with
  | zero => omega
  | succ width ih =>
    obtain ⟨hhigh, hlow⟩ := List.append_inj' h rfl
    have hdigit : ∀ a < 16, ∀ b < 16, Nat.digitChar a = Nat.digitChar b → a = b := by decide
    have hmod := hdigit (m % 16) (Nat.mod_lt _ (by decide)) (n % 16) (Nat.mod_lt _ (by decide))
      (List.singleton_inj.mp hlow)
    have hdiv := ih (m := m / 16) (n := n / 16) (by omega) (by omega) hhigh
    omega

theorem length_hexDigits (width n : Nat) : (hexDigits width n).length = width := by
  induction width generalizing n with
  | zero => rfl
  | succ width ih => simp [hexDigits, ih]

theorem hex16_inj {m n : UInt64} (h : hex16 m = hex16 n) : m = n := by
  have hdigits : hexDigits 16 m.toNat = hexDigits 16 n.toNat := String.ofList_injective h
  exact UInt64.toNat_inj.mp (hexDigits_inj m.toNat_lt n.toNat_lt hdigits)

variable {kind' : ReplayTextKind}

theorem label_inj {rest rest' : List Char}
    (h : kind.label.toList ++ ':' :: rest = kind'.label.toList ++ ':' :: rest') :
    kind = kind' ∧ rest = rest' := by
  cases kind <;> cases kind' <;> simp_all [ReplayTextKind.label]

theorem fallbackId_inj {fingerprint fingerprint' : UInt64} {n n' : Nat}
    (h : fallbackId sessionId kind fingerprint n = fallbackId sessionId kind' fingerprint' n') :
    (kind, fingerprint) = (kind', fingerprint') ∧ n = n' := by
  have hlabel : kind.label.toList ++ ':' :: ((hex16 fingerprint).toList ++ ':' :: n.repr.toList) =
      kind'.label.toList ++ ':' :: ((hex16 fingerprint').toList ++ ':' :: n'.repr.toList) := by
    simpa [fallbackId, ← String.toList_inj, String.append_assoc] using h
  obtain ⟨rfl, hrest⟩ := label_inj hlabel
  obtain ⟨hhex, hn⟩ := List.append_inj hrest (by simp [hex16, length_hexDigits])
  rw [hex16_inj (String.toList_inj.mp hhex)]
  exact ⟨rfl, Nat.repr_inj.mp (String.toList_inj.mp (List.cons.inj hn).2)⟩

theorem ordinalId_ne_fallbackId (sessionId : String) (kind kind' : ReplayTextKind) (n n' : Nat)
    (fingerprint : UInt64) :
    ordinalId sessionId kind n ≠ fallbackId sessionId kind' fingerprint n' := by
  intro h
  have hlabel : kind.label.toList ++ ':' :: n.repr.toList =
      kind'.label.toList ++ ':' :: ((hex16 fingerprint).toList ++ ':' :: n'.repr.toList) := by
    simpa [ordinalId, fallbackId, ← String.toList_inj, String.append_assoc] using h
  obtain ⟨rfl, hrest⟩ := label_inj hlabel
  have hcolon : ':' ∈ n.repr.toList := by rw [hrest]; simp
  rw [Nat.toList_repr] at hcolon
  exact absurd (Nat.isDigit_of_mem_toDigits (by decide) (by decide) hcolon) (by decide)

theorem Named.ne_fallbackId {shape : Option ReplayTextKind × String}
    (h : Named sessionId shape) (kind : ReplayTextKind) (fingerprint : UInt64) (n : Nat) :
    shape.2 ≠ fallbackId sessionId kind fingerprint n := by
  obtain ⟨_ | kind', id⟩ := shape
  · rintro rfl
    rcases h with ⟨toolCallId, h⟩ | ⟨ordinal, h⟩ | ⟨compactionId, h⟩ <;>
    cases kind <;>
    simp [fallbackId, toolRowId, planId, stableCompactionId, ReplayTextKind.label,
      String.append_assoc, ← String.toList_inj] at h
  · rcases h with ⟨ordinal, rfl⟩ | ⟨source, rfl⟩
    · exact ordinalId_ne_fallbackId sessionId kind' kind ordinal n fingerprint
    · cases kind' <;> cases kind <;>
      simp [fallbackId, sourcedId, stableMessageId, stableAgentMessageId, ReplayTextKind.label,
        String.append_assoc, ← String.toList_inj]

variable {id : String}

theorem TextId.shared {sessionId : String} (hne : kind ≠ kind') (h : TextId sessionId kind id)
    (h' : TextId sessionId kind' id) :
    ∃ source, id = stableMessageId sessionId source ∧
      ((kind = .user ∧ kind' = .agent) ∨ (kind = .agent ∧ kind' = .user)) := by
  rcases h with ⟨ordinal, rfl⟩ | ⟨source, rfl⟩
  · rcases h' with ⟨ordinal', h'⟩ | ⟨source', h'⟩
    · have hlabel : kind.label.toList ++ ':' :: ordinal.repr.toList =
          kind'.label.toList ++ ':' :: ordinal'.repr.toList := by
        simpa [ordinalId, ← String.toList_inj, String.append_assoc] using h'
      exact absurd (label_inj hlabel).1 hne
    · exact absurd h' (ordinalId_ne_sourcedId _ _ _ _ _)
  · rcases h' with ⟨ordinal', h'⟩ | ⟨source', h'⟩
    · exact absurd h'.symm (ordinalId_ne_sourcedId _ _ _ _ _)
    · cases kind <;> cases kind' <;>
      simp_all [sourcedId, stableMessageId, stableAgentMessageId, String.append_assoc,
        ← String.toList_inj]

/-! ## What an update can add -/

namespace ReplayBuffer

/-- What one update does to the shapes and to what they are looked up by: nothing, if its row is
there; otherwise it adds one row, with an identity no item has, the next ordinal, or an ACP message
id its channel has not seen. -/
inductive Grown (sessionId : String) (source : Option (ReplayTextKind × String))
    (b b' : ReplayBuffer) : Prop
  | same (hshapes : b'.shapes = b.shapes) (hindex : b'.index? = b.index?)
      (hnext : b'.nextTextOrdinal = b.nextTextOrdinal)
      (hknown : ∀ kind id, source = some (kind, id) → (b.index? kind id).isSome)
  | item (id : String) (hid : ItemId sessionId id) (hnew : (none, id) ∉ b.shapes)
      (hshapes : b'.shapes = b.shapes ++ [(none, id)]) (hindex : b'.index? = b.index?)
      (hnext : b'.nextTextOrdinal = b.nextTextOrdinal) (hsource : source = none)
  | anonymous (kind : ReplayTextKind)
      (hshapes : b'.shapes = b.shapes ++ [(some kind, ordinalId sessionId kind b.nextTextOrdinal)])
      (hindex : b'.index? = b.index?) (hnext : b'.nextTextOrdinal = b.nextTextOrdinal + 1)
      (hsource : source = none)
  | sourced (kind : ReplayTextKind) (id : String) (hsource : source = some (kind, id))
      (hnew : b.index? kind id = none)
      (hshapes : b'.shapes = b.shapes ++ [(some kind, sourcedId sessionId kind id)])
      (hindex : ∀ kind' id', b'.index? kind' id' =
        if kind = kind' ∧ id = id' then some b.messages.length else b.index? kind' id')
      (hnext : b'.nextTextOrdinal = b.nextTextOrdinal)

variable {p : ReplayProjection} {shown : Shown} {createdAt : String} {b b' b'' : ReplayBuffer}
  {sessionId : String} {source : Option (ReplayTextKind × String)}

/-- **One update.** -/
theorem grown_project (h : Located p.sessionId b) (update : SessionUpdate) :
    Grown p.sessionId update.source b (b.project p shown createdAt update) := by
  have hchange : Change p.sessionId update.source b (b.project p shown createdAt update) :=
    change_project h update
  have hknown (hsource : update.source = none) (kind : ReplayTextKind) (id : String)
      (hsome : update.source = some (kind, id)) : (b.index? kind id).isSome := by
    cases hsource.symm.trans hsome
  cases hchange with
  | same hbooks hmessages _ hsource =>
    exact .same (congrArg (List.map rowShape) hmessages) hbooks.index hbooks.next (hknown hsource)
  | item hbooks hshape hid hmessages _ hsource =>
    have hrows := congrArg (List.map rowShape) hmessages
    rcases shapes_upsertRows h hshape hid with hsame | ⟨hshapes, hnew⟩
    · exact .same (hrows.trans hsame) hbooks.index hbooks.next (hknown hsource)
    · exact .item _ hid hnew (hrows.trans hshapes) hbooks.index hbooks.next hsource
  | chunk hbooks _ hmessages _ hsource =>
    refine .same ?_ hbooks.index hbooks.next (hknown hsource)
    exact (congrArg (List.map rowShape) hmessages).trans
      (map_modify_eq fun _ _ => rowShape_appendTextChunk _ _)
  | sourcedChunk hbooks hsource hrow hf hmessages _ =>
    refine .same ?_ hbooks.index hbooks.next fun kind id hsome => ?_
    · exact (congrArg (List.map rowShape) hmessages).trans (map_modify_eq fun _ _ => hf _)
    · cases hsource.symm.trans hsome
      exact Option.isSome_iff_exists.mpr ⟨_, hrow⟩
  | @anonymous kind message hshape hmessages hindex hnext _ _ hsource =>
    exact .anonymous kind (by simp [shapes, hmessages, hshape]) hindex hnext hsource
  | @sourced kind id message hsource hnew hshape hmessages hindex hnext _ _ =>
    exact .sourced kind id hsource hnew (by simp [shapes, hmessages, hshape]) hindex hnext

/-! ## No shape twice -/

/-- What keeps the shapes apart. -/
structure Distinct (sessionId : String) (b : ReplayBuffer) : Prop where
  nodup : b.shapes.Nodup
  ordinals : ∀ kind n, (some kind, ordinalId sessionId kind n) ∈ b.shapes → n < b.nextTextOrdinal
  sources : ∀ kind id, (some kind, sourcedId sessionId kind id) ∈ b.shapes →
    (b.index? kind id).isSome

/-- The shapes stay apart. -/
theorem Grown.distinct (h : Grown sessionId source b b') (hb : Distinct sessionId b) :
    Distinct sessionId b' := by
  have happend {shape : Option ReplayTextKind × String} (hnew : shape ∉ b.shapes) :
      (b.shapes ++ [shape]).Nodup :=
    List.nodup_append.mpr ⟨hb.nodup, List.nodup_singleton _, fun x hx y hy => by
      rw [List.mem_singleton.mp hy]
      rintro rfl
      exact hnew hx⟩
  cases h with
  | same hshapes hindex hnext _ =>
    refine ⟨hshapes ▸ hb.nodup, ?_, ?_⟩
    · rw [hshapes, hnext]
      exact hb.ordinals
    · rw [hshapes, hindex]
      exact hb.sources
  | item id _ hnew hshapes hindex hnext _ =>
    refine ⟨hshapes ▸ happend hnew, ?_, ?_⟩
    · intro kind n hmem
      rw [hshapes] at hmem
      simpa [hnext] using hb.ordinals kind n (by simpa using hmem)
    · intro kind id' hmem
      rw [hshapes] at hmem
      simpa [hindex] using hb.sources kind id' (by simpa using hmem)
  | anonymous kind hshapes hindex hnext _ =>
    refine ⟨hshapes ▸ happend fun hmem => (hb.ordinals _ _ hmem).false, ?_, ?_⟩
    · intro kind' n hmem
      rw [hshapes, List.mem_append, List.mem_singleton] at hmem
      rw [hnext]
      rcases hmem with hmem | heq
      · exact Nat.lt_succ_of_lt (hb.ordinals kind' n hmem)
      · obtain ⟨hkind, hid⟩ := Prod.mk.inj heq
        cases hkind
        exact Nat.lt_succ_of_le (ordinalId_inj hid).le
    · intro kind' id' hmem
      rw [hshapes, List.mem_append, List.mem_singleton] at hmem
      rw [hindex]
      rcases hmem with hmem | heq
      · exact hb.sources kind' id' hmem
      · exact absurd (Prod.mk.inj heq).2.symm (ordinalId_ne_sourcedId _ _ _ _ _)
  | sourced kind id _ hnew hshapes hindex hnext =>
    refine ⟨hshapes ▸ happend fun hmem => ?_, ?_, ?_⟩
    · exact absurd (hb.sources kind id hmem) (by simp [hnew])
    · intro kind' n hmem
      rw [hshapes, List.mem_append, List.mem_singleton] at hmem
      rw [hnext]
      rcases hmem with hmem | heq
      · exact hb.ordinals kind' n hmem
      · exact absurd (Prod.mk.inj heq).2 (ordinalId_ne_sourcedId _ _ _ _ _)
    · intro kind' id' hmem
      rw [hshapes, List.mem_append, List.mem_singleton] at hmem
      rw [hindex]
      split
      · rfl
      rename_i hother
      rcases hmem with hmem | heq
      · exact hb.sources kind' id' hmem
      · obtain ⟨hkind, hid⟩ := Prod.mk.inj heq
        cases hkind
        exact absurd ⟨rfl, (sourcedId_inj hid).symm⟩ hother

theorem Grown.index?_isSome (h : Grown sessionId source b b') (kind : ReplayTextKind)
    (id : String) :
    (b'.index? kind id).isSome ↔ (b.index? kind id).isSome ∨ source = some (kind, id) := by
  cases h with
  | same _ hindex _ hknown =>
    rw [hindex]
    exact ⟨.inl, fun h => h.elim (fun h => h) (hknown kind id)⟩
  | item _ _ _ _ hindex _ hsource => simp [hindex, hsource]
  | anonymous _ _ hindex _ hsource => simp [hindex, hsource]
  | sourced kind' id' hsource _ _ hindex _ =>
    rw [hindex, hsource]
    split
    · rename_i heq
      simp [heq.1, heq.2]
    · rename_i hne
      simp only [Option.some.injEq, Prod.mk.injEq, hne, or_false]

/-- **A whole replay**: no shape twice, and rows for exactly the ACP message ids that came. -/
theorem distinct_projectAll (updates : List SessionUpdate) :
    Distinct p.sessionId (projectAll p shown createdAt updates) ∧
      ∀ kind id, ((projectAll p shown createdAt updates).index? kind id).isSome ↔
        ∃ update ∈ updates, update.source = some (kind, id) := by
  induction updates using List.reverseRecOn with
  | nil =>
    refine ⟨⟨List.nodup_nil, by simp [projectAll, shapes], by simp [projectAll, shapes]⟩, ?_⟩
    intro kind id
    cases kind <;> simp [projectAll, index?, Assoc.get?]
  | append_singleton updates update ih =>
    have hstep : projectAll p shown createdAt (updates ++ [update]) =
        (projectAll p shown createdAt updates).project p shown createdAt update := by
      simp [projectAll]
    have hlocated : Located p.sessionId (projectAll p shown createdAt updates) :=
      located_projectAll updates
    have hgrown : Grown p.sessionId update.source (projectAll p shown createdAt updates)
        ((projectAll p shown createdAt updates).project p shown createdAt update) :=
      grown_project hlocated update
    rw [hstep]
    refine ⟨hgrown.distinct ih.1, fun kind id => ?_⟩
    rw [hgrown.index?_isSome, ih.2]
    simp [or_and_right, exists_or]

end ReplayBuffer

/-! ## Renaming keeps rows apart -/

/-- The identities that `finalize_fallback_ids` leaves. -/
def keptIdentities (rows : List (String × Option (ReplayTextKind × UInt64))) : List String :=
  (rows.filter (·.2 = none)).map (·.1)

variable {sessionId : String} {occurrences : Assoc (ReplayTextKind × UInt64) Nat}
    {rows : List (String × Option (ReplayTextKind × UInt64))}

theorem mem_finalIdentities (h : id ∈ finalIdentities sessionId occurrences rows) :
    id ∈ keptIdentities rows ∨ ∃ key n, (occurrences.get? key).getD 0 ≤ n ∧
      id = fallbackId sessionId key.1 key.2 n := by
  induction rows generalizing occurrences with
  | nil => cases h
  | cons row rest ih =>
    obtain ⟨first, _ | key⟩ := row
    · rcases List.mem_cons.mp h with rfl | h
      · exact .inl (by simp [keptIdentities])
      · rcases ih h with hkept | hcounted
        · exact .inl (by simp_all [keptIdentities])
        · exact .inr hcounted
    · rcases List.mem_cons.mp h with rfl | h
      · exact .inr ⟨key, _, le_rfl, rfl⟩
      · rcases ih h with hkept | ⟨key', n, hn, rfl⟩
        · exact .inl (by simpa [keptIdentities] using hkept)
        · refine .inr ⟨key', n, ?_, rfl⟩
          rw [Assoc.get?_insert] at hn
          split at hn
          · rename_i heq
            rw [← heq]
            exact Nat.le_of_succ_le hn
          · exact hn

theorem kept_mem_finalIdentities (h : id ∈ keptIdentities rows) :
    id ∈ finalIdentities sessionId occurrences rows := by
  induction rows generalizing occurrences with
  | nil => cases h
  | cons row rest ih =>
    obtain ⟨first, _ | key⟩ := row
    · simp only [keptIdentities, decide_true, List.filter_cons_of_pos, List.map_cons,
        List.mem_cons] at h
      exact List.mem_cons.mpr (h.imp_right fun hrest => ih hrest)
    · exact List.mem_cons_of_mem _ (ih (by simpa [keptIdentities] using h))

theorem nodup_finalIdentities_iff (h : ∀ id ∈ keptIdentities rows, ∀ kind fingerprint n,
      id ≠ fallbackId sessionId kind fingerprint n) :
    (finalIdentities sessionId occurrences rows).Nodup ↔ (keptIdentities rows).Nodup := by
  induction rows generalizing occurrences with
  | nil => exact Iff.rfl
  | cons row rest ih =>
    obtain ⟨first, _ | key⟩ := row
    · have hkept : keptIdentities ((first, none) :: rest) = first :: keptIdentities rest := by
        simp [keptIdentities]
      rw [hkept] at h ⊢
      rw [finalIdentities, List.nodup_cons, List.nodup_cons,
        ih fun id hid => h id (List.mem_cons_of_mem _ hid)]
      refine and_congr_left fun _ => not_congr ⟨fun hmem => ?_, kept_mem_finalIdentities⟩
      rcases mem_finalIdentities hmem with hmem | ⟨key, n, -, heq⟩
      · exact hmem
      · exact absurd heq (h first List.mem_cons_self _ _ _)
    · have hkept : keptIdentities ((first, some key) :: rest) = keptIdentities rest := by
        simp [keptIdentities]
      rw [hkept] at h ⊢
      rw [finalIdentities, List.nodup_cons, ih h]
      refine ⟨And.right, fun hrest => ⟨fun hmem => ?_, hrest⟩⟩
      rcases mem_finalIdentities hmem with hmem | ⟨key', n, hn, heq⟩
      · exact h _ hmem _ _ _ rfl
      · -- the same text is counted further on
        obtain ⟨hkey, rfl⟩ := fallbackId_inj heq
        have hsame : key = key' := hkey
        subst hsame
        simp at hn

/-! ## Shared identities -/

open ReplayBuffer

theorem fallbackKey_user {message : NormalizedMessage} (h : rowShape message = (some .user, id)) :
    fallbackKey message = none ↔ containsReplay id = false := by
  cases message with
  | user m =>
    cases h
    simp [fallbackKey, replayTextParts]
  | agentMessage m => cases hrole : m.role <;> simp [rowShape, hrole, ReplayTextKind.ofRole] at h
  | _ => cases h

/-- The shapes of the rows that keep their identity. -/
def keptShapes (b : ReplayBuffer) : List (Option ReplayTextKind × String) :=
  (b.messages.filter (fallbackKey · = none)).map rowShape

theorem mem_shapes_of_kept {b : ReplayBuffer} {shape : Option ReplayTextKind × String}
    (h : shape ∈ keptShapes b) : shape ∈ b.shapes :=
  (List.filter_sublist.map rowShape).subset h

theorem keptIdentities_eq (b : ReplayBuffer) :
    keptIdentities (b.messages.map sketch) = (keptShapes b).map Prod.snd := by
  have hidentity : Prod.snd ∘ rowShape = Prod.fst ∘ sketch := funext rowShape_snd
  rw [keptIdentities, keptShapes, List.filter_map, List.map_map, List.map_map, hidentity]
  rfl

theorem nodup_keptShapes_iff {b : ReplayBuffer} (h : Located sessionId b)
    (hdistinct : ReplayBuffer.Distinct sessionId b) :
    ((keptShapes b).map Prod.snd).Nodup ↔ ∀ source, (b.index? .user source).isSome →
      (b.index? .agent source).isSome → containsReplay (stableMessageId sessionId source) := by
  have hkeptNodup : (keptShapes b).Nodup :=
    (List.filter_sublist.map rowShape).nodup hdistinct.nodup
  rw [List.nodup_map_iff_inj_on hkeptNodup]
  constructor
  · intro hinj source huser hagent
    by_contra hplain
    rw [Bool.not_eq_true] at hplain
    have hkept (kind : ReplayTextKind)
        (hmem : (some kind, stableMessageId sessionId source) ∈ b.shapes) :
        (some kind, stableMessageId sessionId source) ∈ keptShapes b := by
      obtain ⟨row, hrow, hshape⟩ := List.mem_map.mp hmem
      have hidentity : row.identity = stableMessageId sessionId source := by
        rw [← rowShape_snd, hshape]
      have hkey := fallbackKey_unmarked (hidentity ▸ hplain)
      exact List.mem_map.mpr ⟨row, List.mem_filter.mpr ⟨hrow, by simpa using hkey⟩, hshape⟩
    obtain ⟨i, hi⟩ := Option.isSome_iff_exists.mp huser
    obtain ⟨j, hj⟩ := Option.isSome_iff_exists.mp hagent
    have huser := List.mem_of_getElem? (h.index? hi)
    have hagent := List.mem_of_getElem? (h.index? hj)
    have hsame := hinj _ (hkept .user huser) _ (hkept .agent hagent) rfl
    cases hsame
  · rintro hshared ⟨kind, id⟩ hrow ⟨kind', id'⟩ hrow' (rfl : id = id')
    have hnamed := h.named _ (mem_shapes_of_kept hrow)
    have hnamed' := h.named _ (mem_shapes_of_kept hrow')
    by_contra hne
    -- a user's row in the keep and the Agent's row of its id contradict the hypothesis
    have hclash (huser : (some .user, id) ∈ keptShapes b)
        (hagent : (some .agent, id) ∈ keptShapes b)
        (source : String) (hid : id = stableMessageId sessionId source) : False := by
      obtain ⟨row, hrow, hshape⟩ := List.mem_map.mp huser
      have hplain := (fallbackKey_user hshape).mp
        (of_decide_eq_true (List.mem_filter.mp hrow).2)
      subst hid
      have hreplay := hshared source (hdistinct.sources .user source (mem_shapes_of_kept huser))
        (hdistinct.sources .agent source (mem_shapes_of_kept hagent))
      rw [hplain] at hreplay
      cases hreplay
    match kind, kind' with
    | none, none => exact hne rfl
    | none, some kind' => exact TextId.not_itemId hnamed' hnamed
    | some kind, none => exact TextId.not_itemId hnamed hnamed'
    | some kind, some kind' =>
      have hkinds : kind ≠ kind' := by
        rintro rfl
        exact hne rfl
      obtain ⟨source, hid, ⟨rfl, rfl⟩ | ⟨rfl, rfl⟩⟩ := TextId.shared hkinds hnamed hnamed'
      · exact hclash hrow hrow' source hid
      · exact hclash hrow' hrow source hid

/-- **Replayed rows have distinct identities exactly when no ACP message id is carried by a user's
text chunk and by a chunk of an Agent's message**, save ids whose rows are renamed as anonymous. -/
theorem identities_nodup_iff (p : ReplayProjection) (shown : Shown) (createdAt : String)
    (updates : List SessionUpdate) :
    ((p.messages shown createdAt updates).map (·.identity)).Nodup ↔
      ∀ source, (∃ text, .userMessageChunk (.text text) (some source) ∈ updates) →
        (∃ content, .agentMessageChunk content (some source) ∈ updates) →
          containsReplay (stableMessageId p.sessionId source) := by
  have hlocated : Located p.sessionId (projectAll p shown createdAt updates) :=
    located_projectAll updates
  have hall : ReplayBuffer.Distinct p.sessionId (projectAll p shown createdAt updates) ∧
      ∀ kind id, ((projectAll p shown createdAt updates).index? kind id).isSome ↔
        ∃ update ∈ updates, update.source = some (kind, id) := distinct_projectAll updates
  have huser (source : String) : (∃ update ∈ updates, update.source = some (.user, source)) ↔
      ∃ text, .userMessageChunk (.text text) (some source) ∈ updates := by
    constructor
    · rintro ⟨update, hmem, hsource⟩
      rcases update with ⟨text | _ | _, messageId⟩ | _ | _ | _ | _ | _ | _ | _ | _ | _ | _ <;>
        simp_all [SessionUpdate.source]
      exact ⟨text, hmem⟩
    · rintro ⟨text, hmem⟩
      exact ⟨_, hmem, rfl⟩
  have hagent (source : String) : (∃ update ∈ updates, update.source = some (.agent, source)) ↔
      ∃ content, .agentMessageChunk content (some source) ∈ updates := by
    constructor
    · rintro ⟨update, hmem, hsource⟩
      rcases update with ⟨_ | _ | _, _⟩ | ⟨content, messageId⟩ | _ | _ | _ | _ | _ | _ | _ | _ |
        _ <;>
        simp_all [SessionUpdate.source]
      exact ⟨content, hmem⟩
    · rintro ⟨content, hmem⟩
      exact ⟨_, hmem, rfl⟩
  rw [ReplayProjection.messages, identities_finalizeFallbackIds, nodup_finalIdentities_iff,
    keptIdentities_eq, nodup_keptShapes_iff hlocated hall.1]
  · simp only [hall.2, huser, hagent]
  · intro id hid kind fingerprint n
    rw [keptIdentities_eq] at hid
    obtain ⟨shape, hshape, rfl⟩ := List.mem_map.mp hid
    exact (hlocated.named shape (mem_shapes_of_kept hshape)).ne_fallbackId kind fingerprint n

/-- An Agent that gives its answer the ACP message id of the question: two rows, one identity. -/
theorem shared_message_id_repeats_identity :
    ¬((ReplayProjection.messages ⟨none, "session"⟩ .nothing "now"
      [.userMessageChunk (.text "Hi") (some "m1"),
        .agentMessageChunk (.text "Hello") (some "m1")]).map (·.identity)).Nodup := by
  decide +kernel

end OpenAide.Replay

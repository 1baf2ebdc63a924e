import Mathlib

/-!
# Lists whose elements have a key

`firsts key xs` keeps, of the elements with one key, the first.  Looking a key up finds the same
element in `xs` and in `firsts key xs` (`find?_firsts`), so a list is determined by its keys and by
what the lookup answers for them (`eq_of_keys`).

- `firsts_append_congr`, `firsts_append_subset`: what follows matters only through its new keys;
- `firsts_eq_self_iff`: nothing is dropped exactly when no key repeats;
- `modify_findIdx?`: a change of the first element with a key, as a `map`;
- `distinctPrefix`: the elements before the first repeated key.
-/

namespace OpenAide.Library

variable {α κ : Type} [DecidableEq κ]

/-- The first element of every key, in the order of the list. -/
def firsts (key : α → κ) (xs : List α) : List α :=
  xs.foldl (fun kept x => if key x ∈ kept.map key then kept else kept ++ [x]) []

theorem firsts_concat_kept (key : α → κ) (xs : List α) (x : α) :
    firsts key (xs ++ [x]) =
      if key x ∈ (firsts key xs).map key then firsts key xs else firsts key xs ++ [x] := by
  rw [firsts, List.foldl_append]
  rfl

/-- No key is lost. -/
@[simp] theorem mem_map_firsts (key : α → κ) (xs : List α) (k : κ) :
    k ∈ (firsts key xs).map key ↔ k ∈ xs.map key := by
  induction xs using List.reverseRecOn generalizing k with
  | nil => rfl
  | append_singleton xs x ih =>
    rw [firsts_concat_kept]
    split
    · rename_i h
      rw [ih] at h ⊢
      simp only [List.map_append, List.map_cons, List.map_nil, List.mem_append, List.mem_singleton]
      exact ⟨.inl, fun hk => hk.elim id (· ▸ h)⟩
    · simp only [List.map_append, List.map_cons, List.map_nil, List.mem_append, ih]

@[simp] theorem mem_firsts_id (xs : List κ) (k : κ) : k ∈ firsts id xs ↔ k ∈ xs := by
  simpa only [List.map_id] using mem_map_firsts id xs k

theorem firsts_concat (key : α → κ) (xs : List α) (x : α) :
    firsts key (xs ++ [x]) =
      if key x ∈ xs.map key then firsts key xs else firsts key xs ++ [x] := by
  simp only [firsts_concat_kept, mem_map_firsts]

variable {xs : List α} {key : α → κ} {x : α}

theorem firsts_concat_old (h : key x ∈ xs.map key) : firsts key (xs ++ [x]) = firsts key xs := by
  rw [firsts_concat, if_pos h]

theorem firsts_concat_new (h : key x ∉ xs.map key) :
    firsts key (xs ++ [x]) = firsts key xs ++ [x] := by
  rw [firsts_concat, if_neg h]

theorem nodup_map_firsts (key : α → κ) (xs : List α) : ((firsts key xs).map key).Nodup := by
  induction xs using List.reverseRecOn with
  | nil => exact List.nodup_nil
  | append_singleton xs x ih =>
    rw [firsts_concat_kept]
    split
    · exact ih
    · rename_i h
      rw [List.map_append]
      exact ih.append (List.nodup_singleton _) (by simpa using h)

theorem firsts_sublist (key : α → κ) (xs : List α) : (firsts key xs).Sublist xs := by
  induction xs using List.reverseRecOn with
  | nil => exact List.Sublist.refl _
  | append_singleton xs x ih =>
    rw [firsts_concat_kept]
    split
    · exact ih.trans (List.sublist_append_left xs [x])
    · exact ih.append (List.Sublist.refl _)

theorem map_firsts (key : α → κ) (xs : List α) :
    (firsts key xs).map key = firsts id (xs.map key) := by
  induction xs using List.reverseRecOn with
  | nil => rfl
  | append_singleton xs x ih =>
    rw [List.map_append, List.map_singleton, firsts_concat, firsts_concat]
    simp only [id_eq, List.map_id, apply_ite (List.map key), List.map_append, List.map_singleton,
      ih]

theorem firsts_eq_self (h : (xs.map key).Nodup) : firsts key xs = xs := by
  induction xs using List.reverseRecOn with
  | nil => rfl
  | append_singleton xs x ih =>
    rw [List.map_append, List.map_singleton, List.nodup_append] at h
    have hx : key x ∉ xs.map key := fun hm => h.2.2 _ hm _ (List.mem_singleton_self _) rfl
    rw [firsts_concat_new hx, ih h.1]

/-- **Nothing is dropped exactly when no key repeats.** -/
theorem firsts_eq_self_iff (key : α → κ) (xs : List α) : firsts key xs = xs ↔ (xs.map key).Nodup :=
  ⟨fun h => h ▸ nodup_map_firsts key xs, firsts_eq_self⟩

/-! ## Keys that follow -/

theorem firsts_append_congr {xs ys : List κ} (h : firsts id xs = firsts id ys) (zs : List κ) :
    firsts id (xs ++ zs) = firsts id (ys ++ zs) := by
  induction zs using List.reverseRecOn with
  | nil => simpa using h
  | append_singleton zs z ih => rw [← List.append_assoc, ← List.append_assoc,
      firsts_concat_kept, firsts_concat_kept, ih]

theorem firsts_append_subset {xs zs : List κ} (h : ∀ z ∈ zs, z ∈ xs) :
    firsts id (xs ++ zs) = firsts id xs := by
  induction zs using List.reverseRecOn with
  | nil => simp
  | append_singleton zs z ih =>
    have hz : z ∈ xs := h z (by simp)
    rw [← List.append_assoc, firsts_concat_old (by simp [hz]),
      ih fun w hw => h w (List.mem_append_left _ hw)]

theorem firsts_append_left (xs zs : List κ) :
    ∃ more, firsts id (xs ++ zs) = firsts id xs ++ more := by
  induction zs using List.reverseRecOn with
  | nil => exact ⟨[], by simp⟩
  | append_singleton zs z ih =>
    obtain ⟨more, hmore⟩ := ih
    rw [← List.append_assoc, firsts_concat]
    split
    · exact ⟨more, hmore⟩
    · exact ⟨more ++ [z], by rw [hmore, List.append_assoc]⟩

/-! ## Lookup -/

theorem find?_key (h : (xs.map key).Nodup) (hx : x ∈ xs) : xs.find? (key · = key x) = some x := by
  obtain ⟨y, hy⟩ := Option.isSome_iff_exists.mp
    (List.find?_isSome.mpr ⟨x, hx, decide_eq_true rfl⟩ : (xs.find? (key · = key x)).isSome)
  have hk : key y = key x := by simpa using List.find?_some hy
  rw [hy, List.inj_on_of_nodup_map h (List.mem_of_find?_eq_some hy) hx hk]

theorem modify_findIdx? (h : (xs.map key).Nodup) {k : κ} {index : Nat}
    (hindex : xs.findIdx? (key · = k) = some index) (f : α → α) :
    xs.modify index f = xs.map fun x => if key x = k then f x else x := by
  induction xs generalizing index with
  | nil => cases hindex
  | cons x rest ih =>
    obtain ⟨hx, hrest⟩ := List.nodup_cons.mp (by simpa only [List.map_cons] using h)
    by_cases hk : key x = k
    · simp only [List.findIdx?_cons, hk, decide_true, if_true, Option.some.injEq] at hindex
      subst hindex
      have hothers : (rest.map fun y => if key y = k then f y else y) = rest := by
        refine (List.map_congr_left fun y hy => if_neg fun hyk => hx ?_).trans rest.map_id
        exact List.mem_map.mpr ⟨y, hy, hyk.trans hk.symm⟩
      rw [List.modify_zero_cons, List.map_cons, if_pos hk, hothers]
    · simp only [List.findIdx?_cons, hk, decide_false, Bool.false_eq_true, if_false] at hindex
      obtain ⟨i, hi, rfl⟩ := Option.map_eq_some_iff.mp hindex
      rw [List.modify_succ_cons, List.map_cons, if_neg hk, ih hrest hi]

theorem find?_firsts (key : α → κ) (xs : List α) (k : κ) :
    (firsts key xs).find? (key · = k) = xs.find? (key · = k) := by
  induction xs using List.reverseRecOn with
  | nil => rfl
  | append_singleton xs x ih =>
    rw [firsts_concat, List.find?_append]
    split
    · rename_i h
      rw [ih]
      cases hf : xs.find? (key · = k) with
      | some y => rfl
      | none =>
        -- then `x`, whose key occurred, does not have the key either
        have hx : key x ≠ k := by
          rintro rfl
          obtain ⟨y, hy, hyx⟩ := List.mem_map.mp h
          exact absurd hyx (by simpa using List.find?_eq_none.mp hf y hy)
        simp [hx]
    · rw [List.find?_append, ih]

theorem mem_firsts_iff :
    x ∈ firsts key xs ↔ xs.find? (key · = key x) = some x := by
  rw [← find?_firsts]
  exact ⟨find?_key (nodup_map_firsts key xs), List.mem_of_find?_eq_some⟩

omit [DecidableEq κ] in
/-- **Keys and lookup determine a list.** -/
theorem eq_of_keys (key : α → κ) (look : κ → Option α) {ys : List α} (h : xs.map key = ys.map key)
    (hx : ∀ x ∈ xs, look (key x) = some x) (hy : ∀ y ∈ ys, look (key y) = some y) : xs = ys := by
  have hlook : ∀ zs : List α, (∀ z ∈ zs, look (key z) = some z) →
      (zs.map key).map look = zs.map some := by
    intro zs hz
    rw [List.map_map]
    exact List.map_congr_left hz
  have hsome : xs.map some = ys.map some := by rw [← hlook xs hx, ← hlook ys hy, h]
  exact List.map_injective_iff.mpr (Option.some_injective α) hsome

omit [DecidableEq κ] in
theorem map_eq_of_forall₂ {ys : List α}
    (h : List.Forall₂ (fun x y => key x = key y) xs ys) : xs.map key = ys.map key := by
  induction h with
  | nil => rfl
  | cons hxy _ ih => rw [List.map_cons, List.map_cons, hxy, ih]

omit [DecidableEq κ] in
theorem forall₂_append_left {β : Type} {R : α → β → Prop} {xs' : List α} {ys : List β}
    (h : List.Forall₂ R (xs ++ xs') ys) :
    ∃ zs zs', ys = zs ++ zs' ∧ List.Forall₂ R xs zs ∧ List.Forall₂ R xs' zs' := by
  induction xs generalizing ys with
  | nil => exact ⟨[], ys, rfl, .nil, h⟩
  | cons x xs ih =>
    cases h with
    | cons hxy hrest =>
      obtain ⟨zs, zs', rfl, hxs, hxs'⟩ := ih hrest
      exact ⟨_ :: zs, zs', rfl, .cons hxy hxs, hxs'⟩

theorem forall₂_comp {β γ : Type} {R : α → β → Prop} {S : β → γ → Prop} {T : α → γ → Prop}
    (hT : ∀ a b c, R a b → S b c → T a c) {ys : List β} {zs : List γ}
    (h : List.Forall₂ R xs ys) (h' : List.Forall₂ S ys zs) : List.Forall₂ T xs zs := by
  induction h generalizing zs with
  | nil => cases h'; exact .nil
  | cons hab _ ih =>
    cases h' with
    | cons hbc hrest => exact .cons (hT _ _ _ hab hbc) (ih hrest)

theorem forall₂_set {β : Type} {R : α → β → Prop} {ys : List β} (h : List.Forall₂ R xs ys) {y : β}
    (hxy : R x y) (index : Nat) : List.Forall₂ R (xs.set index x) (ys.set index y) := by
  induction h generalizing index with
  | nil => exact .nil
  | cons hab hrest ih =>
    cases index with
    | zero => exact .cons hxy hrest
    | succ index => exact .cons hab (ih index)

theorem nodup_set (h : xs.Nodup) {index : Nat}
    (hothers : ∀ i (hi : i < xs.length), i ≠ index → xs[i] ≠ x) : (xs.set index x).Nodup := by
  rw [List.nodup_iff_pairwise_ne, List.pairwise_iff_getElem] at h ⊢
  intro i j hi hj hij
  rw [List.length_set] at hi hj
  rw [List.getElem_set, List.getElem_set]
  by_cases hindex : index = i
  · rw [if_pos hindex, if_neg (by omega)]
    exact (hothers j hj (by omega)).symm
  · by_cases hindex' : index = j
    · rw [if_neg hindex, if_pos hindex']
      exact hothers i hi (by omega)
    · rw [if_neg hindex, if_neg hindex']
      exact h i j hi hj hij

/-! ## Up to the first repetition -/

/-- The elements before the first whose key is in `seen` or has occurred. -/
def distinctPrefixFrom (key : α → κ) (seen : List κ) : List α → List α
  | [] => []
  | x :: xs => if key x ∈ seen then [] else x :: distinctPrefixFrom key (key x :: seen) xs

/-- The elements before the first whose key has occurred. -/
def distinctPrefix (key : α → κ) (xs : List α) : List α := distinctPrefixFrom key [] xs

theorem map_distinctPrefixFrom (key : α → κ) (seen : List κ) (xs : List α) :
    (distinctPrefixFrom key seen xs).map key = distinctPrefixFrom id seen (xs.map key) := by
  induction xs generalizing seen with
  | nil => rfl
  | cons x xs ih =>
    rw [List.map_cons, distinctPrefixFrom, distinctPrefixFrom, apply_ite (List.map key),
      List.map_nil, List.map_cons, ih, id_eq]

theorem map_distinctPrefix (key : α → κ) (xs : List α) :
    (distinctPrefix key xs).map key = distinctPrefix id (xs.map key) :=
  map_distinctPrefixFrom key [] xs

theorem nodup_distinctPrefixFrom (key : α → κ) (seen : List κ) (xs : List α) :
    ((distinctPrefixFrom key seen xs).map key).Nodup ∧
      ∀ x ∈ distinctPrefixFrom key seen xs, key x ∉ seen := by
  induction xs generalizing seen with
  | nil => exact ⟨List.nodup_nil, by simp [distinctPrefixFrom]⟩
  | cons x xs ih =>
    rw [distinctPrefixFrom]
    split
    · exact ⟨List.nodup_nil, by simp⟩
    · rename_i hx
      obtain ⟨hnodup, hseen⟩ := ih (key x :: seen)
      refine ⟨?_, fun y hy => ?_⟩
      · rw [List.map_cons, List.nodup_cons]
        refine ⟨fun hmem => ?_, hnodup⟩
        obtain ⟨y, hy, hyx⟩ := List.mem_map.mp hmem
        exact hseen y hy (by simp [hyx])
      · rcases List.mem_cons.mp hy with rfl | hy
        · exact hx
        · exact fun hmem => hseen y hy (List.mem_cons_of_mem _ hmem)

theorem nodup_distinctPrefix (xs : List κ) : (distinctPrefix id xs).Nodup := by
  simpa only [List.map_id, distinctPrefix] using (nodup_distinctPrefixFrom id [] xs).1

theorem distinctPrefixFrom_append {seen : List κ} {before : List α}
    (hnodup : (before.map key).Nodup) (hseen : ∀ x ∈ before, key x ∉ seen) (rest : List α) :
    distinctPrefixFrom key seen (before ++ rest) =
      before ++ distinctPrefixFrom key ((before.map key).reverse ++ seen) rest := by
  induction before generalizing seen with
  | nil => rfl
  | cons x before ih =>
    obtain ⟨hx, hbefore⟩ := List.nodup_cons.mp (by simpa only [List.map_cons] using hnodup)
    have hnot : ∀ y ∈ before, key y ∉ key x :: seen := by
      intro y hy hmem
      rcases List.mem_cons.mp hmem with heq | hmem
      · exact hx (List.mem_map.mpr ⟨y, hy, heq⟩)
      · exact hseen y (List.mem_cons_of_mem _ hy) hmem
    rw [List.cons_append, distinctPrefixFrom, if_neg (hseen x List.mem_cons_self),
      ih hbefore hnot]
    simp

theorem distinctPrefix_of_nodup (h : (xs.map key).Nodup) : distinctPrefix key xs = xs := by
  have := distinctPrefixFrom_append h (fun _ _ => List.not_mem_nil (a := key _)) []
  simpa only [List.append_nil, distinctPrefix, distinctPrefixFrom] using this

theorem distinctPrefix_of_repeat {before : List α} (h : (before.map key).Nodup)
    (hx : key x ∈ before.map key) (after : List α) :
    distinctPrefix key (before ++ x :: after) = before := by
  have := distinctPrefixFrom_append h (fun _ _ => List.not_mem_nil (a := key _)) (x :: after)
  rw [distinctPrefix, this, distinctPrefixFrom, if_pos (by simpa using hx), List.append_nil]

omit [DecidableEq κ] in
theorem exists_first_repeat {xs : List κ} (h : ¬xs.Nodup) :
    ∃ before x after, xs = before ++ x :: after ∧ before.Nodup ∧ x ∈ before := by
  induction xs using List.reverseRecOn with
  | nil => exact absurd List.nodup_nil h
  | append_singleton xs x ih =>
    by_cases hxs : xs.Nodup
    · refine ⟨xs, x, [], rfl, hxs, ?_⟩
      by_contra hx
      exact h (hxs.append (List.nodup_singleton x) (by simpa using hx))
    · obtain ⟨before, y, after, rfl, hbefore, hy⟩ := ih hxs
      exact ⟨before, y, after ++ [x], by simp, hbefore, hy⟩

end OpenAide.Library

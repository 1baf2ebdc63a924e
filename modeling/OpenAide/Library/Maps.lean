import Mathlib

/-!
# Finite maps and field patches

Two shapes of finite map.  `Assoc` is an association list whose `insert` overwrites in place, the
model of a hash map that is built by insertions; `Keyed` says that no key occurs twice.  `FieldMap`
is a record spread out by field name, `none` for a field that is left out, together with the patch
that turns one such record into another (`FieldPatch.between`) and its application.  The law,
`apply_between_apply`: a patch leaves alone the fields its two records agree on and sets every other
field to its value in the target.
-/

namespace OpenAide.Library

/-! ## Association lists -/

/-- Keys with values; a key occurs at most once when the list is built by `insert`. -/
abbrev Assoc (κ α : Type) := List (κ × α)

namespace Assoc

variable {κ α : Type} [DecidableEq κ]

/-- The value of a key. -/
def get? : Assoc κ α → κ → Option α
  | [], _ => none
  | (k, a) :: rest, key => if k = key then some a else get? rest key

/-- Set a key, in place if it is there. -/
def insert : Assoc κ α → κ → α → Assoc κ α
  | [], key, value => [(key, value)]
  | (k, a) :: rest, key, value =>
    if k = key then (k, value) :: rest else (k, a) :: insert rest key value

theorem get?_insert (m : Assoc κ α) (key key' : κ) (value : α) :
    (m.insert key value).get? key' = if key = key' then some value else m.get? key' := by
  induction m with
  | nil => simp [insert, get?]
  | cons entry rest ih =>
    obtain ⟨k, a⟩ := entry
    by_cases hk : k = key
    · subst hk
      by_cases hk' : k = key' <;> simp [insert, get?, hk']
    · by_cases hk' : k = key'
      · subst hk'
        simp [insert, get?, hk, Ne.symm hk]
      · simp [insert, get?, hk, hk', ih]

@[simp] theorem get?_insert_self (m : Assoc κ α) (key : κ) (value : α) :
    (m.insert key value).get? key = some value := by
  simp [get?_insert]

/-- No key occurs twice. -/
def Keyed (m : Assoc κ α) : Prop := (m.map Prod.fst).Nodup

variable {m : Assoc κ α} {key : κ}

theorem get?_eq_none_iff : m.get? key = none ↔ ∀ a, (key, a) ∉ m := by
  induction m with
  | nil => simp [get?]
  | cons entry rest ih =>
    obtain ⟨k, a⟩ := entry
    by_cases hk : k = key
    · subst hk
      simp only [get?, if_true, reduceCtorEq, List.mem_cons, false_iff, not_forall, not_not]
      exact ⟨a, .inl rfl⟩
    · simp only [get?, if_neg hk, ih, List.mem_cons, Prod.mk.injEq, not_or, Ne.symm hk, false_and,
        not_false_eq_true, true_and]

theorem mem_of_get?_eq_some {a : α} (h : m.get? key = some a) : (key, a) ∈ m := by
  induction m with
  | nil => cases h
  | cons entry rest ih =>
    obtain ⟨k, b⟩ := entry
    by_cases hk : k = key
    · subst hk
      simp only [get?, if_true, Option.some.injEq] at h
      exact List.mem_cons.mpr (.inl (by rw [h]))
    · simp only [get?, if_neg hk] at h
      exact List.mem_cons_of_mem _ (ih h)

omit [DecidableEq κ] in
theorem Keyed.eq_of_mem (h : m.Keyed) {a b : α} (ha : (key, a) ∈ m) (hb : (key, b) ∈ m) : a = b :=
  (Prod.mk.inj (List.inj_on_of_nodup_map h ha hb rfl)).2

theorem mem_insert (h : m.Keyed) {key' : κ} {value a : α} :
    (key', a) ∈ m.insert key value ↔
      (key' = key ∧ a = value) ∨ (key' ≠ key ∧ (key', a) ∈ m) := by
  induction m with
  | nil =>
    simp only [insert, List.mem_singleton, Prod.mk.injEq, List.not_mem_nil, and_false, or_false]
  | cons entry rest ih =>
    obtain ⟨k, b⟩ := entry
    obtain ⟨hk, hrest⟩ := List.nodup_cons.mp (by simpa only [Keyed, List.map_cons] using h)
    by_cases heq : k = key
    · subst heq
      have hother : (key', a) ∈ rest → key' ≠ k := by
        rintro hmem rfl
        exact hk (List.mem_map_of_mem hmem)
      simp only [insert, if_true, List.mem_cons, Prod.mk.injEq]
      grind
    · simp only [insert, if_neg heq, List.mem_cons, Prod.mk.injEq, ih hrest]
      grind

theorem keyed_insert (h : m.Keyed) (key : κ) (value : α) : (m.insert key value).Keyed := by
  induction m with
  | nil => simp [insert, Keyed]
  | cons entry rest ih =>
    obtain ⟨k, b⟩ := entry
    obtain ⟨hk, hrest⟩ := List.nodup_cons.mp (by simpa only [Keyed, List.map_cons] using h)
    by_cases heq : k = key
    · simpa only [insert, if_pos heq, Keyed, List.map_cons] using h
    · have hnot : k ∉ (insert rest key value).map Prod.fst := by
        intro hkeys
        obtain ⟨⟨k', a⟩, hmem, rfl⟩ := List.mem_map.mp hkeys
        rcases (mem_insert hrest).mp hmem with ⟨hkey, -⟩ | ⟨-, hold⟩
        · exact heq hkey
        · exact hk (List.mem_map_of_mem hold)
      simpa only [insert, if_neg heq, Keyed, List.map_cons] using
        List.nodup_cons.mpr ⟨hnot, ih hrest⟩

theorem Keyed.get?_eq_some_iff (h : m.Keyed) {a : α} : m.get? key = some a ↔ (key, a) ∈ m := by
  refine ⟨mem_of_get?_eq_some, fun hmem => ?_⟩
  cases hget : m.get? key with
  | none => exact absurd hmem (get?_eq_none_iff.mp hget a)
  | some b => rw [h.eq_of_mem (mem_of_get?_eq_some hget) hmem]

omit [DecidableEq κ] in
theorem Keyed.filter (h : m.Keyed) (p : κ × α → Bool) : Keyed (List.filter p m) :=
  h.sublist (List.filter_sublist.map Prod.fst)

theorem get?_filter_ne (m : Assoc κ α) (key key' : κ) :
    Assoc.get? (List.filter (·.1 ≠ key) m) key' = if key' = key then none else m.get? key' := by
  induction m with
  | nil => simp [get?]
  | cons entry rest ih =>
    obtain ⟨k, a⟩ := entry
    by_cases hk : k = key
    · subst hk
      simp only [ne_eq, not_true_eq_false, decide_false, Bool.false_eq_true, not_false_eq_true,
        List.filter_cons_of_neg, ih, get?]
      grind
    · simp only [ne_eq, hk, not_false_eq_true, decide_true, List.filter_cons_of_pos, get?, ih]
      grind

/-- Remove a key. -/
def erase (m : Assoc κ α) (key : κ) : Assoc κ α := m.filter (·.1 ≠ key)

@[simp] theorem get?_erase (m : Assoc κ α) (key key' : κ) :
    (m.erase key).get? key' = if key' = key then none else m.get? key' :=
  get?_filter_ne m key key'

theorem get?_of_get?_erase {key' : κ} {a : α}
    (h : (m.erase key).get? key' = some a) : m.get? key' = some a := by
  rw [get?_erase] at h
  split at h
  · cases h
  · exact h

/-- The sum of a measure over the values. -/
def total (f : α → Nat) (m : Assoc κ α) : Nat := (m.map fun entry => f entry.2).sum

omit [DecidableEq κ] in
theorem le_total {f : α → Nat} {entry : κ × α} (h : entry ∈ m) : f entry.2 ≤ m.total f :=
  List.single_le_sum (fun _ _ => Nat.zero_le _) _ (List.mem_map_of_mem h)

theorem total_insert (f : α → Nat) (m : Assoc κ α) (key : κ) (value : α) :
    (m.insert key value).total f + ((m.get? key).map f).getD 0 = m.total f + f value := by
  induction m with
  | nil => simp [total, insert, get?]
  | cons entry rest ih =>
    obtain ⟨k, a⟩ := entry
    simp only [total] at ih
    by_cases hk : k = key
    · simp only [total, insert, get?, if_pos hk, List.map_cons, List.sum_cons, Option.map_some,
        Option.getD_some]
      omega
    · simp only [total, insert, get?, if_neg hk, List.map_cons, List.sum_cons]
      omega

theorem erase_of_get?_eq_none (h : m.get? key = none) : m.erase key = m := by
  refine List.filter_eq_self.mpr fun entry hentry => ?_
  have hne : entry.1 ≠ key := by
    rintro rfl
    exact get?_eq_none_iff.mp h entry.2 hentry
  simpa using hne

theorem Keyed.total_erase (h : m.Keyed) (f : α → Nat) (key : κ) :
    (m.erase key).total f + ((m.get? key).map f).getD 0 = m.total f := by
  induction m with
  | nil => rfl
  | cons entry rest ih =>
    obtain ⟨k, a⟩ := entry
    obtain ⟨hk, hrest⟩ := List.nodup_cons.mp (by simpa only [Keyed, List.map_cons] using h)
    have ih := ih hrest
    simp only [total] at ih
    by_cases heq : k = key
    · subst heq
      have hnone : Assoc.get? rest k = none :=
        get?_eq_none_iff.mpr fun b hb => hk (List.mem_map_of_mem hb)
      rw [erase_of_get?_eq_none hnone, hnone] at ih
      have herase : Assoc.erase ((k, a) :: rest) k = rest := by
        have := erase_of_get?_eq_none hnone
        simpa only [erase, ne_eq, not_true_eq_false, decide_false, Bool.false_eq_true,
          not_false_eq_true, List.filter_cons_of_neg] using this
      simp only [herase, total, get?, if_pos, List.map_cons, List.sum_cons, Option.map_some,
        Option.getD_some]
      omega
    · have herase : Assoc.erase ((k, a) :: rest) key = (k, a) :: Assoc.erase rest key := by
        simp [erase, heq]
      simp only [herase, total, get?, if_neg heq, List.map_cons, List.sum_cons]
      omega

end Assoc

/-! ## Orders of listing -/

/-- The order in which a hash map lists what it holds: some permutation, of which nothing else is
known. -/
structure Listing where
  list : {α : Type} → List α → List α
  perm : ∀ {α : Type} (xs : List α), (list xs).Perm xs

/-- The order of the list itself. -/
def Listing.inOrder : Listing := ⟨id, fun xs => List.Perm.refl xs⟩

/-! ## Records as maps from field names -/

/-- A record spread out by field name; a field may be left out. -/
abbrev FieldMap {κ : Type} (ν : κ → Type) := (k : κ) → Option (ν k)

/-- What has to be written and what removed to get from one record to another. -/
structure FieldPatch {κ : Type} (ν : κ → Type) where
  fields : FieldMap ν
  removed : κ → Bool

namespace FieldPatch

variable {κ : Type} {ν : κ → Type}

/-- Overwrite the patched fields after dropping the removed ones. -/
def apply (patch : FieldPatch ν) (record : FieldMap ν) : FieldMap ν := fun k =>
  match patch.fields k with
  | some value => some value
  | none => if patch.removed k then none else record k

instance [Fintype κ] [DecidableEq κ] [∀ k, DecidableEq (ν k)] : DecidableEq (FieldPatch ν)
  | ⟨f, r⟩, ⟨f', r'⟩ =>
    if hf : f = f' then
      if hr : r = r' then .isTrue (by rw [hf, hr])
      else .isFalse fun h => hr (congrArg removed h)
    else .isFalse fun h => hf (congrArg fields h)

/-- A patch that changes nothing. -/
def empty : FieldPatch ν := ⟨fun _ => none, fun _ => false⟩

@[simp] theorem apply_empty (record : FieldMap ν) : empty.apply record = record := rfl

variable [∀ k, DecidableEq (ν k)]

/-- The patch from one record to another. -/
def between (before after : FieldMap ν) : FieldPatch ν where
  fields k := if before k = after k then none else after k
  removed k := (before k).isSome && (after k).isNone

/-- **What a patch does**: it leaves the fields the two records agree on alone, and gives every
other field its value in the target. -/
theorem apply_between_apply (before after record : FieldMap ν) (k : κ) :
    (between before after).apply record k = if before k = after k then record k else after k := by
  by_cases hk : before k = after k
  · have hremoved : ((after k).isSome && (after k).isNone) = false := by
      cases after k <;> rfl
    simp [apply, between, hk, hremoved]
  · rw [if_neg hk]
    cases ha : after k with
    | some value =>
      rw [ha] at hk
      simp only [apply, between, ha, if_neg hk]
    | none =>
      have hb : (before k).isSome := by
        cases hbk : before k with
        | none => exact absurd (hbk.trans ha.symm) hk
        | some value => rfl
      simp only [apply, between, ha, hb, ite_self, Option.isNone_none, Bool.and_self, if_true]

end FieldPatch

end OpenAide.Library

import Mathlib

/-!
# Fallible computations that succeed

Inversion rules: a sequence that returned a value did so step by step, a fold that returned one
passed through a value after every element, and a traversal that returned a list has a value for
each of its elements.
-/

namespace OpenAide.Library

variable {ε α β : Type}

theorem bind_eq_ok {x : Except ε α} {f : α → Except ε β} {b : β} :
    x >>= f = .ok b ↔ ∃ a, x = .ok a ∧ f a = .ok b := by
  cases x with
  | error e => exact ⟨fun h => (nomatch h), fun ⟨_, h, _⟩ => (nomatch h)⟩
  | ok a => exact ⟨fun h => ⟨a, rfl, h⟩, fun ⟨_, ha, h⟩ => by cases ha; exact h⟩

variable {f : β → α → Except ε β} {as : List α}

theorem foldlM_cons_eq_ok {a : α} {b c : β} :
    (a :: as).foldlM f b = .ok c ↔ ∃ m, f b a = .ok m ∧ as.foldlM f m = .ok c := by
  rw [List.foldlM_cons, bind_eq_ok]

theorem foldlM_append_eq_ok {bs : List α} {b c : β} :
    (as ++ bs).foldlM f b = .ok c ↔ ∃ m, as.foldlM f b = .ok m ∧ bs.foldlM f m = .ok c := by
  rw [List.foldlM_append, bind_eq_ok]

theorem foldlM_concat_eq_ok {a : α} {b c : β} :
    (as ++ [a]).foldlM f b = .ok c ↔ ∃ m, as.foldlM f b = .ok m ∧ f m a = .ok c := by
  rw [foldlM_append_eq_ok]
  refine exists_congr fun m => and_congr_right fun _ => ?_
  rw [foldlM_cons_eq_ok]
  exact ⟨fun ⟨_, h, hc⟩ => by cases hc; exact h, fun h => ⟨c, h, rfl⟩⟩

theorem forall₂_of_mapM {f : α → Option β} {bs : List β} (h : as.mapM f = some bs) :
    List.Forall₂ (fun a b => f a = some b) as bs := by
  induction as generalizing bs with
  | nil =>
    cases h
    exact .nil
  | cons a as ih =>
    simp only [List.mapM_cons, Option.bind_eq_bind, Option.bind_eq_some_iff, Option.pure_def,
      Option.some.injEq] at h
    obtain ⟨b, hb, bs', hbs, rfl⟩ := h
    exact .cons hb (ih hbs)

end OpenAide.Library

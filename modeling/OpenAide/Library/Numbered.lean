import Mathlib

/-!
# Streams with consecutive numbers

Elements that are numbered one after another.  An end of such a stream that begins soon enough has
all that the stream has after a number (`Numbered.filter_end`), and what it has are the numbers from
there on, each once and in order (`Numbered.numbers_after`).
-/

namespace OpenAide.Library

variable {α : Type}

/-- The elements are numbered one after another, the first by `base + 1`. -/
def Numbered (base : Nat) (xs : List (Nat × α)) : Prop :=
  xs.map Prod.fst = List.range' (base + 1) xs.length

/-- What comes after a number. -/
def after (n : Nat) (xs : List (Nat × α)) : List (Nat × α) := xs.filter fun x => n < x.1

@[simp] theorem after_append (n : Nat) (xs ys : List (Nat × α)) :
    after n (xs ++ ys) = after n xs ++ after n ys := List.filter_append _ _

namespace Numbered

variable {base : Nat} {xs ys : List (Nat × α)}

theorem nil (base : Nat) : Numbered base ([] : List (Nat × α)) := rfl

/-- The next element. -/
theorem concat (h : Numbered base xs) (a : α) :
    Numbered base (xs ++ [(base + xs.length + 1, a)]) := by
  have hnumbers : xs.map Prod.fst = List.range' (base + 1) xs.length := h
  simp only [Numbered, List.map_append, List.map_singleton, hnumbers, List.length_append,
    List.length_singleton, List.range'_concat, Nat.one_mul, Nat.add_right_comm base]

theorem split (h : Numbered base (xs ++ ys)) :
    Numbered base xs ∧ Numbered (base + xs.length) ys := by
  simp only [Numbered, List.map_append, List.length_append] at h ⊢
  rw [← List.range'_append_1] at h
  obtain ⟨hxs, hys⟩ := List.append_inj h (by simp)
  exact ⟨hxs, by rw [hys, Nat.add_right_comm]⟩

/-- The numbers that occur. -/
theorem number_le (h : Numbered base xs) {x : Nat × α} (hx : x ∈ xs) :
    base < x.1 ∧ x.1 ≤ base + xs.length := by
  have hmem : x.1 ∈ xs.map Prod.fst := List.mem_map_of_mem hx
  rw [h, List.mem_range'_1] at hmem
  omega

theorem after_eq_nil (h : Numbered base xs) {n : Nat} (hn : base + xs.length ≤ n) :
    after n xs = [] := by
  refine List.filter_eq_nil_iff.mpr fun x hx => ?_
  have := (h.number_le hx).2
  simp only [decide_eq_true_eq]
  omega

/-- **An end that begins soon enough** has everything after `n`. -/
theorem filter_end (h : Numbered base (xs ++ ys)) {n : Nat} (hn : base + xs.length ≤ n) :
    after n ys = after n (xs ++ ys) := by
  rw [after_append, h.split.1.after_eq_nil hn, List.nil_append]

/-- **The numbers after `n`** occur each once and in order. -/
theorem numbers_after (h : Numbered base xs) {n : Nat} (hn : base ≤ n) :
    (after n xs).map Prod.fst = List.range' (n + 1) (base + xs.length - n) := by
  by_cases hle : base + xs.length ≤ n
  · rw [h.after_eq_nil hle, Nat.sub_eq_zero_of_le hle]
    rfl
  · -- cut the stream after `n`
    have hcut := h
    rw [← List.take_append_drop (n - base) xs] at hcut
    have hlength : (xs.take (n - base)).length = n - base := by
      rw [List.length_take]
      omega
    obtain ⟨-, hrest⟩ := hcut.split
    rw [hlength, Nat.add_sub_cancel' hn] at hrest
    have hall : after n (xs.drop (n - base)) = xs.drop (n - base) :=
      List.filter_eq_self.mpr fun x hx => decide_eq_true (hrest.number_le hx).1
    have hafter : after n xs = xs.drop (n - base) := by
      have hend := hcut.filter_end (n := n) (by rw [hlength]; omega)
      rw [List.take_append_drop] at hend
      rw [← hend, hall]
    rw [hafter, hrest, List.length_drop]
    congr 1
    omega

end Numbered

end OpenAide.Library

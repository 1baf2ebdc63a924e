import Mathlib.Data.List.Basic

/-!
# Cyclic redundancy checks

The reflected form of a CRC over `w` bits: the register is shifted towards its lowest bit, and the
polynomial is added whenever a one falls out.

- `shiftOut`, `feed`: one shift, and the bits of a message shifted in, the first bit first.
- `shiftOut_xor`, `feed_xor`: both are **linear** over exclusive or, so that what an error does to
  the register does not depend on the message.
- `shiftOut_eq_zero`: a shift loses nothing if the polynomial has its highest bit, which stands for
  its constant term in this form.
- `feed_burst`: so **no burst of at most `w` bits goes unnoticed**, in a message of any length.
-/

namespace OpenAide.Library.Checksum

variable {w : Nat} {poly : BitVec w}

/-- One shift of the register. -/
def shiftOut (poly register : BitVec w) : BitVec w :=
  (register >>> 1) ^^^ (if register.getLsbD 0 then poly else 0#w)

/-- A bit as the lowest bit of a register. -/
def lowest (bit : Bool) : BitVec w := (BitVec.ofBool bit).setWidth w

/-- The bits of a message are added at the lowest bit, one before each shift. -/
def feed (poly register : BitVec w) (bits : List Bool) : BitVec w :=
  bits.foldl (fun register bit => shiftOut poly (register ^^^ lowest bit)) register

/-- Bits as a word, the first one lowest. -/
def word : List Bool → BitVec w
  | [] => 0#w
  | bit :: rest => lowest bit ^^^ (word rest <<< 1)

@[simp] theorem feed_cons (register : BitVec w) (bit : Bool) (rest : List Bool) :
    feed poly register (bit :: rest) = feed poly (shiftOut poly (register ^^^ lowest bit)) rest :=
    rfl

theorem feed_append (register : BitVec w) (xs ys : List Bool) :
    feed poly register (xs ++ ys) = feed poly (feed poly register xs) ys :=
  List.foldl_append

@[simp] theorem lowest_false : (lowest false : BitVec w) = 0#w := by
  simp [lowest]

theorem getLsbD_lowest (bit : Bool) {i : Nat} (hi : i < w) :
    (lowest bit : BitVec w).getLsbD i = (decide (i = 0) && bit) := by
  cases bit <;> simp [lowest, hi]

/-! ## Shifts -/

theorem shiftOut_xor (a b : BitVec w) :
    shiftOut poly (a ^^^ b) = shiftOut poly a ^^^ shiftOut poly b := by
  apply BitVec.eq_of_getLsbD_eq
  intro i _
  simp only [shiftOut, BitVec.ushiftRight_xor_distrib, BitVec.getLsbD_xor]
  generalize (a >>> 1).getLsbD i = high
  generalize (b >>> 1).getLsbD i = high'
  cases a.getLsbD 0 <;> cases b.getLsbD 0 <;> cases high <;> cases high' <;> simp

@[simp] theorem shiftOut_zero : shiftOut poly 0#w = 0#w := by
  simp [shiftOut]

/-- **A shift loses nothing** if the polynomial has the highest bit: it shows that a one fell out.
-/
theorem shiftOut_eq_zero (hpoly : poly.msb) {register : BitVec w}
    (h : shiftOut poly register = 0#w) : register = 0#w := by
  have hbit : ∀ i, register.getLsbD (1 + i) = (register.getLsbD 0 && poly.getLsbD i) := by
    intro i
    have hi := congrArg (BitVec.getLsbD · i) h
    simp only [shiftOut, BitVec.getLsbD_xor, BitVec.getLsbD_ushiftRight, BitVec.getLsbD_zero] at hi
    cases hlow : register.getLsbD 0 <;> simp_all
  have hpos : 0 < w := by
    refine Nat.pos_of_ne_zero fun hzero => ?_
    subst hzero
    cases hpoly
  have hlow : register.getLsbD 0 = false := by
    have htop := hbit (w - 1)
    rw [BitVec.getLsbD_of_ge register _ (by omega), ← BitVec.msb_eq_getLsbD_last, hpoly,
      Bool.and_true] at htop
    exact htop.symm
  apply BitVec.eq_of_getLsbD_eq
  intro i hi
  rw [BitVec.getLsbD_zero]
  cases i with
  | zero => exact hlow
  | succ i => rw [Nat.add_comm, hbit, hlow, Bool.false_and]

theorem shiftOut_shiftLeft {value : BitVec w} (h : value.msb = false) :
    shiftOut poly (value <<< 1) = value := by
  apply BitVec.eq_of_getLsbD_eq
  intro i hi
  have hlow : (value <<< 1).getLsbD 0 = false := by simp
  rw [shiftOut, hlow, if_neg Bool.false_ne_true, BitVec.xor_zero, BitVec.getLsbD_ushiftRight,
    BitVec.getLsbD_shiftLeft]
  rcases Nat.lt_or_ge (1 + i) w with hlt | hge
  · rw [decide_eq_true hlt, decide_eq_false (by omega), Nat.add_sub_cancel_left]
    rfl
  · obtain rfl : i = w - 1 := by omega
    rw [← BitVec.msb_eq_getLsbD_last, h, decide_eq_false (Nat.not_lt.mpr hge)]
    rfl

/-! ## Messages -/

theorem getLsbD_word (bits : List Bool) {i : Nat} (hi : i < w) :
    (word bits : BitVec w).getLsbD i = bits.getD i false := by
  induction bits generalizing i with
  | nil => simp [word]
  | cons bit rest ih =>
    rw [word, BitVec.getLsbD_xor, getLsbD_lowest bit hi, BitVec.getLsbD_shiftLeft]
    cases i with
    | zero => simp [hi]
    | succ i => simp [hi, ih (Nat.lt_of_succ_lt hi)]

theorem feed_zeros_ne_zero (hpoly : poly.msb) {register : BitVec w} (h : register ≠ 0#w) (n : Nat) :
    feed poly register (List.replicate n false) ≠ 0#w := by
  induction n generalizing register with
  | zero => exact h
  | succ n ih =>
    rw [List.replicate_succ, feed_cons, lowest_false, BitVec.xor_zero]
    exact ih fun hzero => h (shiftOut_eq_zero hpoly hzero)

theorem feed_zeros_zero (n : Nat) : feed poly 0#w (List.replicate n false) = 0#w := by
  induction n with
  | zero => rfl
  | succ n ih =>
    rw [List.replicate_succ, feed_cons, lowest_false, BitVec.xor_zero, shiftOut_zero, ih]

theorem feed_eq_word (poly register : BitVec w) {bits : List Bool} (h : bits.length ≤ w) :
    feed poly register bits =
      feed poly (register ^^^ word bits) (List.replicate bits.length false) := by
  induction bits generalizing register with
  | nil => simp [word, feed]
  | cons bit rest ih =>
    rw [List.length_cons] at h
    have hfree : (word rest : BitVec w).msb = false := by
      rw [BitVec.msb_eq_getLsbD_last, getLsbD_word rest (by omega), List.getD_eq_getElem?_getD,
        List.getElem?_eq_none (by omega), Option.getD_none]
    rw [List.length_cons, List.replicate_succ, feed_cons, feed_cons, lowest_false, BitVec.xor_zero,
      ih _ (Nat.le_of_succ_le h), word, ← BitVec.xor_assoc, shiftOut_xor _ (word rest <<< 1),
      shiftOut_shiftLeft hfree]

/-- Feeding is linear. -/
theorem feed_xor (a b : BitVec w) {xs ys : List Bool} (h : xs.length = ys.length) :
    feed poly (a ^^^ b) (List.zipWith (· ^^ ·) xs ys) = feed poly a xs ^^^ feed poly b ys := by
  induction xs generalizing a b ys with
  | nil =>
    obtain rfl := List.length_eq_zero_iff.mp h.symm
    rfl
  | cons x xs ih =>
    obtain ⟨y, ys, rfl⟩ := List.exists_cons_of_length_eq_add_one h.symm
    have hlow : (lowest (x ^^ y) : BitVec w) = lowest x ^^^ lowest y := by
      cases x <;> cases y <;> simp
    have hinner : a ^^^ b ^^^ (lowest x ^^^ lowest y) = (a ^^^ lowest x) ^^^ (b ^^^ lowest y) := by
      ac_rfl
    rw [List.zipWith_cons_cons, feed_cons, feed_cons, feed_cons, hlow, hinner, shiftOut_xor,
      ih _ _ (Nat.succ.inj h)]

/-! ## Bursts -/

theorem eq_replicate_of_no_error {error : List Bool} (h : true ∉ error) :
    error = List.replicate error.length false :=
  List.eq_replicate_iff.mpr ⟨rfl, fun bit hbit => by
    cases bit with
    | false => rfl
    | true => exact absurd hbit h⟩

theorem feed_burst_ne_zero (hpoly : poly.msb) {error : List Bool} {start : Nat}
    (herror : true ∈ error) (hburst : ∀ i, error[i]? = some true → start ≤ i ∧ i < start + w) :
    feed poly 0#w error ≠ 0#w := by
  -- nothing happens before the window, and nothing is lost after it
  have hbefore : true ∉ error.take start := by
    intro hmem
    obtain ⟨i, hi, hbit⟩ := List.mem_iff_getElem.mp hmem
    rw [List.length_take] at hi
    rw [List.getElem_take] at hbit
    have := (hburst i (by rw [List.getElem?_eq_getElem (by omega), hbit])).1
    omega
  have hafter : true ∉ (error.drop start).drop w := by
    intro hmem
    obtain ⟨i, hi, hbit⟩ := List.mem_iff_getElem.mp hmem
    simp only [List.length_drop] at hi
    rw [List.getElem_drop, List.getElem_drop] at hbit
    have := (hburst (start + (w + i)) (by rw [List.getElem?_eq_getElem (by omega), hbit])).2
    omega
  have hsplit : error = error.take start ++
      ((error.drop start).take w ++ (error.drop start).drop w) := by
    rw [List.take_append_drop, List.take_append_drop]
  have hwindow : true ∈ (error.drop start).take w := by
    rw [hsplit, List.mem_append, List.mem_append] at herror
    exact (herror.resolve_left hbefore).resolve_right hafter
  generalize hw : (error.drop start).take w = window at hsplit hwindow
  have hlength : window.length ≤ w := by
    rw [← hw]
    exact List.length_take_le _ _
  have hword : (word window : BitVec w) ≠ 0#w := by
    intro hzero
    obtain ⟨i, hi, hbit⟩ := List.mem_iff_getElem.mp hwindow
    have hlsb := getLsbD_word window (Nat.lt_of_lt_of_le hi hlength)
    rw [hzero, BitVec.getLsbD_zero, List.getD_eq_getElem?_getD,
      List.getElem?_eq_getElem hi, hbit] at hlsb
    cases hlsb
  rw [hsplit, feed_append, feed_append, eq_replicate_of_no_error hbefore, feed_zeros_zero,
    feed_eq_word _ _ hlength, BitVec.zero_xor, eq_replicate_of_no_error hafter]
  exact feed_zeros_ne_zero hpoly (feed_zeros_ne_zero hpoly hword _) _

/-- **No burst of at most `w` bits goes unnoticed.** -/
theorem feed_burst (hpoly : poly.msb) (register : BitVec w) {bits error : List Bool} {start : Nat}
    (hlength : error.length = bits.length) (herror : true ∈ error)
    (hburst : ∀ i, error[i]? = some true → start ≤ i ∧ i < start + w) :
    feed poly register (List.zipWith (· ^^ ·) bits error) ≠ feed poly register bits := by
  intro heq
  have hsum : feed poly (register ^^^ 0#w) _ = _ := feed_xor register 0#w hlength.symm
  rw [BitVec.xor_zero, heq] at hsum
  refine feed_burst_ne_zero hpoly herror hburst ?_
  calc feed poly 0#w error
      = feed poly register bits ^^^ (feed poly register bits ^^^ feed poly 0#w error) := by
        rw [← BitVec.xor_assoc, BitVec.xor_self, BitVec.zero_xor]
    _ = 0#w := by rw [← hsum, BitVec.xor_self]

end OpenAide.Library.Checksum

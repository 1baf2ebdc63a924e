import Mathlib

/-!
# Bytes of a stream

Numbers as bytes with the most significant first, texts as bytes, and a stream that arrives in
chunks. A reader that asks for a number of bytes goes on reading until it has them, so the chunks do
not matter (`readExact_delivers`): only the bytes they are the pieces of.
-/

namespace OpenAide.Library

/-! ## Big-endian numbers -/

/-- The lowest `width` bytes of a number, the most significant first. -/
def toBigEndian : (width n : Nat) → List UInt8
  | 0, _ => []
  | width + 1, n => toBigEndian width (n / 256) ++ [UInt8.ofNat (n % 256)]

def ofBigEndian (bytes : List UInt8) : Nat := bytes.foldl (fun n byte => n * 256 + byte.toNat) 0

@[simp] theorem length_toBigEndian (width n : Nat) : (toBigEndian width n).length = width := by
  induction width generalizing n with
  | zero => rfl
  | succ width ih => rw [toBigEndian, List.length_append, ih, List.length_singleton]

@[simp] theorem ofBigEndian_concat (bytes : List UInt8) (byte : UInt8) :
    ofBigEndian (bytes ++ [byte]) = ofBigEndian bytes * 256 + byte.toNat := by
  rw [ofBigEndian, List.foldl_append]
  rfl

theorem ofBigEndian_toBigEndian {width n : Nat} (h : n < 256 ^ width) :
    ofBigEndian (toBigEndian width n) = n := by
  induction width generalizing n with
  | zero =>
    obtain rfl : n = 0 := by simpa using h
    rfl
  | succ width ih =>
    have hhigh : n / 256 < 256 ^ width := by
      rw [Nat.div_lt_iff_lt_mul (by decide), ← Nat.pow_succ]
      exact h
    have hlow : (UInt8.ofNat (n % 256)).toNat = n % 256 :=
      UInt8.toNat_ofNat_of_lt' (Nat.mod_lt n (by decide))
    rw [toBigEndian, ofBigEndian_concat, ih hhigh, hlow]
    omega

/-! ## Texts -/

theorem toUTF8_of_fromUTF8? {bytes : List UInt8} {text : String}
    (h : String.fromUTF8? ⟨bytes.toArray⟩ = some text) : text.toUTF8.data.toList = bytes := by
  unfold String.fromUTF8? at h
  split at h
  · cases h
    simp [String.toUTF8, String.fromUTF8]
  · cases h

theorem fromUTF8?_toUTF8 (text : String) : String.fromUTF8? text.toUTF8 = some text := by
  unfold String.fromUTF8?
  exact dif_pos text.isValidUTF8

/-! ## Chunks -/

/-- `Read::read_exact` over the chunks that are still to arrive, with what is left of them.  An
empty chunk is the end of the stream. -/
def readExact : (count : Nat) → List (List UInt8) → Option (List UInt8 × List (List UInt8))
  | 0, chunks => some ([], chunks)
  | _ + 1, [] => none
  | count + 1, chunk :: rest =>
    if chunk = [] then none
    else if count + 1 < chunk.length then
      some (chunk.take (count + 1), chunk.drop (count + 1) :: rest)
    else (readExact (count + 1 - chunk.length) rest).map fun read => (chunk ++ read.1, read.2)

/-- The chunks are the pieces of these bytes. -/
structure Delivers (chunks : List (List UInt8)) (bytes : List UInt8) : Prop where
  bytes : chunks.flatten = bytes
  nonempty : [] ∉ chunks

theorem flatten_readExact {count : Nat} {chunks chunks' : List (List UInt8)} {bytes : List UInt8}
    (h : readExact count chunks = some (bytes, chunks')) :
    bytes.length = count ∧ chunks.flatten = bytes ++ chunks'.flatten := by
  induction chunks generalizing count bytes with
  | nil =>
    cases count with
    | zero =>
      cases h
      exact ⟨rfl, rfl⟩
    | succ count => cases h
  | cons chunk rest ih =>
    cases count with
    | zero =>
      cases h
      exact ⟨rfl, rfl⟩
    | succ count =>
      rw [readExact] at h
      split at h
      · cases h
      · split at h
        · rename_i hlonger
          cases h
          refine ⟨List.length_take_of_le hlonger.le, ?_⟩
          rw [List.flatten_cons, List.flatten_cons, ← List.append_assoc, List.take_append_drop]
        · obtain ⟨read, hread, heq⟩ := Option.map_eq_some_iff.mp h
          cases heq
          obtain ⟨hlength, hflatten⟩ := ih hread
          refine ⟨?_, ?_⟩
          · rw [List.length_append, hlength]
            omega
          · rw [List.flatten_cons, hflatten, List.append_assoc]

/-- **Reading what is to come**, in whatever chunks it arrives. -/
theorem readExact_delivers {chunks : List (List UInt8)} {bytes rest : List UInt8}
    (h : Delivers chunks (bytes ++ rest)) :
    ∃ chunks', readExact bytes.length chunks = some (bytes, chunks') ∧ Delivers chunks' rest := by
  induction chunks generalizing bytes with
  | nil =>
    obtain ⟨rfl, rfl⟩ := List.append_eq_nil_iff.mp h.bytes.symm
    exact ⟨[], rfl, h⟩
  | cons chunk others ih =>
    cases bytes with
    | nil => exact ⟨_, rfl, h⟩
    | cons byte more =>
      have hchunk : chunk ≠ [] := fun hempty => h.nonempty (hempty ▸ List.mem_cons_self)
      have hothers : [] ∉ others := fun hmem => h.nonempty (List.mem_cons_of_mem _ hmem)
      have hsplit : chunk ++ others.flatten = byte :: more ++ rest := h.bytes
      rw [List.length_cons, readExact, if_neg hchunk, ← List.length_cons (a := byte)]
      split
      · rename_i hlonger
        -- the chunk goes on behind what is asked for
        have htake : chunk.take (byte :: more).length = byte :: more := by
          have hall : (chunk ++ others.flatten).take (byte :: more).length = byte :: more := by
            rw [hsplit, List.take_left]
          rwa [List.take_append_of_le_length hlonger.le] at hall
        have hdrop : chunk.drop (byte :: more).length ++ others.flatten = rest := by
          rw [← List.drop_append_of_le_length hlonger.le, hsplit, List.drop_left]
        refine ⟨chunk.drop (byte :: more).length :: others, by rw [htake], hdrop, fun hmem => ?_⟩
        rcases List.mem_cons.mp hmem with hempty | hmem
        · exact absurd (List.drop_eq_nil_iff.mp hempty.symm) (Nat.not_le.mpr hlonger)
        · exact hothers hmem
      · rename_i hshorter
        have hle : chunk.length ≤ (byte :: more).length := Nat.le_of_not_lt hshorter
        have hfront : (byte :: more).take chunk.length = chunk := by
          have hall : ((byte :: more) ++ rest).take chunk.length = chunk := by
            rw [← hsplit, List.take_left]
          rwa [List.take_append_of_le_length hle] at hall
        have hrest : others.flatten = (byte :: more).drop chunk.length ++ rest := by
          rw [← List.drop_append_of_le_length hle, ← hsplit, List.drop_left]
        obtain ⟨chunks', hread, hdelivers⟩ := ih ⟨hrest, hothers⟩
        refine ⟨chunks', ?_, hdelivers⟩
        rw [List.length_drop] at hread
        rw [hread, Option.map_some]
        conv => rhs; rw [← List.take_append_drop chunk.length (byte :: more), hfront]

end OpenAide.Library

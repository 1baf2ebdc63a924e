import Mathlib

/-!
# Text

Functions on text that Rust programs take from their standard library, on lists of characters: what
counts as whitespace, splitting, and numbers read from digits.  A number that was written in decimal
is read back (`parseUnsigned_toDigits`).
-/

namespace OpenAide.Library

/-! ## Whitespace and lines -/

/-- `char::is_whitespace`: the Unicode property `White_Space`. -/
def isWhitespace (c : Char) : Bool :=
  let n := c.toNat
  (0x9 ≤ n && n ≤ 0xD) || n == 0x20 || n == 0x85 || n == 0xA0 || n == 0x1680 ||
    (0x2000 ≤ n && n ≤ 0x200A) || n == 0x2028 || n == 0x2029 || n == 0x202F || n == 0x205F ||
    n == 0x3000

/-- `str::trim_end_matches`. -/
def trimEnd (p : Char → Bool) (chars : List Char) : List Char := chars.rdropWhile p

/-- `str::trim_matches`. -/
def trimBoth (p : Char → Bool) (chars : List Char) : List Char := trimEnd p (chars.dropWhile p)

/-- `str::trim`. -/
def trim (s : String) : String := String.ofList (trimBoth isWhitespace s.toList)

/-- `str::to_ascii_lowercase`. -/
def toAsciiLowercase (s : String) : String := String.ofList (s.toList.map Char.toLower)

/-- `str::split_once` at a character. -/
def splitOnce (c : Char) : List Char → Option (List Char × List Char)
  | [] => none
  | d :: rest => if d = c then some ([], rest) else (splitOnce c rest).map fun s => (d :: s.1, s.2)

/-! ## Numbers -/

/-- The number that digits stand for. -/
def digitsValue (digits : List Char) : Nat := digits.foldl (fun n c => n * 10 + (c.toNat - 48)) 0

/-- The value of digits, at least one of them, that is at most `max`. -/
def parseDigits (max : Nat) (digits : List Char) : Option Nat :=
  if digits.isEmpty || !digits.all Char.isDigit || max < digitsValue digits then none
  else some (digitsValue digits)

/-- `str::parse` to an unsigned type with the largest value `max`. -/
def parseUnsigned (max : Nat) : List Char → Option Nat
  | '+' :: digits => parseDigits max digits
  | digits => parseDigits max digits

/-- `str::parse::<u32>`. -/
def parseU32 (chars : List Char) : Option Nat := parseUnsigned (2 ^ 32 - 1) chars

/-- `str::parse::<u64>`. -/
def parseU64 (s : String) : Option Nat := parseUnsigned (2 ^ 64 - 1) s.toList

/-- `str::parse::<u128>`. -/
def parseU128 (s : String) : Option Nat := parseUnsigned (2 ^ 128 - 1) s.toList

/-- `str::parse::<i32>`. -/
def parseI32 : List Char → Option Int
  | '-' :: digits => (parseDigits (2 ^ 31) digits).map fun n => -(n : Int)
  | '+' :: digits => (parseDigits (2 ^ 31 - 1) digits).map Int.ofNat
  | digits => (parseDigits (2 ^ 31 - 1) digits).map Int.ofNat

theorem digitsValue_toDigits (n : Nat) : digitsValue (Nat.toDigits 10 n) = n := by
  have hread : ∀ l, digitsValue l = Nat.ofDigitChars 10 l 0 := by
    intro l
    rw [Nat.ofDigitChars_eq_foldl, digitsValue]
    simp only [mul_comm]
    rfl
  rw [hread, Nat.ofDigitChars_ten_toDigits]

theorem parseUnsigned_toDigits (max n : Nat) :
    parseUnsigned max (Nat.toDigits 10 n) = if max < n then none else some n := by
  have hdigits : ∀ c ∈ Nat.toDigits 10 n, c.isDigit := fun c hc =>
    Nat.isDigit_of_mem_toDigits (by decide) (by decide) hc
  have hall : (Nat.toDigits 10 n).all Char.isDigit = true := List.all_eq_true.mpr hdigits
  have hne : (Nat.toDigits 10 n).isEmpty = false := by simp [Nat.toDigits_ne_nil]
  unfold parseUnsigned
  split
  · rename_i digits heq
    exact absurd (hdigits '+' (heq ▸ List.mem_cons_self)) (by decide)
  · simp [parseDigits, hall, hne, digitsValue_toDigits]

end OpenAide.Library

import LinuxUnix.Foundation.CMemory
import Mathlib.Algebra.Group.Nat.Defs

/-! # Numbers in decimal

`%d` of `printf` writes a number with its decimal digits, and `%d` of `sscanf` reads
the longest run of digits behind white space and a sign. What has been written is read
back, if no digit follows it (`Decimal.scan_print`).
-/

namespace Decimal

/-- The decimal digits of a number. -/
def digits (number : ℕ) : List Byte :=
  (Nat.toDigits 10 number).map Char.toUInt8

/-- `%d` of `printf` -/
def print : ℤ → List Byte
  | .ofNat number => digits number
  | .negSucc number => 45 :: digits (number + 1)

def isDigit (byte : Byte) : Bool :=
  48 ≤ byte && byte ≤ 57

/-- `isspace` -/
def isSpace (byte : Byte) : Bool :=
  byte == 32 || (9 ≤ byte && byte ≤ 13)

/-- The number that some digits stand for. -/
def value (text : List Byte) : ℕ :=
  text.foldl (fun sofar byte => 10 * sofar + (byte.toNat - 48)) 0

/-- `%d` of `sscanf` behind the sign: the number and what follows it. -/
def scanDigits (text : List Byte) : Option (ℕ × List Byte) :=
  if text.takeWhile isDigit = [] then none
  else some (value (text.takeWhile isDigit), text.dropWhile isDigit)

/-- `%d` of `sscanf`: the number and what follows it. -/
def scan (text : List Byte) : Option (ℤ × List Byte) :=
  match text.dropWhile isSpace with
  | 45 :: rest => (scanDigits rest).map fun found => (-(found.1 : ℤ), found.2)
  | 43 :: rest => (scanDigits rest).map fun found => ((found.1 : ℤ), found.2)
  | rest => (scanDigits rest).map fun found => ((found.1 : ℤ), found.2)

/-- The byte of a digit. -/
theorem toNat_of_isDigit {char : Char} (digit : char.isDigit = true) :
    char.toUInt8.toNat = char.toNat ∧ isDigit char.toUInt8 = true := by
  simp only [Char.isDigit, ge_iff_le, Bool.and_eq_true, decide_eq_true_eq] at digit
  have low : 48 ≤ char.toNat := digit.1
  have high : char.toNat ≤ 57 := digit.2
  have same : char.toUInt8.toNat = char.toNat := Nat.mod_eq_of_lt (by change char.toNat < _; omega)
  refine ⟨same, ?_⟩
  rw [isDigit, Bool.and_eq_true, decide_eq_true_eq, decide_eq_true_eq, UInt8.le_iff_toNat_le,
    UInt8.le_iff_toNat_le, same]
  exact ⟨low, high⟩

theorem isDigit_of_mem_digits {number : ℕ} {byte : Byte} (member : byte ∈ digits number) :
    isDigit byte = true := by
  obtain ⟨char, there, rfl⟩ := List.mem_map.mp member
  exact (toNat_of_isDigit (Nat.isDigit_of_mem_toDigits (by decide) (by decide) there)).2

theorem digits_ne_nil (number : ℕ) : digits number ≠ [] := by
  rw [digits, ne_eq, List.map_eq_nil_iff]
  exact Nat.toDigits_ne_nil

/-- A byte that is no digit does not occur among the digits. -/
theorem not_mem_digits {byte : Byte} (other : isDigit byte = false) (number : ℕ) :
    byte ∉ digits number := by
  intro member
  cases other.symm.trans (isDigit_of_mem_digits member)

theorem length_digits_le {number count : ℕ} (positive : 0 < count) (small : number < 10 ^ count) :
    (digits number).length ≤ count := by
  rw [digits, List.length_map]
  exact (Nat.length_toDigits_le_iff (by decide) positive).mpr small

theorem value_digits (number : ℕ) : value (digits number) = number := by
  have same : ∀ (chars : List Char) (sofar : ℕ), (∀ char ∈ chars, char.isDigit = true) →
      (chars.map Char.toUInt8).foldl (fun sofar byte => 10 * sofar + (byte.toNat - 48)) sofar =
        Nat.ofDigitChars 10 chars sofar := by
    intro chars
    induction chars with
    | nil => exact fun _ _ => Nat.ofDigitChars_nil.symm
    | cons char chars ih =>
        intro sofar all
        rw [List.map_cons, List.foldl_cons, Nat.ofDigitChars_cons,
          (toNat_of_isDigit (all char List.mem_cons_self)).1]
        exact ih _ fun other member => all other (List.mem_cons_of_mem _ member)
  rw [value, digits, same _ _ fun char there =>
    Nat.isDigit_of_mem_toDigits (by decide) (by decide) there]
  exact Nat.ofDigitChars_ten_toDigits

variable {text rest : List Byte}

/-- Digits are read as the number that they stand for. -/
theorem scanDigits_append (all : ∀ byte ∈ text, isDigit byte = true) (some_ : text ≠ [])
    (ends : ∀ byte ∈ rest.head?, isDigit byte = false) :
    scanDigits (text ++ rest) = some (value text, rest) := by
  have stop : rest.takeWhile isDigit = [] ∧ rest.dropWhile isDigit = rest := by
    cases rest with
    | nil => exact ⟨rfl, rfl⟩
    | cons byte rest =>
        have other := ends byte rfl
        constructor
        · rw [List.takeWhile_cons_of_neg (Bool.not_eq_true _ ▸ other)]
        · rw [List.dropWhile_cons_of_neg (Bool.not_eq_true _ ▸ other)]
  have taken : (text ++ rest).takeWhile isDigit = text := by
    rw [List.takeWhile_append_of_pos all, stop.1, List.append_nil]
  have left : (text ++ rest).dropWhile isDigit = rest := by
    rw [List.dropWhile_append_of_pos all, stop.2]
  rw [scanDigits, taken, left, if_neg some_]

theorem scan_append (all : ∀ byte ∈ text, isDigit byte = true) (some_ : text ≠ [])
    (ends : ∀ byte ∈ rest.head?, isDigit byte = false) :
    scan (text ++ rest) = some ((value text : ℤ), rest) := by
  have found := scanDigits_append all some_ ends
  obtain ⟨byte, more, rfl⟩ := List.exists_cons_of_ne_nil some_
  have digit : isDigit byte = true := all byte List.mem_cons_self
  have visible : isSpace byte = false := by
    rw [isDigit, Bool.and_eq_true, decide_eq_true_eq, decide_eq_true_eq] at digit
    rw [isSpace, Bool.or_eq_false_iff, Bool.and_eq_false_iff, beq_eq_false_iff_ne,
      decide_eq_false_iff_not, decide_eq_false_iff_not]
    constructor
    · rintro rfl
      exact absurd digit.1 (by decide)
    · exact .inr fun small => absurd (UInt8.le_trans digit.1 small) (by decide)
  have kept : (byte :: more ++ rest).dropWhile isSpace = byte :: more ++ rest := by
    rw [List.cons_append, List.dropWhile_cons_of_neg (Bool.not_eq_true _ ▸ visible)]
  rw [scan, kept]
  split
  · rename_i rest' sign
    cases List.head_eq_of_cons_eq sign
    cases digit
  · rename_i rest' sign
    cases List.head_eq_of_cons_eq sign
    cases digit
  · rw [found, Option.map_some]

/-- Digits behind a minus sign are read as the negative number. -/
theorem scan_minus_append (all : ∀ byte ∈ text, isDigit byte = true) (some_ : text ≠ [])
    (ends : ∀ byte ∈ rest.head?, isDigit byte = false) :
    scan (45 :: text ++ rest) = some (-(value text : ℤ), rest) := by
  have skipped : (45 :: text ++ rest).dropWhile isSpace = 45 :: (text ++ rest) := rfl
  rw [scan, skipped]
  simp only [scanDigits_append all some_ ends, Option.map_some]

/-- What `printf` has written `sscanf` reads back. -/
theorem scan_print (number : ℤ) {rest : List Byte}
    (ends : ∀ byte ∈ rest.head?, isDigit byte = false) :
    scan (print number ++ rest) = some (number, rest) := by
  cases number with
  | ofNat number =>
      rw [print, scan_append (fun _ => isDigit_of_mem_digits) (digits_ne_nil number) ends,
        value_digits]
      rfl
  | negSucc number =>
      rw [print, scan_minus_append (fun _ => isDigit_of_mem_digits) (digits_ne_nil _) ends,
        value_digits]
      rfl

end Decimal

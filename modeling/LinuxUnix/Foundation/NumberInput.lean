import LinuxUnix.Foundation.Decimal
import Mathlib.Algebra.Group.Int.Defs
import Mathlib.Data.List.TakeWhile

/-! # Reading numbers

`strtoul` skips white space, takes a sign, and reads digits. It reads a text completely if the
text is such a numeral, or empty (`Decimal.rest_strtoul_eq_nil_iff`). `%d` of `scanf` does the
same with a stream; a stream begins with some numbers, which are read one by one
(`Decimal.numbers`).
-/

namespace Decimal

/-- Whether a minus sign comes first, and what stands behind a sign. -/
def stripSign : List Byte → Bool × List Byte
  | 45 :: rest => (true, rest)
  | 43 :: rest => (false, rest)
  | rest => (false, rest)

/-- `strtoul` with base 10: a number of 64 bits, and what follows it. Without digits this is
the whole text; a number that is too large becomes the largest one. -/
def strtoul (text : List Byte) : ℕ × List Byte :=
  match scanDigits (stripSign (text.dropWhile isSpace)).2 with
  | none => (0, text)
  | some (number, rest) =>
      (if 2 ^ 64 ≤ number then 2 ^ 64 - 1
        else if (stripSign (text.dropWhile isSpace)).1 then (2 ^ 64 - number) % 2 ^ 64
        else number, rest)

/-- The text consists of digits. -/
def Plain (text : List Byte) : Prop := text ≠ [] ∧ ∀ byte ∈ text, isDigit byte = true

instance (text : List Byte) : Decidable (Plain text) :=
  inferInstanceAs (Decidable (_ ∧ _))

/-- The text consists of white space, perhaps a sign, and digits. -/
def Numeral (text : List Byte) : Prop :=
  ∃ blanks sign digits, text = blanks ++ (sign ++ digits) ∧
    (∀ byte ∈ blanks, isSpace byte = true) ∧ (sign = [] ∨ sign = [43] ∨ sign = [45]) ∧
    Plain digits

variable {text : List Byte}

theorem not_isSpace_of_isDigit {byte : Byte} (digit : isDigit byte = true) :
    ¬ isSpace byte = true := by
  rw [isDigit, Bool.and_eq_true, decide_eq_true_eq, decide_eq_true_eq] at digit
  rw [isSpace, Bool.or_eq_true, beq_iff_eq, Bool.and_eq_true, decide_eq_true_eq,
    decide_eq_true_eq]
  rintro (rfl | ⟨-, small⟩)
  · exact absurd digit.1 (by decide)
  · exact absurd (UInt8.le_trans digit.1 small) (by decide)

/-- In front of digits there is neither white space nor a sign. -/
theorem Plain.head (plain : Plain text) :
    ∃ first rest, text = first :: rest ∧ isDigit first = true := by
  obtain ⟨first, rest, rfl⟩ := List.exists_cons_of_ne_nil plain.1
  exact ⟨first, rest, rfl, plain.2 first List.mem_cons_self⟩

theorem Plain.stripSign (plain : Plain text) : stripSign text = (false, text) := by
  obtain ⟨first, rest, rfl, digit⟩ := plain.head
  unfold Decimal.stripSign
  split
  · rename_i sign
    cases List.head_eq_of_cons_eq sign
    cases digit
  · rename_i sign
    cases List.head_eq_of_cons_eq sign
    cases digit
  · rfl

theorem Plain.dropWhile (plain : Plain text) : text.dropWhile isSpace = text := by
  obtain ⟨first, rest, rfl, digit⟩ := plain.head
  exact List.dropWhile_cons_of_neg (not_isSpace_of_isDigit digit)

theorem Plain.scanDigits (plain : Plain text) : scanDigits text = some (value text, []) := by
  rw [Decimal.scanDigits, List.takeWhile_eq_self_iff.mpr plain.2,
    List.dropWhile_eq_nil_iff.mpr plain.2, if_neg plain.1]

/-- Digits are read completely. -/
theorem plain_of_scanDigits {number : ℕ} (scanned : scanDigits text = some (number, [])) :
    Plain text := by
  rw [Decimal.scanDigits, Option.ite_none_left_eq_some, Option.some.injEq, Prod.mk.injEq] at scanned
  obtain ⟨some_, -, nothing⟩ := scanned
  refine ⟨?_, List.dropWhile_eq_nil_iff.mp nothing⟩
  rintro rfl
  exact some_ rfl

/-- A text is its sign and what stands behind it. -/
theorem exists_sign (text : List Byte) : ∃ sign, text = sign ++ (stripSign text).2 ∧
    (sign = [] ∨ sign = [43] ∨ sign = [45]) := by
  unfold stripSign
  split
  · exact ⟨[45], rfl, .inr (.inr rfl)⟩
  · exact ⟨[43], rfl, .inr (.inl rfl)⟩
  · exact ⟨[], rfl, .inl rfl⟩

theorem numeral_iff : Numeral text ↔ Plain (stripSign (text.dropWhile isSpace)).2 := by
  constructor
  · rintro ⟨blanks, sign, digits, rfl, blank, signed, plain⟩
    rw [List.dropWhile_append_of_pos blank]
    rcases signed with rfl | rfl | rfl
    · rw [List.nil_append, plain.dropWhile, plain.stripSign]
      exact plain
    · exact plain
    · exact plain
  · intro plain
    obtain ⟨sign, split, signed⟩ := exists_sign (text.dropWhile isSpace)
    refine ⟨text.takeWhile isSpace, sign, _, ?_, ?_, signed, plain⟩
    · rw [← split, List.takeWhile_append_dropWhile]
    · exact fun byte member => List.mem_takeWhile_imp member

theorem Plain.numeral (plain : Plain text) : Numeral text :=
  ⟨[], [], text, rfl, fun _ member => absurd member List.not_mem_nil, .inl rfl, plain⟩

/-- `strtoul` stops at the end of a numeral, and of the empty text. -/
theorem rest_strtoul_eq_nil_iff : (strtoul text).2 = [] ↔ text = [] ∨ Numeral text := by
  rw [numeral_iff, strtoul]
  split
  · rename_i failed
    refine ⟨.inl, ?_⟩
    rintro (empty | plain)
    · exact empty
    · cases failed.symm.trans plain.scanDigits
  · rename_i number rest scanned
    constructor
    · rintro rfl
      exact .inr (plain_of_scanDigits scanned)
    · rintro (rfl | plain)
      · cases scanned
      · cases scanned.symm.trans plain.scanDigits
        rfl

/-- The value of digits, unless it is too large. -/
theorem Plain.strtoul (plain : Plain text) :
    (strtoul text).1 = if 2 ^ 64 ≤ value text then 2 ^ 64 - 1 else value text := by
  rw [Decimal.strtoul, plain.dropWhile, plain.stripSign]
  simp only [plain.scanDigits, Bool.false_eq_true, if_false]

/-- The `int` that becomes of a number: `%d` reads a `long`, and keeps 32 bits of it. -/
def toInt (number : ℤ) : ℤ :=
  (max (-2 ^ 63) (min number (2 ^ 63 - 1))).bmod (2 ^ 32)

/-- `%d` of `scanf`: the number, if there is one, and what is left in the stream. Without digits
white space and a sign are gone all the same. -/
def scanInt (input : List Byte) : Option ℤ × List Byte :=
  match scanDigits (stripSign (input.dropWhile isSpace)).2 with
  | none => (none, (stripSign (input.dropWhile isSpace)).2)
  | some (number, rest) =>
      (some (toInt (if (stripSign (input.dropWhile isSpace)).1 then -number else number)), rest)

theorem length_scanDigits {number : ℕ} {rest : List Byte}
    (scanned : scanDigits text = some (number, rest)) : rest.length < text.length := by
  rw [scanDigits, Option.ite_none_left_eq_some, Option.some.injEq, Prod.mk.injEq] at scanned
  obtain ⟨some_, -, rfl⟩ := scanned
  have whole := congrArg List.length (List.takeWhile_append_dropWhile (p := isDigit) (l := text))
  have positive := List.length_pos_iff.mpr some_
  rw [List.length_append] at whole
  omega

theorem length_stripSign (text : List Byte) :
    (stripSign (text.dropWhile isSpace)).2.length ≤ text.length := by
  have skipped := (List.dropWhile_suffix isSpace (l := text)).length_le
  obtain ⟨sign, split, -⟩ := exists_sign (text.dropWhile isSpace)
  have behind := congrArg List.length split
  rw [List.length_append] at behind
  omega

/-- A number makes the stream shorter. -/
theorem length_scanInt_lt {input rest : List Byte} {number : ℤ}
    (found : scanInt input = (some number, rest)) : rest.length < input.length := by
  have shorter := length_stripSign input
  rw [scanInt] at found
  split at found
  · cases found
  · rename_i digits left scanned
    cases found
    exact Nat.lt_of_lt_of_le (length_scanDigits scanned) shorter

theorem length_scanInt_le (input : List Byte) : (scanInt input).2.length ≤ input.length := by
  have shorter := length_stripSign input
  rw [scanInt]
  split
  · exact shorter
  · rename_i digits left scanned
    exact Nat.le_of_lt (Nat.lt_of_lt_of_le (length_scanDigits scanned) shorter)

/-- The numbers with which a stream begins, and what stands behind them. -/
def numbers (input : List Byte) : List ℤ × List Byte :=
  match _found : scanInt input with
  | (none, _) => ([], input)
  | (some number, rest) => (number :: (numbers rest).1, (numbers rest).2)
termination_by input.length
decreasing_by all_goals exact length_scanInt_lt _found

theorem numbers_of_none {input rest : List Byte} (failed : scanInt input = (none, rest)) :
    numbers input = ([], input) := by
  rw [numbers]
  split
  · rfl
  · rename_i some_
    cases failed.symm.trans some_

theorem numbers_of_some {input rest : List Byte} {number : ℤ}
    (found : scanInt input = (some number, rest)) :
    numbers input = (number :: (numbers rest).1, (numbers rest).2) := by
  rw [numbers]
  split
  · rename_i none_
    cases found.symm.trans none_
  · rename_i other
    cases found.symm.trans other
    rfl

end Decimal

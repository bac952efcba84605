import LinuxUnix.Foundation.Decimal

/-! # Numbers with a width

`printf` fills a number up to a width with spaces (`%3d`) or, behind its sign, with zeros
(`%06d`). Both are read back as the number (`Decimal.scan_printSpaces`, `Decimal.scan_printZeros`),
and so is a line in which numbers are separated by other text (`Decimal.scanFields_line`).
-/

namespace Decimal

/-- `%d` with a width. -/
def printSpaces (width : ℕ) (number : ℤ) : List Byte :=
  List.replicate (width - (print number).length) 32 ++ print number

/-- Digits, filled up with zeros. -/
def zeros (width number : ℕ) : List Byte :=
  List.replicate (width - (digits number).length) 48 ++ digits number

/-- `%d` with the flag `0` and a width. -/
def printZeros (width : ℕ) : ℤ → List Byte
  | .ofNat number => zeros width number
  | .negSucc number => 45 :: zeros (width - 1) (number + 1)

/-- Read numbers, each with the text that follows it. -/
def scanFields : List (List Byte) → List Byte → Option (List ℤ × List Byte)
  | [], text => some ([], text)
  | literal :: literals, text =>
      (scan text).bind fun found =>
        if literal <+: found.2 then
          (scanFields literals (found.2.drop literal.length)).map fun later =>
            (found.1 :: later.1, later.2)
        else none

variable {width number : ℕ} {rest : List Byte}

theorem zeros_ne_nil (width number : ℕ) : zeros width number ≠ [] :=
  List.append_ne_nil_of_right_ne_nil _ (digits_ne_nil number)

theorem isDigit_of_mem_zeros {byte : Byte} (member : byte ∈ zeros width number) :
    isDigit byte = true := by
  rcases List.mem_append.mp member with zero | digit
  · rw [List.eq_of_mem_replicate zero]
    rfl
  · exact isDigit_of_mem_digits digit

/-- Zeros in front do not count. -/
theorem value_zeros (width number : ℕ) : value (zeros width number) = number := by
  have skipped (count : ℕ) (text : List Byte) :
      value (List.replicate count 48 ++ text) = value text := by
    induction count with
    | zero => rfl
    | succ count ih => exact ih
  rw [zeros, skipped, value_digits]

theorem scan_printSpaces (width : ℕ) (number : ℤ)
    (ends : ∀ byte ∈ rest.head?, isDigit byte = false) :
    scan (printSpaces width number ++ rest) = some (number, rest) := by
  have skipped (count : ℕ) (text : List Byte) :
      (List.replicate count 32 ++ text).dropWhile isSpace = text.dropWhile isSpace := by
    rw [List.dropWhile_append_of_pos]
    exact fun byte member => (List.eq_of_mem_replicate member) ▸ rfl
  have same := scan_print number ends
  rw [scan] at same ⊢
  rw [printSpaces, List.append_assoc, skipped]
  exact same

theorem scan_printZeros (width : ℕ) (number : ℤ)
    (ends : ∀ byte ∈ rest.head?, isDigit byte = false) :
    scan (printZeros width number ++ rest) = some (number, rest) := by
  cases number with
  | ofNat number =>
      rw [printZeros, scan_append (fun _ => isDigit_of_mem_zeros) (zeros_ne_nil _ _) ends,
        value_zeros]
      rfl
  | negSucc number =>
      rw [printZeros, scan_minus_append (fun _ => isDigit_of_mem_zeros) (zeros_ne_nil _ _) ends,
        value_zeros]
      rfl

/-- A number as it is printed, which is read back whatever follows, and the text that does: it is
not empty and does not begin with a digit. -/
structure Field where
  text : List Byte
  number : ℤ
  literal : List Byte
  reads : ∀ rest : List Byte, (∀ byte ∈ rest.head?, isDigit byte = false) →
    scan (text ++ rest) = some (number, rest)
  separates : ∃ byte more, literal = byte :: more ∧ isDigit byte = false

/-- A field that is filled up with spaces. -/
def Field.spaces (width : ℕ) (number : ℤ) (literal : List Byte)
    (separates : ∃ byte more, literal = byte :: more ∧ isDigit byte = false) : Field :=
  ⟨printSpaces width number, number, literal, fun _ ends => scan_printSpaces width number ends,
    separates⟩

/-- A field that is filled up with zeros. -/
def Field.zeros (width : ℕ) (number : ℤ) (literal : List Byte)
    (separates : ∃ byte more, literal = byte :: more ∧ isDigit byte = false) : Field :=
  ⟨printZeros width number, number, literal, fun _ ends => scan_printZeros width number ends,
    separates⟩

/-- What is printed for some fields. -/
def line (fields : List Field) : List Byte :=
  fields.flatMap fun field => field.text ++ field.literal

/-- **A line of numbers is read back.** -/
theorem scanFields_line (fields : List Field) (rest : List Byte) :
    scanFields (fields.map Field.literal) (line fields ++ rest) =
      some (fields.map Field.number, rest) := by
  induction fields with
  | nil => rfl
  | cons field fields ih =>
      have split : line (field :: fields) ++ rest =
          field.text ++ (field.literal ++ (line fields ++ rest)) := by
        simp only [line, List.flatMap_cons, List.append_assoc]
      have ends : ∀ byte ∈ (field.literal ++ (line fields ++ rest)).head?,
          isDigit byte = false := by
        obtain ⟨byte, more, begins, other⟩ := field.separates
        rw [begins]
        rintro _ ⟨⟩
        exact other
      rw [List.map_cons, List.map_cons, split, scanFields, field.reads _ ends, Option.bind_some,
        if_pos (List.prefix_append ..), List.drop_left, ih, Option.map_some]

end Decimal

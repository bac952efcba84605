import LinuxUnix.Foundation.CMemory

/-! # Lines that end with CRLF

A block of lines is ended by an empty line. Nonempty lines without a CR can be read
back from it (`CrlfLines.block_unique`).
-/

namespace CrlfLines

/-- `"\r\n"` -/
def crlf : List Byte :=
  [13, 10]

/-- Lines and the empty line behind them. -/
def block (lines : List (List Byte)) : List Byte :=
  (lines.map (· ++ crlf)).flatten ++ crlf

theorem block_cons (line : List Byte) (lines : List (List Byte)) (rest : List Byte) :
    block (line :: lines) ++ rest = line ++ 13 :: 10 :: (block lines ++ rest) := by
  simp only [block, crlf, List.map_cons, List.flatten_cons, List.append_assoc, List.cons_append,
    List.nil_append]

/-- A text ends before the first CR behind it. -/
theorem append_cr_inj {text other rest rest' : List Byte} (clean : 13 ∉ text)
    (clean' : 13 ∉ other) (same : text ++ 13 :: rest = other ++ 13 :: rest') :
    text = other ∧ rest = rest' := by
  induction text generalizing other with
  | nil =>
      cases other with
      | nil => exact ⟨rfl, List.tail_eq_of_cons_eq same⟩
      | cons byte other =>
          cases List.head_eq_of_cons_eq same
          exact absurd List.mem_cons_self clean'
  | cons byte text ih =>
      cases other with
      | nil =>
          cases List.head_eq_of_cons_eq same
          exact absurd List.mem_cons_self clean
      | cons byte' other =>
          obtain ⟨rfl, behind⟩ := List.cons_eq_cons.mp same
          obtain ⟨rfl, rest⟩ := ih (fun member => clean (List.mem_cons_of_mem _ member))
            (fun member => clean' (List.mem_cons_of_mem _ member)) behind
          exact ⟨rfl, rest⟩

/-- A line that a block can hold. -/
def Line (text : List Byte) : Prop :=
  text ≠ [] ∧ 13 ∉ text

instance (text : List Byte) : Decidable (Line text) :=
  inferInstanceAs (Decidable (_ ∧ _))

/-- A line and its CR, before the newline. -/
theorem Line.cut {text : List Byte} (line : Line text) (clean : 10 ∉ text) :
    text ++ crlf = text ++ [13] ++ [10] ∧ 10 ∉ text ++ [13] ∧ text ++ [13] ≠ [13] := by
  refine ⟨(List.append_assoc text [13] [10]).symm, ?_, fun same => ?_⟩
  · rw [List.mem_append, not_or]
    exact ⟨clean, by decide⟩
  · exact line.1 (List.append_cancel_right (same : text ++ [13] = [] ++ [13]))

/-- The empty line ends a block. -/
theorem block_nil_ne {line : List Byte} (proper : Line line) (lines : List (List Byte))
    (rest rest' : List Byte) : block [] ++ rest ≠ block (line :: lines) ++ rest' := by
  rw [block_cons]
  intro same
  cases line with
  | nil => exact proper.1 rfl
  | cons byte line =>
      cases List.head_eq_of_cons_eq same
      exact proper.2 List.mem_cons_self

/-- The lines of a block can be read back, whatever follows it. -/
theorem block_unique {lines : List (List Byte)} : ∀ {others : List (List Byte)}
    {rest rest' : List Byte}, (∀ line ∈ lines, Line line) → (∀ line ∈ others, Line line) →
      block lines ++ rest = block others ++ rest' → lines = others ∧ rest = rest' := by
  induction lines with
  | nil =>
      intro others rest rest' _ proper same
      cases others with
      | nil => exact ⟨rfl, List.append_cancel_left same⟩
      | cons line others =>
          exact absurd same (block_nil_ne (proper line List.mem_cons_self) others rest rest')
  | cons line lines ih =>
      intro others rest rest' proper proper' same
      cases others with
      | nil =>
          exact absurd same.symm (block_nil_ne (proper line List.mem_cons_self) lines rest' rest)
      | cons other others =>
          rw [block_cons, block_cons] at same
          obtain ⟨rfl, behind⟩ := append_cr_inj (proper line List.mem_cons_self).2
            (proper' other List.mem_cons_self).2 same
          obtain ⟨rfl, rest⟩ := ih (fun line member => proper line (List.mem_cons_of_mem _ member))
            (fun line member => proper' line (List.mem_cons_of_mem _ member))
            (List.tail_eq_of_cons_eq behind)
          exact ⟨rfl, rest⟩

end CrlfLines

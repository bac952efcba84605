import Mathlib.Data.List.TakeWhile
import Mathlib.Data.Nat.Notation

/-! # Byte arrays and the C strings in them

An array of `char` is the list of its bytes. The string it holds is what stands
before its first NUL (`CMemory.cstr`).
-/

/-- A `char`, as an unsigned byte. -/
abbrev Byte := UInt8

namespace CMemory

/-- The C string at the start of an array. -/
def cstr (memory : List Byte) : List Byte :=
  memory.takeWhile (· != 0)

@[simp] theorem cstr_zero_cons (memory : List Byte) : cstr (0 :: memory) = [] := rfl

@[simp] theorem cstr_cons_of_ne {byte : Byte} (nonzero : byte ≠ 0) (memory : List Byte) :
    cstr (byte :: memory) = byte :: cstr memory := by
  simp only [cstr, List.takeWhile_cons, bne_iff_ne, ne_eq, nonzero, not_false_eq_true, ↓reduceIte]

/-- Nothing after a terminator belongs to the string before it. -/
theorem cstr_append_zero (text rest : List Byte) : cstr (text ++ 0 :: rest) = cstr text := by
  induction text with
  | nil => rfl
  | cons byte text ih =>
      by_cases zero : byte = 0
      · subst zero
        rfl
      · rw [List.cons_append, cstr_cons_of_ne zero, cstr_cons_of_ne zero, ih]

/-- A text without NUL is the string of its bytes. -/
theorem cstr_eq_self {text : List Byte} (clean : 0 ∉ text) : cstr text = text := by
  induction text with
  | nil => rfl
  | cons byte text ih =>
      have nonzero : byte ≠ 0 := fun zero => clean (zero ▸ List.mem_cons_self)
      rw [cstr_cons_of_ne nonzero, ih fun member => clean (List.mem_cons_of_mem _ member)]

theorem zero_not_mem_cstr (memory : List Byte) : 0 ∉ cstr memory := by
  intro member
  have kept := List.mem_takeWhile_imp member
  simp only [bne_self_eq_false, Bool.false_eq_true] at kept

theorem cstr_append_of_clean {text : List Byte} (clean : 0 ∉ text) (rest : List Byte) :
    cstr (text ++ rest) = text ++ cstr rest := by
  induction text with
  | nil => rfl
  | cons byte text ih =>
      have nonzero : byte ≠ 0 := fun zero => clean (zero ▸ List.mem_cons_self)
      rw [List.cons_append, cstr_cons_of_ne nonzero,
        ih fun member => clean (List.mem_cons_of_mem _ member), List.cons_append]

theorem take_length_cstr (memory : List Byte) : memory.take (cstr memory).length = cstr memory :=
  (List.prefix_iff_eq_take.mp (List.takeWhile_prefix _)).symm

/-- An array that holds a NUL is its string, the first NUL, and a rest. -/
theorem eq_cstr_append {memory : List Byte} (terminated : 0 ∈ memory) :
    ∃ rest, memory = cstr memory ++ 0 :: rest := by
  obtain ⟨text, rest, rfl, clean⟩ := List.eq_append_cons_of_mem terminated
  exact ⟨rest, by rw [cstr_append_zero, cstr_eq_self clean]⟩

/-- A NUL has room behind the string of an array that holds one. -/
theorem length_cstr_lt {memory : List Byte} (terminated : 0 ∈ memory) :
    (cstr memory).length < memory.length := by
  obtain ⟨rest, whole⟩ := eq_cstr_append terminated
  have length := congrArg List.length whole
  rw [List.length_append, List.length_cons] at length
  omega

/-- A NUL ends the string, whatever stands behind it. -/
theorem cstr_append_of_mem {memory : List Byte} (terminated : 0 ∈ memory) (rest : List Byte) :
    cstr (memory ++ rest) = cstr memory := by
  obtain ⟨text, behind, rfl, -⟩ := List.eq_append_cons_of_mem terminated
  rw [List.append_assoc, List.cons_append, cstr_append_zero, cstr_append_zero]

/-- A reader that has copied part of a string and meets the terminator has
copied all of it. -/
theorem eq_cstr_of_prefix {copied memory : List Byte} (part : copied <+: cstr memory)
    (terminator : memory[copied.length]? = some 0) : copied = cstr memory := by
  induction copied generalizing memory with
  | nil =>
      cases memory with
      | nil => rfl
      | cons byte memory =>
          cases terminator
          rfl
  | cons first copied ih =>
      cases memory with
      | nil => exact absurd (List.prefix_nil.mp part) (List.cons_ne_nil _ _)
      | cons byte memory =>
          by_cases zero : byte = 0
          · subst zero
            exact absurd (List.prefix_nil.mp part) (List.cons_ne_nil _ _)
          · rw [cstr_cons_of_ne zero] at part ⊢
            obtain ⟨rfl, rest⟩ := List.cons_prefix_cons.mp part
            rw [ih rest terminator]

/-- A reader that meets a byte of the string extends its copy by that byte. -/
theorem concat_prefix_cstr {copied memory : List Byte} {byte : Byte}
    (part : copied <+: cstr memory) (next : memory[copied.length]? = some byte)
    (nonzero : byte ≠ 0) : copied ++ [byte] <+: cstr memory := by
  induction copied generalizing memory with
  | nil =>
      cases memory with
      | nil => cases next
      | cons head memory =>
          cases next
          rw [cstr_cons_of_ne nonzero]
          exact ⟨cstr memory, rfl⟩
  | cons first copied ih =>
      cases memory with
      | nil => exact absurd (List.prefix_nil.mp part) (List.cons_ne_nil _ _)
      | cons head memory =>
          by_cases zero : head = 0
          · subst zero
            exact absurd (List.prefix_nil.mp part) (List.cons_ne_nil _ _)
          · rw [cstr_cons_of_ne zero] at part ⊢
            obtain ⟨rfl, rest⟩ := List.cons_prefix_cons.mp part
            exact List.cons_prefix_cons.mpr ⟨rfl, ih rest next⟩

/-- A text and its NUL, once stored completely, is the string in the array. -/
theorem cstr_of_take_eq {memory text : List Byte} {count : ℕ} (large : text.length + 1 ≤ count)
    (same : memory.take count = (text ++ [0]).take count) : cstr memory = cstr text := by
  have whole : (text ++ [0]).take count = text ++ [0] :=
    List.take_of_length_le (by simpa using large)
  rw [whole] at same
  rw [← List.take_append_drop count memory, same, List.append_assoc, List.singleton_append,
    cstr_append_zero]

/-- Storing the next byte of a text extends the part stored. -/
theorem take_set_succ {memory stored : List Byte} {count : ℕ} {byte : Byte}
    (room : count < memory.length) (next : stored[count]? = some byte)
    (same : memory.take count = stored.take count) :
    (memory.set count byte).take (count + 1) = stored.take (count + 1) := by
  rw [List.take_add_one, List.take_add_one, List.take_set_of_le (Nat.le_refl count), same, next,
    List.getElem?_set_self room]

/-- An array after bytes have been stored from an offset on. -/
def overwrite (memory : List Byte) (offset : ℕ) (bytes : List Byte) : List Byte :=
  memory.take offset ++ bytes ++ memory.drop (offset + bytes.length)

@[simp] theorem overwrite_nil (memory : List Byte) (offset : ℕ) :
    overwrite memory offset [] = memory := by
  rw [overwrite, List.append_nil, List.length_nil, Nat.add_zero, List.take_append_drop]

theorem length_overwrite {memory bytes : List Byte} {offset : ℕ}
    (fits : offset + bytes.length ≤ memory.length) :
    (overwrite memory offset bytes).length = memory.length := by
  simp only [overwrite, List.length_append, List.length_take, List.length_drop]
  omega

/-- Storing one byte. -/
theorem set_eq_overwrite {memory : List Byte} {offset : ℕ} (fits : offset < memory.length)
    (byte : Byte) : memory.set offset byte = overwrite memory offset [byte] := by
  rw [overwrite, List.set_eq_take_append_cons_drop, if_pos fits, List.append_assoc]
  rfl

/-- Two texts stored one behind the other. -/
theorem overwrite_append {memory first : List Byte} {offset : ℕ} (inside : offset ≤ memory.length)
    (second : List Byte) :
    overwrite (overwrite memory offset first) (offset + first.length) second =
      overwrite memory offset (first ++ second) := by
  have start : (memory.take offset ++ first).length = offset + first.length := by
    rw [List.length_append, List.length_take, Nat.min_eq_left inside]
  have front : (overwrite memory offset first).take (offset + first.length) =
      memory.take offset ++ first := List.take_left' start
  have back : (overwrite memory offset first).drop (offset + first.length) =
      memory.drop (offset + first.length) := List.drop_left' start
  rw [overwrite, front, ← List.drop_drop, back, List.drop_drop, overwrite, List.length_append,
    Nat.add_assoc, List.append_assoc (memory.take offset)]

/-- What stood where a text is stored does not matter. -/
theorem overwrite_set_zero {bytes : List Byte} (nonempty : bytes ≠ []) (memory : List Byte)
    (byte : Byte) : overwrite (memory.set 0 byte) 0 bytes = overwrite memory 0 bytes := by
  have long := List.length_pos_iff.mpr nonempty
  rw [overwrite, overwrite, List.take_zero, List.take_zero, Nat.zero_add,
    List.drop_set_of_lt long]

theorem take_overwrite_zero (memory bytes : List Byte) :
    (overwrite memory 0 bytes).take bytes.length = bytes := by
  rw [overwrite, List.take_zero, List.nil_append]
  exact List.take_left' rfl

/-- The bytes of an array at whose start a text is stored. -/
theorem getElem?_overwrite_zero (memory bytes : List Byte) (index : ℕ) :
    (overwrite memory 0 bytes)[index]? =
      if index < bytes.length then bytes[index]? else memory[index]? := by
  rw [overwrite, List.take_zero, List.nil_append, Nat.zero_add]
  split
  · rename_i inside
    exact List.getElem?_append_left inside
  · rename_i behind
    rw [List.getElem?_append_right (Nat.le_of_not_lt behind), List.getElem?_drop,
      Nat.add_sub_cancel' (Nat.le_of_not_lt behind)]

/-- A text stored with its NUL at the start of an array of zeros. -/
theorem overwrite_replicate (text : List Byte) (count : ℕ) :
    overwrite (List.replicate count 0) 0 (text ++ [0]) =
      text ++ 0 :: List.replicate (count - (text.length + 1)) 0 := by
  rw [overwrite, List.take_zero, List.nil_append, List.append_assoc, List.singleton_append,
    List.drop_replicate, List.length_append, List.length_singleton, Nat.zero_add]

/-- A text stored with its NUL at the start of an array is its string. -/
theorem cstr_overwrite (memory text : List Byte) :
    cstr (overwrite memory 0 (text ++ [0])) = cstr text := by
  rw [overwrite, List.take_zero, List.nil_append, List.append_assoc, List.singleton_append,
    cstr_append_zero]

/-- A text stored with its NUL at the end of a string is appended to it. -/
theorem cstr_overwrite_append (memory text : List Byte) :
    cstr (overwrite memory (cstr memory).length (text ++ [0])) = cstr memory ++ cstr text := by
  rw [overwrite, take_length_cstr, List.append_assoc, List.append_assoc, List.singleton_append,
    cstr_append_of_clean (zero_not_mem_cstr memory), cstr_append_zero]

theorem zero_mem_overwrite (memory text : List Byte) (offset : ℕ) :
    0 ∈ overwrite memory offset (text ++ [0]) :=
  List.mem_append_left _ (List.mem_append_right _ (List.mem_append_right _ List.mem_cons_self))

end CMemory

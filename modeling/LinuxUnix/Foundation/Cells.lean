import LinuxUnix.Foundation.CMemory

/-! # Arrays that have not been written

A cell of an array has no value before it is written. A reader of a string that comes to such a
cell, or past the end of the array, has no result (`Cells.string_append`). The value of a cell
is the last one stored in it (`Cells.getElem?_store`).
-/

namespace Cells

open CMemory

/-- A byte of memory, or one that has not been written. -/
abbrev Cell := Option Byte

/-- The string that a reader finds at the start of an array. -/
def string : List Cell → Option (List Byte)
  | some byte :: rest => if byte = 0 then some [] else (string rest).map (byte :: ·)
  | none :: _ | [] => none

/-- An array at whose start some bytes have been stored. -/
def store (memory : List Cell) (bytes : List Byte) : List Cell :=
  bytes.map some ++ memory.drop bytes.length

variable {memory : List Cell} {bytes : List Byte}

/-- A reader stops at the first NUL, or goes on behind the bytes. -/
theorem string_append (bytes : List Byte) (rest : List Cell) :
    string (bytes.map some ++ rest) =
      if 0 ∈ bytes then some (cstr bytes) else (string rest).map (bytes ++ ·) := by
  induction bytes with
  | nil =>
      rw [if_neg List.not_mem_nil]
      exact Option.map_id'.symm
  | cons byte bytes ih =>
      rw [List.map_cons, List.cons_append, string]
      by_cases zero : byte = 0
      · subst zero
        rw [if_pos rfl, if_pos List.mem_cons_self, cstr_zero_cons]
      · have moves : 0 ∈ byte :: bytes ↔ 0 ∈ bytes := by
          rw [List.mem_cons, or_iff_right (fun same => zero same.symm)]
        rw [if_neg zero, ih]
        simp only [moves]
        split
        · rw [Option.map_some, cstr_cons_of_ne zero]
        · rw [Option.map_map]
          rfl

theorem drop_store {count : ℕ} (short : bytes.length ≤ count) :
    (store memory bytes).drop count = memory.drop count := by
  rw [store, List.drop_append, List.length_map, List.drop_eq_nil_of_le (by rwa [List.length_map]),
    List.nil_append, List.drop_drop, Nat.add_sub_cancel' short]

/-- The empty string is a NUL. -/
theorem string_eq_nil_iff : string memory = some [] ↔ memory.head? = some (some 0) := by
  cases memory with
  | nil => exact iff_of_false nofun nofun
  | cons cell rest =>
      cases cell with
      | none => simp [string]
      | some byte =>
          rw [string]
          split
          · rename_i zero
            simp [zero]
          · rename_i nonzero
            simp [nonzero]

theorem getElem?_store (memory : List Cell) (bytes : List Byte) (index : ℕ) :
    (store memory bytes)[index]? =
      if index < bytes.length then bytes[index]?.map some else memory[index]? := by
  rw [store]
  split
  · rename_i inside
    rw [List.getElem?_append_left (by rwa [List.length_map]), List.getElem?_map]
  · rename_i outside
    have large := Nat.le_of_not_lt outside
    rw [List.getElem?_append_right (by rwa [List.length_map]), List.length_map,
      List.getElem?_drop, Nat.add_sub_cancel' large]

end Cells

import LinuxUnix.Foundation.CMemory

/-! # The text of a print job

`sender` and `client` collect the lines that are typed in the array `inhalt`, as long as
there is room for them. What is collected is a string without a NUL
(`LinuxUnix.PrintJob.cstr_collect`).
-/

namespace LinuxUnix.PrintJob

open CMemory

/-- `BUF` -/
def buf : ℕ := 4096

/-- `strcat(inhalt, puffer)`, where there is room for the string -/
def strcat (inhalt puffer : List Byte) : List Byte :=
  overwrite inhalt (cstr inhalt).length (cstr puffer ++ [0])

/-- The loop around `fgets`, on what it leaves in `puffer` one time after the other. -/
def collect (inhalt : List Byte) : List (List Byte) → List Byte
  | [] => inhalt
  | puffer :: lines =>
      if (cstr inhalt).length + (cstr puffer).length < buf then
        collect (strcat inhalt puffer) lines
      else inhalt

/-- The lines that the loop accepts when so many bytes are in use. -/
def accepted (used : ℕ) : List (List Byte) → List (List Byte)
  | [] => []
  | puffer :: lines =>
      if used + (cstr puffer).length < buf then
        cstr puffer :: accepted (used + (cstr puffer).length) lines
      else []

/-- `inhalt[BUF - 1] = '\0'` -/
def terminate (inhalt : List Byte) : List Byte :=
  inhalt.set (buf - 1) 0

/-- What is typed at a terminal, and what stands in `inhalt` before. -/
structure Typed where
  memory : List Byte
  room : memory.length = buf
  lines : List (List Byte)

/-- An array of zeros. -/
def zeroBuf : List Byte :=
  List.replicate buf 0

theorem length_zeroBuf : zeroBuf.length = buf :=
  List.length_replicate

/-- These lines are typed, and the array holds zeros. -/
def typing (lines : List (List Byte)) : Typed where
  memory := zeroBuf
  room := length_zeroBuf
  lines

variable {inhalt : List Byte}

/-- A string that is in the array stays there when a NUL is stored behind it. -/
theorem cstr_terminate (terminated : 0 ∈ inhalt) (size : inhalt.length = buf) :
    0 ∈ terminate inhalt ∧ cstr (terminate inhalt) = cstr inhalt := by
  obtain ⟨rest, split⟩ := eq_cstr_append terminated
  have short : (cstr inhalt).length ≤ buf - 1 :=
    Nat.le_sub_one_of_lt (size ▸ length_cstr_lt terminated)
  have stored : ∃ rest', terminate inhalt = cstr inhalt ++ 0 :: rest' := by
    rw [terminate, split, cstr_append_zero, cstr_eq_self (zero_not_mem_cstr inhalt),
      List.set_append_right _ _ short]
    cases buf - 1 - (cstr inhalt).length with
    | zero => exact ⟨rest, rfl⟩
    | succ index => exact ⟨rest.set index 0, rfl⟩
  obtain ⟨rest', stored⟩ := stored
  rw [stored]
  refine ⟨List.mem_append_right _ List.mem_cons_self, ?_⟩
  rw [cstr_append_zero, cstr_eq_self (zero_not_mem_cstr inhalt)]

/-- `strcat` puts a string that has room behind the other one. -/
theorem length_strcat {puffer : List Byte}
    (room : (cstr inhalt).length + (cstr puffer).length < inhalt.length) :
    (strcat inhalt puffer).length = inhalt.length := by
  rw [strcat, length_overwrite]
  rw [List.length_append, List.length_singleton]
  omega

theorem zero_mem_strcat (inhalt puffer : List Byte) : 0 ∈ strcat inhalt puffer :=
  zero_mem_overwrite ..

theorem cstr_strcat (inhalt puffer : List Byte) :
    cstr (strcat inhalt puffer) = cstr inhalt ++ cstr puffer := by
  rw [strcat, cstr_overwrite_append, cstr_eq_self (zero_not_mem_cstr puffer)]

/-- The array holds the accepted lines behind the string that it had. -/
theorem collect_spec : ∀ {lines : List (List Byte)} {inhalt : List Byte}, 0 ∈ inhalt →
    inhalt.length = buf → 0 ∈ collect inhalt lines ∧ (collect inhalt lines).length = buf ∧
      cstr (collect inhalt lines) =
        cstr inhalt ++ (accepted (cstr inhalt).length lines).flatten := by
  intro lines
  induction lines with
  | nil =>
      intro inhalt terminated size
      exact ⟨terminated, size, (List.append_nil _).symm⟩
  | cons puffer lines ih =>
      intro inhalt terminated size
      rw [collect, accepted]
      split
      · rename_i room
        have length := (length_strcat (size.symm ▸ room)).trans size
        obtain ⟨inside, kept, collected⟩ := ih (zero_mem_strcat inhalt puffer) length
        refine ⟨inside, kept, ?_⟩
        rw [collected, cstr_strcat, List.flatten_cons, List.length_append, List.append_assoc]
      · exact ⟨terminated, size, (List.append_nil _).symm⟩

/-- What the programs have in `inhalt` when they write it, if they start with an array
that holds a string. -/
theorem written_spec {start : List Byte} (terminated : 0 ∈ start) (size : start.length = buf)
    (lines : List (List Byte)) :
    (terminate (collect start lines)).length = buf ∧ 0 ∈ terminate (collect start lines) ∧
      cstr (terminate (collect start lines)) =
        cstr start ++ (accepted (cstr start).length lines).flatten := by
  obtain ⟨ended, length, string⟩ := @collect_spec lines start terminated size
  obtain ⟨inside, same⟩ := cstr_terminate ended length
  refine ⟨?_, inside, same.trans string⟩
  rw [terminate, List.length_set]
  exact length

end LinuxUnix.PrintJob

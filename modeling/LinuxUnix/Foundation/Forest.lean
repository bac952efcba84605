import Mathlib.Data.List.Basic
import Mathlib.Data.Nat.Notation

/-! # Directories and what is in them

The entries of a directory, one after another, with those of its subdirectories. A walk that comes to a
directory before its entries, and tells how deep each entry is, tells everything
(`Forest.rows_injective`).
-/

/-- The entries of a directory. One that is not a directory itself has a kind. -/
inductive Forest (Name Kind : Type*)
  | nil
  | leaf (name : Name) (kind : Kind) (rest : Forest Name Kind)
  | dir (name : Name) (entries rest : Forest Name Kind)
  deriving DecidableEq

namespace Forest

variable {Name Kind : Type*}

/-- Each entry with its depth, its name, and its kind if it is not a directory. -/
def rows : ℕ → Forest Name Kind → List (ℕ × Name × Option Kind)
  | _, .nil => []
  | depth, .leaf name kind rest => (depth, name, some kind) :: rest.rows depth
  | depth, .dir name entries rest =>
      (depth, name, none) :: (entries.rows (depth + 1) ++ rest.rows depth)

/-- All names meet a condition. -/
def All (valid : Name → Prop) : Forest Name Kind → Prop
  | .nil => True
  | .leaf name _ rest => valid name ∧ rest.All valid
  | .dir name entries rest => valid name ∧ entries.All valid ∧ rest.All valid

/-- Nothing is so deep at the start. -/
def Above (depth : ℕ) (rows : List (ℕ × Name × Option Kind)) : Prop :=
  ∀ row ∈ rows.head?, row.1 < depth

variable {depth : ℕ} {first second rest : Forest Name Kind} {left right : List (ℕ × Name × Option Kind)}

theorem above_rows_append (forest : Forest Name Kind) (above : Above depth left) :
    Above (depth + 1) (forest.rows depth ++ left) := by
  cases forest with
  | nil => exact fun row member => Nat.lt_succ_of_lt (above row member)
  | leaf name kind rest =>
      rintro _ ⟨⟩
      exact Nat.lt_succ_self depth
  | dir name entries rest =>
      rintro _ ⟨⟩
      exact Nat.lt_succ_self depth

/-- A row at this depth does not stand at a start where nothing is so deep. -/
theorem Above.ne_cons {name : Name} {kind : Option Kind} (above : Above depth left) :
    left ≠ (depth, name, kind) :: right := by
  rintro rfl
  exact Nat.lt_irrefl _ (above _ rfl)

/-- The rows of some entries end where nothing is so deep any more. -/
theorem rows_append_inj (before : Above depth left) (behind : Above depth right)
    (same : first.rows depth ++ left = second.rows depth ++ right) : first = second ∧ left = right := by
  induction first generalizing second depth left right with
  | nil =>
      cases second with
      | nil => exact ⟨rfl, same⟩
      | leaf name kind rest => exact absurd same before.ne_cons
      | dir name entries rest => exact absurd same before.ne_cons
  | leaf name kind rest ih =>
      cases second with
      | nil => exact absurd same.symm behind.ne_cons
      | leaf name' kind' rest' =>
          obtain ⟨row, tails⟩ := List.cons_eq_cons.mp same
          cases row
          obtain ⟨rfl, rfl⟩ := ih before behind tails
          exact ⟨rfl, rfl⟩
      | dir name' entries rest' =>
          obtain ⟨row, -⟩ := List.cons_eq_cons.mp same
          cases row
  | dir name entries rest inner ih =>
      cases second with
      | nil => exact absurd same.symm behind.ne_cons
      | leaf name' kind' rest' =>
          obtain ⟨row, -⟩ := List.cons_eq_cons.mp same
          cases row
      | dir name' entries' rest' =>
          obtain ⟨row, tails⟩ := List.cons_eq_cons.mp same
          cases row
          have inside : entries.rows (depth + 1) ++ (rest.rows depth ++ left) =
              entries'.rows (depth + 1) ++ (rest'.rows depth ++ right) := by
            rw [← List.append_assoc, ← List.append_assoc]
            exact tails
          obtain ⟨rfl, behind_⟩ := inner (above_rows_append rest before)
            (above_rows_append rest' behind) inside
          obtain ⟨rfl, rfl⟩ := ih before behind behind_
          exact ⟨rfl, rfl⟩

/-- The rows tell what the entries are. -/
theorem rows_injective (same : first.rows depth = second.rows depth) : first = second := by
  have above : Above depth ([] : List (ℕ × Name × Option Kind)) := nofun
  exact (rows_append_inj above above (by rw [same])).1

end Forest

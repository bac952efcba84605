import Mathlib.Data.Finset.Card

/-! # Pipes

A pipe keeps what has been written until it is read. A `write` that does not split its data waits
for room (`Pipe.write`); a `read` takes what is there up to a number of elements, finds the end if
nothing is there and nobody can write any more, and waits otherwise (`Pipe.read`). What has been
read and what is still inside is what was inside before (`Pipe.append_of_read`).
-/

/-- What is inside, how much there is room for, and who has the two ends open. -/
structure Pipe (Holder Element : Type*) where
  inside : List Element
  capacity : ℕ
  readers : Finset Holder
  writers : Finset Holder

namespace Pipe

variable {Holder Element : Type*} [DecidableEq Holder]

/-- `write`, undivided. Without a reader the writer gets `SIGPIPE` instead (`Pipe.readers`). -/
def write (pipe : Pipe Holder Element) (elements : List Element) :
    Option (Pipe Holder Element) :=
  if pipe.inside.length + elements.length ≤ pipe.capacity then
    some { pipe with inside := pipe.inside ++ elements }
  else none

/-- `read`: what it returns, and the pipe after it. -/
def read (pipe : Pipe Holder Element) (count : ℕ) :
    Option (List Element × Pipe Holder Element) :=
  match pipe.inside with
  | [] => if pipe.writers = ∅ then some ([], pipe) else none
  | _ :: _ => some (pipe.inside.take count, { pipe with inside := pipe.inside.drop count })

/-- `open` for reading. -/
def openRead (pipe : Pipe Holder Element) (holder : Holder) : Pipe Holder Element :=
  { pipe with readers := insert holder pipe.readers }

/-- `open` for writing. -/
def openWrite (pipe : Pipe Holder Element) (holder : Holder) : Pipe Holder Element :=
  { pipe with writers := insert holder pipe.writers }

/-- `close` of the end for reading. -/
def closeRead (pipe : Pipe Holder Element) (holder : Holder) : Pipe Holder Element :=
  { pipe with readers := pipe.readers.erase holder }

/-- `close` of the end for writing. -/
def closeWrite (pipe : Pipe Holder Element) (holder : Holder) : Pipe Holder Element :=
  { pipe with writers := pipe.writers.erase holder }

/-- A holder ends. -/
def leave (pipe : Pipe Holder Element) (holder : Holder) : Pipe Holder Element :=
  (pipe.closeRead holder).closeWrite holder

variable {pipe after : Pipe Holder Element} {elements : List Element} {count : ℕ}

omit [DecidableEq Holder] in
theorem write_eq_some_iff : pipe.write elements = some after ↔
    pipe.inside.length + elements.length ≤ pipe.capacity ∧
      after = { pipe with inside := pipe.inside ++ elements } := by
  rw [write, Option.ite_none_right_eq_some, Option.some.injEq, eq_comm (a := after)]

/-- How a `read` can turn out. -/
theorem read_eq_some_iff : pipe.read count = some (elements, after) ↔
    pipe.inside = [] ∧ pipe.writers = ∅ ∧ elements = [] ∧ after = pipe ∨
      pipe.inside ≠ [] ∧ elements = pipe.inside.take count ∧
        after = { pipe with inside := pipe.inside.drop count } := by
  rw [read]
  split
  · rename_i nothing
    simp only [nothing, true_and, ne_eq, not_true_eq_false, false_and, or_false,
      Option.ite_none_right_eq_some, Option.some.injEq, Prod.mk.injEq]
    exact and_congr_right fun _ => and_congr eq_comm eq_comm
  · rename_i first rest there
    simp only [there, reduceCtorEq, false_and, false_or, ne_eq, not_false_eq_true, true_and,
      Option.some.injEq, Prod.mk.injEq]
    exact and_congr eq_comm eq_comm

/-- A `read` waits just if nothing is there and somebody can still write. -/
theorem read_eq_none_iff : pipe.read count = none ↔ pipe.inside = [] ∧ pipe.writers ≠ ∅ := by
  rw [read]
  split
  · rename_i nothing
    simp only [nothing, true_and, ite_eq_right_iff, reduceCtorEq, imp_false, ne_eq]
  · rename_i first rest there
    simp only [there, reduceCtorEq, false_and]

/-- Nothing gets lost in a `read`. -/
theorem append_of_read (reads : pipe.read count = some (elements, after)) :
    elements ++ after.inside = pipe.inside := by
  rcases read_eq_some_iff.mp reads with ⟨_, _, rfl, rfl⟩ | ⟨_, rfl, rfl⟩
  · exact List.nil_append _
  · exact List.take_append_drop ..

/-- A `read` that asks for all that is inside gets it. -/
theorem read_whole (there : pipe.inside ≠ []) (fits : pipe.inside.length ≤ count) :
    pipe.read count = some (pipe.inside, { pipe with inside := [] }) := by
  refine read_eq_some_iff.mpr (.inr ⟨there, (List.take_of_length_le fits).symm, ?_⟩)
  rw [List.drop_eq_nil_of_le fits]

end Pipe

import Mathlib.Data.List.Basic
import Mathlib.Data.Nat.Notation

/-! # Messages in a stream

Messages that are written one behind the other are found again by a reader that takes
as many elements as the first one has.
-/

namespace Framing

variable {Element : Type*} {first : List Element} {rest : List (List Element)} {size : ℕ}

/-- A reader that has taken the first message leaves the others. -/
theorem drop_of_take_eq (taken : (first :: rest).flatten.take size = first) :
    (first :: rest).flatten.drop size = rest.flatten := by
  have split := List.take_append_drop size (first :: rest).flatten
  rw [taken, List.flatten_cons] at split
  exact List.append_cancel_left split

/-- A reader that asks for the size of the message takes it. -/
theorem take_of_length_eq (exact_ : first.length = size) :
    (first :: rest).flatten.take size = first := by
  rw [List.flatten_cons]
  exact List.take_left' exact_

/-- A reader that takes the first message and more takes elements of the others. -/
theorem length_drop_lt (short : first.length ≤ size)
    (more : (first :: rest).flatten.take size ≠ first) :
    ((first :: rest).flatten.drop size).length < rest.flatten.length := by
  have larger : first.length < size := by
    exact Nat.lt_of_le_of_ne short fun exact_ => more (take_of_length_eq exact_)
  have others : rest.flatten ≠ [] := by
    intro nothing
    rw [List.flatten_cons, nothing, List.append_nil, List.take_of_length_le short] at more
    exact more rfl
  have positive := List.length_pos_iff.mpr others
  rw [List.length_drop, List.flatten_cons, List.length_append]
  omega

end Framing

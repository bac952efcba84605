import Mathlib.Data.List.Basic
import Mathlib.Data.Nat.Notation

/-! # Delivery in pieces

A `read` or a `send` moves as many bytes as the kernel chooses, one at least and no
more than asked for. A delivery is the sequence of these choices. Whatever it is,
the pieces in which it moves a stream make up the stream (`flatten_pieces`).
-/

/-- The number of bytes that the next call moves, if so many are left. -/
def pieceSize (deliver : ℕ → ℕ) (count : ℕ) : ℕ :=
  min (max 1 (deliver 0)) count

/-- The delivery after one call. -/
def later (deliver : ℕ → ℕ) : ℕ → ℕ :=
  fun index => deliver (index + 1)

theorem pieceSize_pos (deliver : ℕ → ℕ) {count : ℕ} (positive : 0 < count) :
    0 < pieceSize deliver count := by
  unfold pieceSize
  omega

theorem pieceSize_one (deliver : ℕ → ℕ) : pieceSize deliver 1 = 1 := by
  unfold pieceSize
  omega

variable {Element : Type*}

/-- The pieces in which calls for up to `count` elements move a stream. -/
def pieces (count : ℕ) (deliver : ℕ → ℕ) (stream : List Element) : List (List Element) :=
  if _finished : stream = [] ∨ count = 0 then []
  else stream.take (pieceSize deliver count) ::
    pieces count (later deliver) (stream.drop (pieceSize deliver count))
termination_by stream.length
decreasing_by
  have long := List.length_pos_iff.mpr (not_or.mp _finished).1
  have moved := pieceSize_pos deliver (Nat.pos_of_ne_zero (not_or.mp _finished).2)
  rw [List.length_drop]
  exact Nat.sub_lt long moved

/-- The pieces of a stream are the stream. -/
theorem flatten_pieces {count : ℕ} (positive : 0 < count) (deliver : ℕ → ℕ)
    (stream : List Element) : (pieces count deliver stream).flatten = stream := by
  induction deliver, stream using pieces.induct count with
  | case1 deliver stream finished =>
      rw [pieces, dif_pos finished, List.flatten_nil]
      rcases finished with rfl | none_
      · rfl
      · omega
  | case2 deliver stream finished ih =>
      rw [pieces, dif_neg finished, List.flatten_cons, ih, List.take_append_drop]

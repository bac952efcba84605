import LinuxUnix.Foundation.CMemory
import Mathlib.Data.List.Basic

/-! # Reading lines into a buffer

`fgets` reads up to the first newline, and no more than fits the buffer with a NUL. The pieces
that its calls deliver make up the input; a line that fits is one piece
(`LineInput.pieces_of_short`), a longer one is several.
-/

namespace LineInput

/-- What `fgets` with a buffer of `size` bytes reads. -/
def piece (size : ℕ) (input : List Byte) : List Byte :=
  (input.take ((input.takeWhile (· != 10)).length + 1)).take (size - 1)

variable {size : ℕ} {input : List Byte}

theorem length_piece_le (size : ℕ) (input : List Byte) : (piece size input).length ≤ size - 1 :=
  List.length_take_le ..

theorem piece_prefix (size : ℕ) (input : List Byte) : piece size input <+: input :=
  (List.take_prefix ..).trans (List.take_prefix ..)

theorem length_piece_pos (large : 1 < size) (nonempty : input ≠ []) :
    0 < (piece size input).length := by
  have long := List.length_pos_iff.mpr nonempty
  rw [piece, List.length_take, List.length_take]
  omega

/-- The pieces in which calls of `fgets` deliver the input. -/
def pieces (size : ℕ) (input : List Byte) : List (List Byte) :=
  if _finished : input = [] ∨ size ≤ 1 then []
  else piece size input :: pieces size (input.drop (piece size input).length)
termination_by input.length
decreasing_by
  have long := List.length_pos_iff.mpr (not_or.mp _finished).1
  have moved := length_piece_pos (Nat.lt_of_not_le (not_or.mp _finished).2)
    (not_or.mp _finished).1
  rw [List.length_drop]
  exact Nat.sub_lt long moved

@[simp] theorem pieces_nil (size : ℕ) : pieces size [] = [] := by
  rw [pieces, dif_pos (.inl rfl)]

theorem pieces_of_ne_nil (large : 1 < size) (nonempty : input ≠ []) :
    pieces size input = piece size input :: pieces size (input.drop (piece size input).length) := by
  rw [pieces, dif_neg]
  rintro (empty | small)
  · exact nonempty empty
  · omega

/-- The pieces make up the input. -/
theorem flatten_pieces (large : 1 < size) (input : List Byte) :
    (pieces size input).flatten = input := by
  induction input using pieces.induct size with
  | case1 input finished =>
      rw [pieces, dif_pos finished, List.flatten_nil]
      exact (finished.resolve_right (Nat.not_le_of_lt large)).symm
  | case2 input finished ih =>
      have part := piece_prefix size input
      rw [pieces, dif_neg finished, List.flatten_cons, ih]
      exact List.prefix_iff_eq_append.mp part

/-- Every piece is what one call reads of an input that has not ended. -/
theorem exists_of_mem_pieces {part : List Byte} (member : part ∈ pieces size input) :
    ∃ left, left ≠ [] ∧ 1 < size ∧ part = piece size left := by
  induction input using pieces.induct size with
  | case1 input finished =>
      rw [pieces, dif_pos finished] at member
      cases member
  | case2 input finished ih =>
      rw [pieces, dif_neg finished] at member
      rcases List.mem_cons.mp member with first | later
      · have ⟨nonempty, small⟩ := not_or.mp finished
        exact ⟨input, nonempty, Nat.lt_of_not_le small, first⟩
      · exact ih later

theorem ne_nil_of_mem_pieces {part : List Byte} (member : part ∈ pieces size input) :
    part ≠ [] := by
  obtain ⟨left, nonempty, large, rfl⟩ := exists_of_mem_pieces member
  exact List.ne_nil_of_length_pos (length_piece_pos large nonempty)

theorem length_le_of_mem_pieces {part : List Byte} (member : part ∈ pieces size input) :
    part.length ≤ size - 1 := by
  obtain ⟨left, _, _, rfl⟩ := exists_of_mem_pieces member
  exact length_piece_le size left

/-- A piece that ends with a newline, or fills the buffer, does not depend on what comes behind. -/
theorem piece_append (done : 10 ∈ piece size input ∨ (piece size input).length = size - 1)
    (rest : List Byte) : piece size (input ++ rest) = piece size input := by
  have short : (input.takeWhile (· != 10)).length ≤ input.length :=
    (List.takeWhile_prefix _).length_le
  rw [piece, List.takeWhile_append]
  by_cases all : (input.takeWhile (· != 10)).length = input.length
  · have whole : input.takeWhile (· != 10) = input :=
      (List.takeWhile_prefix _).eq_of_length all
    have clean : 10 ∉ input := by
      intro member
      rw [← whole] at member
      exact absurd (@List.mem_takeWhile_imp _ (· != 10) _ _ member) (by decide)
    have part := piece_prefix size input
    have long := done.resolve_left fun member => clean (part.subset member)
    rw [piece, all, List.take_of_length_le (Nat.le_succ _), List.length_take] at long
    rw [if_pos all, piece, all, List.take_of_length_le (Nat.le_succ _), List.take_take,
      List.length_append, min_eq_left (by omega), List.take_append_of_le_length (by omega)]
  · rw [if_neg all, List.take_append_of_le_length (by omega)]
    rfl

/-- A part of a piece is read in one piece. -/
theorem piece_of_initial {text : List Byte} (part : text <+: piece size input) :
    piece size text = text := by
  have short := part.length_le.trans (length_piece_le size input)
  have front : text <+: input.take ((input.takeWhile (· != 10)).length + 1) :=
    part.trans (List.take_prefix ..)
  have bound := front.length_le.trans (List.length_take_le ..)
  have clean : text.take (input.takeWhile (· != 10)).length <+: input.takeWhile (· != 10) := by
    have whole := part.trans <| piece_prefix size input
    apply List.prefix_of_prefix_length_le ((List.take_prefix ..).trans whole)
      (List.takeWhile_prefix _)
    exact List.length_take_le ..
  have split := List.take_append_drop (input.takeWhile (· != 10)).length text
  have long : text.length ≤ (text.takeWhile (· != 10)).length + 1 := by
    have kept : ∀ byte ∈ text.take (input.takeWhile (· != 10)).length, (byte != 10) = true := by
      intro byte member
      exact @List.mem_takeWhile_imp _ (· != 10) _ _ (clean.subset member)
    rw [← split, List.takeWhile_append_of_pos kept, split, List.length_append, List.length_take]
    omega
  rw [piece, List.take_of_length_le long, List.take_of_length_le short]

theorem takeWhile_line {text : List Byte} (line : 10 ∉ text) (rest : List Byte) :
    (text ++ 10 :: rest).takeWhile (· != 10) = text := by
  rw [List.takeWhile_append_of_pos, List.takeWhile_cons_of_neg (by decide), List.append_nil]
  intro byte member
  rw [bne_iff_ne]
  rintro rfl
  exact line member

theorem drop_line (text rest : List Byte) :
    (text ++ 10 :: rest).drop (text ++ [10]).length = rest := by
  have split : text ++ 10 :: rest = (text ++ [10]) ++ rest := List.append_cons ..
  rw [split, List.drop_left]

theorem line_ne_nil (text rest : List Byte) : text ++ 10 :: rest ≠ [] :=
  List.append_ne_nil_of_right_ne_nil _ (List.cons_ne_nil _ _)

/-- A line that fits is read whole. -/
theorem piece_of_short {text : List Byte} (line : 10 ∉ text) (short : text.length + 1 < size)
    (rest : List Byte) : piece size (text ++ 10 :: rest) = text ++ [10] := by
  have whole : (text ++ 10 :: rest).take (text.length + 1) = text ++ [10] := by
    rw [List.append_cons]
    exact List.take_left' (List.length_append ..)
  rw [piece, takeWhile_line line, whole, List.take_of_length_le]
  rw [List.length_append, List.length_singleton]
  omega

/-- Of a line that does not fit the first bytes are read. -/
theorem piece_of_long {text : List Byte} (line : 10 ∉ text) (long : size ≤ text.length + 1)
    (rest : List Byte) : piece size (text ++ 10 :: rest) = text.take (size - 1) := by
  rw [piece, takeWhile_line line, List.take_take, Nat.min_eq_left (by omega),
    List.take_append_of_le_length (by omega)]

/-- Of what follows the last newline the first bytes are read. -/
theorem piece_of_last {text : List Byte} (last : 10 ∉ text) :
    piece size text = text.take (size - 1) := by
  have whole : text.takeWhile (· != 10) = text := by
    rw [List.takeWhile_eq_self_iff]
    intro byte member
    rw [bne_iff_ne]
    rintro rfl
    exact last member
  rw [piece, whole, List.take_of_length_le (Nat.le_succ _)]

/-- The pieces of a line come before those of what follows it. -/
theorem pieces_line (large : 1 < size) (rest : List Byte) {text : List Byte} (line : 10 ∉ text) :
    ∃ first, pieces size (text ++ 10 :: rest) = first ++ pieces size rest := by
  induction count : text.length using Nat.strongRecOn generalizing text with
  | _ count ih =>
      rw [pieces_of_ne_nil large (line_ne_nil text rest)]
      by_cases short : text.length + 1 < size
      · refine ⟨[text ++ [10]], ?_⟩
        rw [piece_of_short line short, drop_line]
        rfl
      · have long := Nat.le_of_not_lt short
        have taken : (text.take (size - 1)).length = size - 1 := by
          rw [List.length_take]
          omega
        rw [piece_of_long line long, taken, List.drop_append_of_le_length (by omega)]
        obtain ⟨first, rest_⟩ := ih (text.drop (size - 1)).length (by
          rw [List.length_drop]
          omega) (fun member => line (List.mem_of_mem_drop member)) rfl
        exact ⟨text.take (size - 1) :: first, by rw [rest_]; rfl⟩

/-- The bytes of some lines. -/
def bytes (lines : List (List Byte)) : List Byte :=
  (lines.map (· ++ [10])).flatten

theorem bytes_cons (text : List Byte) (lines : List (List Byte)) :
    bytes (text :: lines) = text ++ 10 :: bytes lines := by
  rw [bytes, List.map_cons, List.flatten_cons, List.append_assoc]
  rfl

variable {lines : List (List Byte)}

/-- Lines that fit are the pieces. -/
theorem pieces_of_short (large : 1 < size)
    (short : ∀ text ∈ lines, 10 ∉ text ∧ text.length + 1 < size) :
    pieces size (bytes lines) = lines.map (· ++ [10]) := by
  induction lines with
  | nil => exact pieces_nil size
  | cons text lines ih =>
      obtain ⟨line, fits⟩ := short text List.mem_cons_self
      rw [bytes_cons, pieces_of_ne_nil large (line_ne_nil _ _), piece_of_short line fits, drop_line,
        ih fun other member => short other (List.mem_cons_of_mem _ member)]
      rfl

/-- A line that fits is one of the pieces, whatever the other lines are. -/
theorem mem_pieces (large : 1 < size) (clean : ∀ text ∈ lines, 10 ∉ text) {text : List Byte}
    (member : text ∈ lines) (short : text.length + 1 < size) :
    text ++ [10] ∈ pieces size (bytes lines) := by
  induction lines with
  | nil => cases member
  | cons head lines ih =>
      have line := clean head List.mem_cons_self
      rw [bytes_cons]
      rcases List.mem_cons.mp member with rfl | later
      · rw [pieces_of_ne_nil large (line_ne_nil _ _), piece_of_short line short]
        exact List.mem_cons_self
      · obtain ⟨first, split⟩ := pieces_line large (bytes lines) line
        rw [split]
        exact List.mem_append_right _
          (ih (fun other there => clean other (List.mem_cons_of_mem _ there)) later)

end LineInput

import LinuxUnix.Foundation.LineInput
import LinuxUnix.Foundation.Tokens

/-! # filter.c

The filter reads its standard input in pieces of at most 254 bytes, takes the string in each
piece apart at the blanks, and prints each token, or a row of `x` for each filter word in it.
A blank follows everything that is printed, and no filter word contains one.
-/

namespace LinuxUnix.WordFilter
open Tokens

/-- `MAX` -/
def max : ℕ := 255

/-- `token[]`: the blank. -/
def token : Byte := 32

/-- The byte `x`. -/
def cross : Byte := 120

/-- `undo`, `oder`, `aber` and `ein`. -/
def filterwords : List (List Byte) :=
  [[117, 110, 100, 111], [111, 100, 101, 114], [97, 98, 101, 114], [101, 105, 110]]

/-- The inner loop over the remaining filter words: what it prints for the token `p`, and
`merker`. -/
def replace (p : List Byte) : List (List Byte) → List Byte × Bool
  | [] => ([], false)
  | word :: words =>
      if (strstr word p).isSome then
        (List.replicate word.length cross ++ [token] ++ (replace p words).1, true)
      else replace p words

/-- What is printed for one token. -/
def outputToken (p : List Byte) : List Byte :=
  if (replace p filterwords).2 then (replace p filterwords).1
  else (replace p filterwords).1 ++ (p ++ [token])

/-- What `output` prints for the string in `puffer`. -/
def output (puffer : List Byte) : List Byte :=
  (tokens token (CMemory.cstr puffer)).flatMap outputToken

/-- What `main` prints: `fgets` ends each piece with a NUL. -/
def main (input : List Byte) : List Byte :=
  (LineInput.pieces max input).flatMap fun piece => output (piece ++ [0])

/-- What a filter word needs so that none passes: it fits `tmp` with its NUL, it contains no
blank, and it is not a row of `x`. -/
structure Filterable (word : List Byte) : Prop where
  short : word.length < 20
  clean : token ∉ word
  nonempty : word ≠ []
  legible : ¬ ∀ byte ∈ word, byte = cross

theorem filterable_of_mem : ∀ word ∈ filterwords, Filterable word := by
  simp only [filterwords, List.forall_mem_cons, List.not_mem_nil, false_implies, implies_true,
    and_true]
  refine ⟨?_, ?_, ?_, ?_⟩ <;> exact ⟨by decide, by decide, by decide, by decide⟩

/-- No filter word occurs in the text. -/
def Clean (text : List Byte) : Prop := ∀ word ∈ filterwords, ¬ word <:+: text

theorem clean_replicate (count : ℕ) : Clean (List.replicate count cross) := by
  intro word member inside
  exact (filterable_of_mem word member).legible fun byte there =>
    List.eq_of_mem_replicate (inside.subset there)

variable {p : List Byte} {words : List (List Byte)}

/-- The rows of `x` that stand for the filter words in a token. -/
def rows (p : List Byte) (words : List (List Byte)) : List (List Byte) :=
  (words.filter fun word => (strstr word p).isSome).map fun word =>
    List.replicate word.length cross

theorem rows_of_occurs {word : List Byte} (occurs : (strstr word p).isSome) :
    rows p (word :: words) = List.replicate word.length cross :: rows p words := by
  rw [rows, List.filter_cons, if_pos occurs]
  rfl

theorem rows_of_absent {word : List Byte} (absent : ¬ (strstr word p).isSome) :
    rows p (word :: words) = rows p words := by
  rw [rows, List.filter_cons, if_neg absent]
  rfl

/-- The inner loop prints the rows, each with a blank, and notes whether there was one. -/
theorem replace_eq (p : List Byte) (words : List (List Byte)) : replace p words =
    ((rows p words).flatMap (· ++ [token]), !(rows p words).isEmpty) := by
  induction words with
  | nil => rfl
  | cons word words ih =>
      rw [replace]
      split
      · rename_i occurs
        rw [ih, rows_of_occurs occurs]
        rfl
      · rename_i absent
        rw [ih, rows_of_absent absent]

/-- The segments that are printed for a token. -/
def segments (p : List Byte) : List (List Byte) :=
  if (rows p filterwords).isEmpty then [p] else rows p filterwords

theorem outputToken_eq (p : List Byte) : outputToken p = (segments p).flatMap (· ++ [token]) := by
  rw [outputToken, replace_eq, segments]
  cases rows p filterwords with
  | nil => exact (List.flatMap_singleton (· ++ [token]) p).symm
  | cons row others => rfl

/-- A token that leaves no row contains no filter word. -/
theorem clean_of_rows (empty : (rows p filterwords).isEmpty) : Clean p := by
  intro word member inside
  have found : List.replicate word.length cross ∈ rows p filterwords :=
    List.mem_map_of_mem (List.mem_filter.mpr ⟨member, isSome_strstr_iff.mpr inside⟩)
  rw [List.isEmpty_iff.mp empty] at found
  exact List.not_mem_nil found

theorem clean_of_mem_segments {segment : List Byte} (member : segment ∈ segments p) :
    Clean segment := by
  rw [segments] at member
  split at member
  · rename_i empty
    rw [List.mem_singleton.mp member]
    exact clean_of_rows empty
  · obtain ⟨word, -, rfl⟩ := List.mem_map.mp member
    exact clean_replicate word.length

/-- The segments of everything that is printed. -/
def printed (input : List Byte) : List (List Byte) :=
  (LineInput.pieces max input).flatMap fun piece =>
    (tokens token (CMemory.cstr (piece ++ [0]))).flatMap segments

theorem main_eq (input : List Byte) : main input = (printed input).flatMap (· ++ [token]) := by
  rw [main, printed, List.flatMap_assoc]
  refine List.flatMap_congr fun piece _ => ?_
  rw [output, List.flatMap_assoc]
  exact List.flatMap_congr fun p _ => outputToken_eq p

theorem clean_of_mem_printed {input segment : List Byte} (member : segment ∈ printed input) :
    Clean segment := by
  obtain ⟨piece, -, inPiece⟩ := List.mem_flatMap.mp member
  obtain ⟨p, -, inToken⟩ := List.mem_flatMap.mp inPiece
  exact clean_of_mem_segments inToken

/-- No filter word occurs in what is printed, at whatever places `fgets` and `strtok` cut the
input. -/
theorem no_filterword_passes (input : List Byte) : Clean (main input) := by
  intro word member inside
  have filterable := filterable_of_mem word member
  rw [main_eq] at inside
  obtain ⟨segment, there, occurs⟩ :=
    exists_infix_segment filterable.clean filterable.nonempty inside
  exact clean_of_mem_printed there word member occurs

end LinuxUnix.WordFilter

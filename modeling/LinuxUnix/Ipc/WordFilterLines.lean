import LinuxUnix.Ipc.WordFilter
import Mathlib.Data.List.DropRight
import Mathlib.Data.List.Forall2
import Mathlib.Data.List.Nodup

/-! # Words and lines behind the filter

A word is to come out as itself, or as one row of `x` if it contains a filter word, on the line on
which it came in. The filter keeps to that (`LinuxUnix.WordFilter.keeps_iff`) unless a word lies
across two reads of its line, contains two of the filter words, or takes its newline along when it
is replaced.
-/

namespace LinuxUnix.WordFilter

open Tokens

/-- The words on each line of a text. -/
def wordlines (text : List Byte) : List (List (List Byte)) :=
  (text.splitOn 10).map (words token)

/-- What stands for a word behind the filter: the word itself, or characters `x` if the word
contains a filter word. -/
def StandsFor (word shown : List Byte) : Prop :=
  (Clean word → shown = word) ∧ (¬ Clean word → shown ≠ [] ∧ ∀ byte ∈ shown, byte = cross)

/-- The text behind the filter has the lines of the text in front of it, and on each line one word
for each word. -/
def Keeps (input output : List Byte) : Prop :=
  List.Forall₂ (List.Forall₂ StandsFor) (wordlines input) (wordlines output)

/-- No word of a line lies across two reads: where one of them ends, a blank stands in front of the
place or behind it. -/
def Unbroken (text : List Byte) : Prop :=
  ∀ index, 0 < index → index * (max - 1) < text.length →
    text[index * (max - 1) - 1]? = some token ∨ text[index * (max - 1)]? = some token

/-- A word does not contain two of the filter words. -/
def Single (word : List Byte) : Prop :=
  ∀ first ∈ filterwords, ∀ second ∈ filterwords,
    first <:+: word → second <:+: word → first = second

instance (word : List Byte) : Decidable (Single word) :=
  inferInstanceAs (Decidable (∀ first ∈ filterwords, ∀ second ∈ filterwords,
    first <:+: word → second <:+: word → first = second))

/-- What is read of a line together with its newline, behind the last blank. -/
def touching (line : List Byte) : List Byte :=
  (line.drop (line.length / (max - 1) * (max - 1))).rtakeWhile (· != token)

/-- What is printed for the words of a text. -/
def shown (text : List Byte) : List (List Byte) := (words token text).flatMap segments

/-- Some words with a blank behind each. -/
def spaced (segments : List (List Byte)) : List Byte := segments.flatMap (· ++ [token])

/-- What is read of a line at a time. -/
def parts (line : List Byte) : List (List Byte) :=
  if line.length < max - 1 then [line]
  else line.take (max - 1) :: parts (line.drop (max - 1))
termination_by line.length
decreasing_by
  rename_i long
  rw [max] at long ⊢
  rw [List.length_drop]
  omega

instance (text : List Byte) : Decidable (Clean text) :=
  inferInstanceAs (Decidable (∀ word ∈ filterwords, ¬ word <:+: text))

variable {text line rest word segment : List Byte}

theorem newline_not_mem_filterword : ∀ word ∈ filterwords, 10 ∉ word := by
  decide

theorem clean_append_newline : Clean (word ++ [10]) ↔ Clean word := by
  constructor
  · exact fun clean other member inside =>
      clean other member (inside.trans (List.prefix_append ..).isInfix)
  · intro clean other member inside
    rcases infix_of_separated (newline_not_mem_filterword other member) inside with here | behind
    · exact clean other member here
    · exact (filterable_of_mem other member).nonempty (List.eq_nil_of_infix_nil behind)

/-- What is printed for a word is the word, or a row for a filter word. -/
theorem of_mem_segments (member : segment ∈ segments word) :
    (segment = word ∧ Clean word) ∨
      ∃ other ∈ filterwords, segment = List.replicate other.length cross := by
  rw [segments] at member
  split at member
  · rename_i empty
    exact .inl ⟨List.mem_singleton.mp member, clean_of_rows empty⟩
  · obtain ⟨other, found, rfl⟩ := List.mem_map.mp member
    exact .inr ⟨other, (List.mem_filter.mp found).1, rfl⟩

theorem segments_of_clean (clean : Clean word) : segments word = [word] := by
  rw [segments, if_pos]
  rw [rows, List.isEmpty_iff, List.map_eq_nil_iff, List.filter_eq_nil_iff]
  exact fun other member found => clean other member (isSome_strstr_iff.mp found)

/-- It is not empty, and contains no byte that the word does not contain, but `x`. -/
theorem proper_of_mem_segments {byte : Byte} (other : byte ≠ cross) (clean : byte ∉ word)
    (nonempty : word ≠ []) (member : segment ∈ segments word) : segment ≠ [] ∧ byte ∉ segment := by
  rcases of_mem_segments member with ⟨rfl, -⟩ | ⟨filterword, there, rfl⟩
  · exact ⟨nonempty, clean⟩
  · refine ⟨?_, fun inside => other (List.eq_of_mem_replicate inside)⟩
    rw [Ne, List.replicate_eq_nil_iff, List.length_eq_zero_iff]
    exact (filterable_of_mem filterword there).nonempty

theorem proper_of_mem_shown (member : segment ∈ shown text) :
    segment ≠ [] ∧ token ∉ segment := by
  obtain ⟨word, there, inside⟩ := List.mem_flatMap.mp member
  obtain ⟨nonempty, clean, -⟩ := of_mem_words there
  exact proper_of_mem_segments (by decide) clean nonempty inside

/-- No newline is printed for a text without one. -/
theorem newline_not_mem_spaced (line : 10 ∉ text) : 10 ∉ spaced (shown text) := by
  intro member
  obtain ⟨segment, printed, inside⟩ := List.mem_flatMap.mp member
  rcases List.mem_append.mp inside with here | blank
  · obtain ⟨word, there, shown_⟩ := List.mem_flatMap.mp printed
    obtain ⟨nonempty, -, part⟩ := of_mem_words there
    exact (proper_of_mem_segments (by decide) (fun letter => line (part.subset letter)) nonempty
      shown_).2 here
  · exact absurd (List.mem_singleton.mp blank) (by decide)

/-- The words of what is printed. -/
theorem words_spaced_shown (text rest : List Byte) :
    words token (spaced (shown text) ++ rest) = shown text ++ words token rest :=
  words_flatMap_append (fun _ member => proper_of_mem_shown member) rest

/-- What `output` prints for a string. -/
theorem output_eq (clean : 0 ∉ text) : output (text ++ [0]) = spaced (shown text) := by
  rw [output, CMemory.cstr_append_zero, CMemory.cstr_eq_self clean, tokens_eq_words, spaced, shown,
    List.flatMap_assoc]
  exact List.flatMap_congr fun word _ => outputToken_eq word

theorem main_nil : main [] = [] := by
  rw [main, LineInput.pieces_nil, List.flatMap_nil]

theorem main_of_ne_nil (nonempty : text ≠ []) : main text =
    output (LineInput.piece max text ++ [0]) ++
      main (text.drop (LineInput.piece max text).length) := by
  rw [main, LineInput.pieces_of_ne_nil (by decide) nonempty, List.flatMap_cons]
  rfl

/-- A line that is shorter than the buffer. -/
theorem main_short (clean : 0 ∉ line) (oneLine : 10 ∉ line) (short : line.length < max - 1)
    (rest : List Byte) :
    main (line ++ 10 :: rest) = spaced (shown (line ++ [10])) ++ main rest := by
  have whole : 0 ∉ line ++ [10] := fun member =>
    (List.mem_append.mp member).elim clean (by decide)
  rw [main_of_ne_nil (LineInput.line_ne_nil line rest),
    LineInput.piece_of_short oneLine (Nat.add_lt_of_lt_sub short), LineInput.drop_line,
    output_eq whole]

/-- A line that is not is taken up part by part. -/
theorem main_long (clean : 0 ∉ line) (oneLine : 10 ∉ line) (long : max - 1 ≤ line.length)
    (rest : List Byte) : main (line ++ 10 :: rest) =
      spaced (shown (line.take (max - 1))) ++ main (line.drop (max - 1) ++ 10 :: rest) := by
  rw [main_of_ne_nil (LineInput.line_ne_nil line rest),
    LineInput.piece_of_long oneLine (Nat.le_add_of_sub_le long), List.length_take,
    Nat.min_eq_left long, List.drop_append_of_le_length long,
    output_eq fun member => clean (List.mem_of_mem_take member)]

/-- So is what follows the last newline. -/
theorem main_last (clean : 0 ∉ line) (oneLine : 10 ∉ line) :
    main line = spaced (shown (line.take (max - 1))) ++ main (line.drop (max - 1)) := by
  by_cases nonempty : line = []
  · subst nonempty
    rw [List.take_nil, List.drop_nil, shown, words_nil]
    rfl
  · rw [main_of_ne_nil nonempty, LineInput.piece_of_last oneLine, List.length_take,
      output_eq fun member => clean (List.mem_of_mem_take member)]
    congr 2
    rcases Nat.le_total (max - 1) line.length with long | short
    · rw [Nat.min_eq_left long]
    · rw [Nat.min_eq_right short, List.drop_of_length_le short, List.drop_length]

theorem words_rdropWhile (line text : List Byte) :
    words token (line.rdropWhile (· != token) ++ text) =
      words token (line.rdropWhile (· != token)) ++ words token text := by
  refine words_append fun before last _ _ => .inl ?_
  obtain ⟨nonempty, rfl⟩ := List.mem_getLast?_eq_getLast last
  have kept := List.rdropWhile_last_not (· != token) line nonempty
  simpa using kept

theorem token_not_mem_rtakeWhile (line : List Byte) : token ∉ line.rtakeWhile (· != token) := by
  intro member
  have kept := List.mem_rtakeWhile_imp member
  rw [bne_self_eq_false] at kept
  cases kept

/-- What is printed for a text and the newline behind it. -/
theorem shown_newline (line : List Byte) : shown (line ++ [10]) =
    shown (line.rdropWhile (· != token)) ++ segments (line.rtakeWhile (· != token) ++ [10]) := by
  have clean : token ∉ line.rtakeWhile (· != token) ++ [10] := by
    intro member
    rcases List.mem_append.mp member with inside | newline
    · exact token_not_mem_rtakeWhile line inside
    · exact absurd (List.mem_singleton.mp newline) (by decide)
  conv_lhs => rw [← List.rdropWhile_append_rtakeWhile (p := (· != token)) (l := line)]
  rw [shown, List.append_assoc, words_rdropWhile,
    words_of_clean (List.append_ne_nil_of_right_ne_nil _ (List.cons_ne_nil _ _)) clean,
    List.flatMap_append, List.flatMap_singleton, shown]

/-- The newline of a line is printed if no filter word stands in what is read with it. -/
theorem newline_kept (clean : Clean (line.rtakeWhile (· != token))) (oneLine : 10 ∉ line) :
    ∃ text, spaced (shown (line ++ [10])) = text ++ [10, token] ∧ 10 ∉ text ∧
      words token text = shown line := by
  have unread : segments (line.rtakeWhile (· != token) ++ [10]) =
      [line.rtakeWhile (· != token) ++ [10]] :=
    segments_of_clean (clean_append_newline.mpr clean)
  refine ⟨spaced (shown (line.rdropWhile (· != token))) ++ line.rtakeWhile (· != token), ?_,
    fun member => ?_, ?_⟩
  · rw [shown_newline, unread, spaced, List.flatMap_append, List.flatMap_singleton]
    simp only [spaced, List.append_assoc, List.cons_append, List.nil_append]
  · rcases List.mem_append.mp member with front | last
    · exact newline_not_mem_spaced
        (fun inside => oneLine ((List.rdropWhile_prefix _ _).subset inside)) front
    · exact oneLine ((List.rtakeWhile_suffix _ _).subset last)
  · have own : words token (line.rtakeWhile (· != token)) =
        (words token (line.rtakeWhile (· != token))).flatMap segments := by
      by_cases nonempty : line.rtakeWhile (· != token) = []
      · rw [nonempty, words_nil, List.flatMap_nil]
      · rw [words_of_clean nonempty (token_not_mem_rtakeWhile line), List.flatMap_singleton,
          segments_of_clean clean]
    rw [words_spaced_shown, own, shown, shown, ← List.flatMap_append, ← words_rdropWhile,
      List.rdropWhile_append_rtakeWhile]

/-- It gets lost if there is one. -/
theorem newline_lost (dirty : ¬ Clean (line.rtakeWhile (· != token))) (oneLine : 10 ∉ line) :
    10 ∉ spaced (shown (line ++ [10])) := by
  intro member
  rw [shown_newline, spaced, List.flatMap_append] at member
  rcases List.mem_append.mp member with front | last
  · exact newline_not_mem_spaced
      (fun inside => oneLine ((List.rdropWhile_prefix _ _).subset inside)) front
  · obtain ⟨segment, printed, inside⟩ := List.mem_flatMap.mp last
    rcases of_mem_segments printed with ⟨-, clean⟩ | ⟨other, there, rfl⟩
    · exact dirty (clean_append_newline.mp clean)
    · rcases List.mem_append.mp inside with row | blank
      · exact absurd (List.eq_of_mem_replicate row) (by decide)
      · exact absurd (List.mem_singleton.mp blank) (by decide)

theorem touching_short (short : line.length < max - 1) :
    touching line = line.rtakeWhile (· != token) := by
  rw [touching, Nat.div_eq_of_lt short, Nat.zero_mul, List.drop_zero]

theorem touching_long (long : max - 1 ≤ line.length) :
    touching (line.drop (max - 1)) = touching line := by
  have read : line.length / (max - 1) = (line.length - (max - 1)) / (max - 1) + 1 :=
    Nat.div_eq_sub_div (by decide) long
  rw [touching, touching, List.drop_drop, List.length_drop, read, Nat.add_mul, Nat.one_mul,
    Nat.add_comm]

/-- What is printed for the words of a line, as far as they are read together. -/
def shownLine (line : List Byte) : List (List Byte) := (parts line).flatMap shown

theorem shownLine_short (short : line.length < max - 1) : shownLine line = shown line := by
  rw [shownLine, parts, if_pos short, List.flatMap_singleton]

theorem shownLine_long (long : max - 1 ≤ line.length) :
    shownLine line = shown (line.take (max - 1)) ++ shownLine (line.drop (max - 1)) := by
  rw [shownLine, parts, if_neg (Nat.not_lt_of_le long), List.flatMap_cons, shownLine]

/-- A property of the lines holds if it holds of the short ones, and of the long ones if it holds
behind their first part. -/
theorem parts_induction {motive : List Byte → Prop}
    (short : ∀ line, line.length < max - 1 → motive line)
    (long : ∀ line, max - 1 ≤ line.length → motive (line.drop (max - 1)) → motive line)
    (line : List Byte) : motive line := by
  induction line using parts.induct with
  | case1 line fits => exact short line fits
  | case2 line fits ih => exact long line (Nat.le_of_not_lt fits) ih

/-- No newline is printed for the first part of a line. -/
theorem newline_not_mem_first (oneLine : 10 ∉ line) (whole : 10 ∉ text) :
    10 ∉ spaced (shown (line.take (max - 1))) ++ text := by
  intro member
  rcases List.mem_append.mp member with front | behind
  · exact newline_not_mem_spaced (fun inside => oneLine (List.mem_of_mem_take inside)) front
  · exact whole behind

/-- What is printed for a line whose newline is kept. -/
theorem main_line_kept (clean : 0 ∉ line) (oneLine : 10 ∉ line) (kept : Clean (touching line))
    (rest : List Byte) : ∃ text, main (line ++ 10 :: rest) = text ++ 10 :: token :: main rest ∧
      10 ∉ text ∧ words token text = shownLine line := by
  induction line using parts_induction with
  | short line short =>
      rw [touching_short short] at kept
      obtain ⟨text, printed, whole, same⟩ := newline_kept kept oneLine
      refine ⟨text, ?_, whole, same.trans (shownLine_short short).symm⟩
      rw [main_short clean oneLine short, printed, List.append_assoc]
      rfl
  | long line long ih =>
      rw [← touching_long long] at kept
      obtain ⟨text, printed, whole, same⟩ := ih (fun member => clean (List.mem_of_mem_drop member))
        (fun member => oneLine (List.mem_of_mem_drop member)) kept
      refine ⟨spaced (shown (line.take (max - 1))) ++ text, ?_,
        newline_not_mem_first oneLine whole, ?_⟩
      · rw [main_long clean oneLine long, printed, List.append_assoc]
      · rw [words_spaced_shown, same, shownLine_long long]

/-- What is printed for a line whose newline is lost. -/
theorem main_line_lost (clean : 0 ∉ line) (oneLine : 10 ∉ line) (lost : ¬ Clean (touching line))
    (rest : List Byte) : ∃ text, main (line ++ 10 :: rest) = text ++ main rest ∧ 10 ∉ text := by
  induction line using parts_induction with
  | short line short =>
      rw [touching_short short] at lost
      exact ⟨spaced (shown (line ++ [10])), main_short clean oneLine short rest,
        newline_lost lost oneLine⟩
  | long line long ih =>
      rw [← touching_long long] at lost
      obtain ⟨text, printed, whole⟩ := ih (fun member => clean (List.mem_of_mem_drop member))
        (fun member => oneLine (List.mem_of_mem_drop member)) lost
      refine ⟨spaced (shown (line.take (max - 1))) ++ text, ?_,
        newline_not_mem_first oneLine whole⟩
      rw [main_long clean oneLine long, printed, List.append_assoc]

/-- What is printed for the text behind the last newline. -/
theorem main_rest (clean : 0 ∉ line) (oneLine : 10 ∉ line) :
    10 ∉ main line ∧ words token (main line) = shownLine line := by
  induction line using parts_induction with
  | short line short =>
      rw [main_last clean oneLine, List.take_of_length_le (Nat.le_of_lt short),
        List.drop_of_length_le (Nat.le_of_lt short), main_nil, List.append_nil]
      refine ⟨newline_not_mem_spaced oneLine, ?_⟩
      have same := words_spaced_shown line []
      rw [List.append_nil, words_nil, List.append_nil] at same
      exact same.trans (shownLine_short short).symm
  | long line long ih =>
      obtain ⟨whole, same⟩ := ih (fun member => clean (List.mem_of_mem_drop member))
        (fun member => oneLine (List.mem_of_mem_drop member))
      rw [main_last clean oneLine]
      refine ⟨newline_not_mem_first oneLine whole, ?_⟩
      rw [words_spaced_shown, same, shownLine_long long]

theorem wordlines_newline (first second : List Byte) :
    wordlines (first ++ 10 :: second) = wordlines first ++ wordlines second := by
  rw [wordlines, List.splitOn_append_cons_self, List.map_append]
  rfl

theorem wordlines_line (oneLine : 10 ∉ line) : wordlines line = [words token line] := by
  rw [wordlines, List.splitOn_eq_singleton oneLine, List.map_singleton]

/-- A blank in front changes nothing. -/
theorem wordlines_token_cons (text : List Byte) : wordlines (token :: text) = wordlines text := by
  induction text using separator_induction (10 : Byte) with
  | last line oneLine =>
      rw [wordlines_line oneLine, wordlines_line, words_delimiter_cons]
      exact List.not_mem_cons_of_ne_of_not_mem (by decide) oneLine
  | next line rest oneLine =>
      rw [← List.cons_append, wordlines_newline, wordlines_newline, wordlines_line oneLine,
        wordlines_line, words_delimiter_cons]
      exact List.not_mem_cons_of_ne_of_not_mem (by decide) oneLine

/-- Text in front without a newline makes no line. -/
theorem length_wordlines_append (oneLine : 10 ∉ line) (text : List Byte) :
    (wordlines (line ++ text)).length = (wordlines text).length := by
  induction text using separator_induction (10 : Byte) with
  | last other alone =>
      rw [wordlines_line alone, wordlines_line]
      · rfl
      · exact fun member => (List.mem_append.mp member).elim oneLine alone
  | next other rest alone =>
      rw [← List.append_assoc, wordlines_newline, wordlines_newline, wordlines_line alone,
        wordlines_line]
      · rfl
      · exact fun member => (List.mem_append.mp member).elim oneLine alone

theorem splitOn_line (oneLine : 10 ∉ line) (rest : List Byte) :
    (line ++ 10 :: rest).splitOn 10 = line :: rest.splitOn 10 := by
  rw [List.splitOn_append_cons_self, List.splitOn_eq_singleton oneLine, List.singleton_append]

/-- If there are as many lines behind the filter as in front of it, then no newline is lost. -/
theorem kept_of_length {input : List Byte} (clean : 0 ∉ input) :
    (wordlines (main input)).length ≤ (wordlines input).length ∧
      ((wordlines (main input)).length = (wordlines input).length →
        ∀ line ∈ (input.splitOn 10).dropLast, Clean (touching line)) := by
  induction input using separator_induction (10 : Byte) with
  | last line oneLine =>
      rw [wordlines_line oneLine, wordlines_line (main_rest clean oneLine).1,
        List.splitOn_eq_singleton oneLine]
      exact ⟨Nat.le_refl _, fun _ line member => absurd member List.not_mem_nil⟩
  | next line rest oneLine ih =>
      obtain ⟨fewer, same⟩ := ih fun member =>
        clean (List.mem_append_right _ (List.mem_cons_of_mem _ member))
      have proper : 0 ∉ line := fun member => clean (List.mem_append_left _ member)
      rw [splitOn_line oneLine, List.dropLast_cons_of_ne_nil (List.splitOn_ne_nil _ _),
        wordlines_newline line, wordlines_line oneLine, List.length_append, List.length_singleton]
      by_cases kept : Clean (touching line)
      · obtain ⟨text, printed, whole, -⟩ := main_line_kept proper oneLine kept rest
        rw [printed, wordlines_newline, wordlines_line whole, wordlines_token_cons,
          List.length_append, List.length_singleton]
        refine ⟨Nat.add_le_add_left fewer 1, fun equal other member => ?_⟩
        rcases List.mem_cons.mp member with rfl | later
        · exact kept
        · exact same (Nat.add_left_cancel equal) other later
      · obtain ⟨text, printed, whole⟩ := main_line_lost proper oneLine kept rest
        rw [printed, length_wordlines_append whole]
        exact ⟨Nat.le_add_left_of_le fewer, fun equal => by omega⟩

/-- If no newline is lost, then the words of each line are printed on a line. -/
theorem wordlines_main {input : List Byte} (clean : 0 ∉ input)
    (kept : ∀ line ∈ (input.splitOn 10).dropLast, Clean (touching line)) :
    wordlines (main input) = (input.splitOn 10).map shownLine := by
  induction input using separator_induction (10 : Byte) with
  | last line oneLine =>
      obtain ⟨whole, same⟩ := main_rest clean oneLine
      rw [wordlines_line whole, same, List.splitOn_eq_singleton oneLine, List.map_singleton]
  | next line rest oneLine ih =>
      rw [splitOn_line oneLine, List.dropLast_cons_of_ne_nil (List.splitOn_ne_nil _ _)] at kept
      obtain ⟨text, printed, whole, same⟩ := main_line_kept
        (fun member => clean (List.mem_append_left _ member)) oneLine
        (kept line List.mem_cons_self) rest
      rw [printed, wordlines_newline, wordlines_line whole, wordlines_token_cons, same,
        splitOn_line oneLine, ih]
      · rfl
      · exact fun member => clean (List.mem_append_right _ (List.mem_cons_of_mem _ member))
      · exact fun other member => kept other (List.mem_cons_of_mem _ member)

theorem unbroken_short (short : line.length < max - 1) : Unbroken line := by
  intro index positive inside
  have large : max - 1 ≤ index * (max - 1) := Nat.le_mul_of_pos_left _ positive
  omega

/-- A long line is unbroken at the end of its first part, and behind it. -/
theorem unbroken_long (long : max - 1 ≤ text.length) : Unbroken text ↔
    Parted token (text.take (max - 1)) (text.drop (max - 1)) ∧ Unbroken (text.drop (max - 1)) := by
  have later (index : ℕ) (positive : 0 < index) :
      (text.drop (max - 1))[index * (max - 1) - 1]? = text[(index + 1) * (max - 1) - 1]? ∧
        (text.drop (max - 1))[index * (max - 1)]? = text[(index + 1) * (max - 1)]? := by
    have large : max - 1 ≤ index * (max - 1) := Nat.le_mul_of_pos_left _ positive
    rw [max] at large ⊢
    rw [List.getElem?_drop, List.getElem?_drop]
    refine ⟨congrArg (text[·]?) (by omega), congrArg (text[·]?) (by omega)⟩
  have first : Parted token (text.take (max - 1)) (text.drop (max - 1)) ↔
      (max - 1 < text.length → text[max - 1 - 1]? = some token ∨ text[max - 1]? = some token) := by
    have last : (text.take (max - 1)).getLast? = text[max - 1 - 1]? := by
      rw [List.getLast?_take, if_neg (by decide), List.getElem?_eq_getElem (by
        rw [max] at long ⊢
        omega)]
      rfl
    rw [Parted, last, List.head?_drop]
    constructor
    · intro parted inside
      have before := List.getElem?_eq_getElem (l := text) (i := max - 1 - 1) (by omega)
      have behind := List.getElem?_eq_getElem inside
      rw [before, behind] at parted ⊢
      rcases parted _ rfl _ rfl with same | same
      · exact .inl (congrArg some same)
      · exact .inr (congrArg some same)
    · intro parted before last behind next
      have inside := (List.getElem?_eq_some_iff.mp next).1
      rcases parted inside with same | same
      · exact .inl (Option.some.inj (last.symm.trans same))
      · exact .inr (Option.some.inj (next.symm.trans same))
  rw [first]
  constructor
  · intro unbroken
    refine ⟨fun inside => ?_, fun index positive inside => ?_⟩
    · have here := unbroken 1 Nat.one_pos
      rw [Nat.one_mul] at here
      exact here inside
    · obtain ⟨before, behind⟩ := later index positive
      rw [before, behind]
      refine unbroken (index + 1) (Nat.succ_pos index) ?_
      rw [List.length_drop] at inside
      rw [Nat.succ_mul]
      omega
  · rintro ⟨here, unbroken⟩ index positive inside
    cases index with
    | zero => cases positive
    | succ index =>
        cases index with
        | zero =>
            rw [Nat.zero_add, Nat.one_mul] at inside ⊢
            exact here inside
        | succ index =>
            obtain ⟨before, behind⟩ := later (index + 1) (Nat.succ_pos index)
            rw [← before, ← behind]
            refine unbroken (index + 1) (Nat.succ_pos index) ?_
            rw [List.length_drop]
            rw [Nat.succ_mul] at inside
            omega

/-- What is read of a line at a time has the words of the line, unless a word lies across two
reads: then it has more. -/
theorem words_parts (line : List Byte) :
    (Unbroken line → (parts line).flatMap (words token) = words token line) ∧
      (words token line).length ≤ ((parts line).flatMap (words token)).length ∧
      (((parts line).flatMap (words token)).length = (words token line).length →
        Unbroken line) := by
  induction line using parts_induction with
  | short line short =>
      rw [parts, if_pos short, List.flatMap_singleton]
      exact ⟨fun _ => rfl, Nat.le_refl _, fun _ => unbroken_short short⟩
  | long line long ih =>
      obtain ⟨same, fewer, equal⟩ := ih
      rw [parts, if_neg (Nat.not_lt_of_le long), List.flatMap_cons, List.length_append,
        unbroken_long long]
      have whole := List.take_append_drop (max - 1) line
      by_cases parted : Parted token (line.take (max - 1)) (line.drop (max - 1))
      · have split := words_append parted
        rw [whole] at split
        rw [split, List.length_append]
        refine ⟨fun ⟨_, unbroken⟩ => ?_, Nat.add_le_add_left fewer _, fun same_ => ⟨parted, ?_⟩⟩
        · rw [same unbroken]
        · exact equal (Nat.add_left_cancel same_)
      · have split := length_words_append parted
        rw [whole] at split
        refine ⟨fun ⟨here, _⟩ => absurd here parted, by omega, fun same_ => ?_⟩
        omega

/-- The filter words in a word. -/
def found (word : List Byte) : List (List Byte) :=
  filterwords.filter fun other => (strstr other word).isSome

theorem mem_found {other : List Byte} :
    other ∈ found word ↔ other ∈ filterwords ∧ other <:+: word := by
  rw [found, List.mem_filter, isSome_strstr_iff]

theorem nodup_found (word : List Byte) : (found word).Nodup :=
  List.Nodup.filter _ (by decide)

theorem clean_iff_found : Clean word ↔ found word = [] := by
  rw [List.eq_nil_iff_forall_not_mem]
  exact ⟨fun clean other member => clean other (mem_found.mp member).1 (mem_found.mp member).2,
    fun none_ other member inside => none_ other (mem_found.mpr ⟨member, inside⟩)⟩

theorem segments_of_found (dirty : found word ≠ []) :
    segments word = (found word).map fun other => List.replicate other.length cross := by
  rw [segments, if_neg]
  · rfl
  · rw [List.isEmpty_iff, rows, List.map_eq_nil_iff]
    exact dirty

theorem length_segments_pos (word : List Byte) : 0 < (segments word).length := by
  by_cases clean : found word = []
  · rw [segments_of_clean (clean_iff_found.mpr clean), List.length_singleton]
    exact Nat.one_pos
  · rw [segments_of_found clean, List.length_map]
    exact List.length_pos_iff.mpr clean

/-- For a word with at most one filter word, what stands for it is printed. -/
theorem segments_of_single (single : Single word) :
    ∃ segment, segments word = [segment] ∧ StandsFor word segment := by
  cases here : found word with
  | nil =>
      have clean := clean_iff_found.mpr here
      exact ⟨word, segments_of_clean clean, fun _ => rfl, fun dirty => absurd clean dirty⟩
  | cons first others =>
      cases others with
      | nil =>
          have dirty : found word ≠ [] := here ▸ List.cons_ne_nil _ _
          obtain ⟨member, -⟩ := mem_found.mp (here ▸ List.mem_cons_self : first ∈ found word)
          refine ⟨List.replicate first.length cross, ?_,
            fun clean => absurd (clean_iff_found.mp clean) dirty,
            fun _ => ⟨?_, fun byte inside => List.eq_of_mem_replicate inside⟩⟩
          · rw [segments_of_found dirty, here, List.map_singleton]
          · rw [Ne, List.replicate_eq_nil_iff, List.length_eq_zero_iff]
            exact (filterable_of_mem first member).nonempty
      | cons second others =>
          have one : first ∈ found word := here ▸ List.mem_cons_self
          have two : second ∈ found word := here ▸ List.mem_cons_of_mem _ List.mem_cons_self
          have same := single first (mem_found.mp one).1 second (mem_found.mp two).1
            (mem_found.mp one).2 (mem_found.mp two).2
          have differ := nodup_found word
          rw [here, same] at differ
          exact absurd List.mem_cons_self (List.nodup_cons.mp differ).1

/-- If one segment is printed for a word, then it contains at most one filter word. -/
theorem single_of_length (one : (segments word).length = 1) : Single word := by
  intro first member second member_ inside inside_
  have here := mem_found.mpr ⟨member, inside⟩
  have there := mem_found.mpr ⟨member_, inside_⟩
  rw [segments_of_found (List.ne_nil_of_mem here), List.length_map] at one
  obtain ⟨only, same⟩ := List.length_eq_one_iff.mp one
  rw [same] at here there
  rw [List.mem_singleton.mp here, List.mem_singleton.mp there]

theorem length_flatMap_segments (texts : List (List Byte)) :
    texts.length ≤ (texts.flatMap segments).length ∧
      ((texts.flatMap segments).length = texts.length →
        ∀ word ∈ texts, (segments word).length = 1) := by
  induction texts with
  | nil => exact ⟨Nat.le_refl _, fun _ word member => absurd member List.not_mem_nil⟩
  | cons head texts ih =>
      obtain ⟨fewer, equal⟩ := ih
      have positive := length_segments_pos head
      rw [List.flatMap_cons, List.length_append, List.length_cons]
      refine ⟨by omega, fun same word member => ?_⟩
      rcases List.mem_cons.mp member with rfl | later
      · omega
      · exact equal (by omega) word later

theorem forall₂_segments {texts : List (List Byte)} (single : ∀ word ∈ texts, Single word) :
    List.Forall₂ StandsFor texts (texts.flatMap segments) := by
  induction texts with
  | nil => exact .nil
  | cons word texts ih =>
      obtain ⟨segment, printed, stands⟩ := segments_of_single (single word List.mem_cons_self)
      rw [List.flatMap_cons, printed, List.singleton_append]
      exact .cons stands (ih fun other member => single other (List.mem_cons_of_mem _ member))

/-- On a line whose newline is kept, each word is printed as it should just if the line is
unbroken, and no word contains two of the filter words. -/
theorem stands_iff (line : List Byte) :
    List.Forall₂ StandsFor (words token line) (shownLine line) ↔
      Unbroken line ∧ ∀ word ∈ words token line, Single word := by
  obtain ⟨same, fewer, equal⟩ := words_parts line
  have read : shownLine line = ((parts line).flatMap (words token)).flatMap segments := by
    rw [shownLine, List.flatMap_assoc]
    rfl
  obtain ⟨more, ones⟩ := length_flatMap_segments ((parts line).flatMap (words token))
  rw [read]
  constructor
  · intro stands
    have count := stands.length_eq
    have unbroken := equal (by omega)
    refine ⟨unbroken, fun word member => ?_⟩
    rw [← same unbroken] at member
    exact single_of_length (ones (by omega) word member)
  · intro ⟨unbroken, single⟩
    rw [same unbroken]
    exact forall₂_segments single

/-- The filter keeps the words and lines of a text just if no word lies across two reads of its
line or contains two filter words, and no filter word is read together with a newline and no blank
between them. -/
theorem keeps_iff {input : List Byte} (clean : 0 ∉ input) : Keeps input (main input) ↔
    (∀ line ∈ input.splitOn 10, Unbroken line ∧ ∀ word ∈ words token line, Single word) ∧
      ∀ line ∈ (input.splitOn 10).dropLast, Clean (touching line) := by
  have lines (kept : ∀ line ∈ (input.splitOn 10).dropLast, Clean (touching line)) :
      Keeps input (main input) ↔
        ∀ line ∈ input.splitOn 10, Unbroken line ∧ ∀ word ∈ words token line, Single word := by
    rw [Keeps, wordlines_main clean kept, wordlines, List.forall₂_map_left_iff,
      List.forall₂_map_right_iff, List.forall₂_same]
    exact forall₂_congr fun line _ => stands_iff line
  constructor
  · intro keeps
    have kept := (kept_of_length clean).2 keeps.length_eq.symm
    exact ⟨(lines kept).mp keeps, kept⟩
  · intro ⟨proper, kept⟩
    exact (lines kept).mpr proper

/-- `aber du`, and a newline. -/
theorem keeps_aberDu : Keeps [97, 98, 101, 114, 32, 100, 117, 10]
    (main [97, 98, 101, 114, 32, 100, 117, 10]) := by
  refine (keeps_iff (by decide)).mpr ⟨fun line member => ⟨unbroken_short ?_, ?_⟩, by decide⟩
  · revert line
    decide
  · revert line
    decide

/-- `oder` takes its newline along: the word `x` of the next line is printed behind `xxxx`. -/
theorem not_keeps_of_oder : ¬ Keeps [111, 100, 101, 114, 10, 120]
    (main [111, 100, 101, 114, 10, 120]) := by
  intro keeps
  have kept := (kept_of_length (by decide)).2 keeps.length_eq.symm
  exact kept [111, 100, 101, 114] (by decide) [111, 100, 101, 114] (by decide) (by decide)

end LinuxUnix.WordFilter

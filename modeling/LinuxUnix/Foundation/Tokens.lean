import LinuxUnix.Foundation.CMemory
import Mathlib.Data.List.Infix

/-! # Substrings and tokens of a C string

`strstr` finds the first place of a string in another one, and `strtok` hands out what stands
between delimiters: the words of the text (`Tokens.tokens_eq_words`). A word without the separator
that occurs in a text of separated segments occurs in one of the segments
(`Tokens.exists_infix_segment`): no word arises at a junction.
-/

namespace Tokens

/-- A text has no separator, or it is what stands before the first one and another text behind
it. -/
@[elab_as_elim]
theorem separator_induction {α : Type} (separator : α) {motive : List α → Prop}
    (last : ∀ text, separator ∉ text → motive text)
    (next : ∀ text rest, separator ∉ text → motive rest → motive (text ++ separator :: rest))
    (text : List α) : motive text := by
  induction count : text.length using Nat.strongRecOn generalizing text with
  | _ count ih =>
      by_cases more : separator ∈ text
      · obtain ⟨first, rest, rfl, clean⟩ := List.eq_append_cons_of_mem more
        rw [List.length_append, List.length_cons] at count
        exact next first rest clean (ih rest.length (by omega) rest rfl)
      · exact last text more

/-- Where `needle` first begins in `haystack`, if it does. -/
def strstr (needle : List Byte) : List Byte → Option (List Byte)
  | [] => if needle = [] then some [] else none
  | byte :: rest =>
      if needle.isPrefixOf (byte :: rest) then some (byte :: rest) else strstr needle rest

theorem isSome_strstr_iff {needle haystack : List Byte} :
    (strstr needle haystack).isSome ↔ needle <:+: haystack := by
  induction haystack with
  | nil =>
      rw [strstr, List.infix_nil]
      split
      · rename_i empty
        exact iff_of_true rfl empty
      · rename_i nonempty
        exact iff_of_false Bool.false_ne_true nonempty
  | cons byte rest ih =>
      rw [strstr, List.infix_cons_iff, ← List.isPrefixOf_iff_prefix]
      split
      · rename_i starts
        exact iff_of_true rfl (.inl starts)
      · rename_i elsewhere
        rw [ih]
        exact (or_iff_right elsewhere).symm

/-- One call of `strtok` with one delimiter: the next token, and where the call after it goes
on. -/
def strtok (delimiter : Byte) (text : List Byte) : Option (List Byte × List Byte) :=
  match text.dropWhile (· == delimiter) with
  | [] => none
  | first :: rest => some ((first :: rest).takeWhile (· != delimiter),
      ((first :: rest).dropWhile (· != delimiter)).tail)

variable {delimiter : Byte} {text token rest : List Byte}

theorem length_of_strtok (found : strtok delimiter text = some (token, rest)) :
    rest.length < text.length := by
  have skipped := (List.dropWhile_suffix (l := text) (· == delimiter)).length_le
  rw [strtok] at found
  split at found
  · cases found
  · rename_i first others start
    cases found
    have shorter := (List.dropWhile_suffix (l := first :: others) (· != delimiter)).length_le
    rw [start] at skipped
    rw [List.length_tail]
    simp only [List.length_cons] at skipped shorter
    omega

/-- The tokens that repeated calls of `strtok` return. -/
def tokens (delimiter : Byte) (text : List Byte) : List (List Byte) :=
  match _found : strtok delimiter text with
  | none => []
  | some (token, rest) => token :: tokens delimiter rest
termination_by text.length
decreasing_by exact length_of_strtok _found

/-- The words of a text: what stands between delimiters and is not empty. -/
def words (delimiter : Byte) (text : List Byte) : List (List Byte) :=
  (text.splitOn delimiter).filter (!·.isEmpty)

/-- Words split at a delimiter. -/
theorem words_append_delimiter (delimiter : Byte) (first second : List Byte) :
    words delimiter (first ++ delimiter :: second) =
      words delimiter first ++ words delimiter second := by
  rw [words, List.splitOn_append_cons_self, List.filter_append]
  rfl

@[simp] theorem words_nil (delimiter : Byte) : words delimiter [] = [] := by
  rw [words, List.splitOn_nil]
  rfl

@[simp] theorem words_delimiter_cons (delimiter : Byte) (text : List Byte) :
    words delimiter (delimiter :: text) = words delimiter text := by
  have split := words_append_delimiter delimiter [] text
  rwa [words_nil, List.nil_append, List.nil_append] at split

/-- A text without the delimiter is one word. -/
theorem words_of_clean (nonempty : token ≠ []) (clean : delimiter ∉ token) :
    words delimiter token = [token] := by
  rw [words, List.splitOn_eq_singleton clean, List.filter_cons_of_pos, List.filter_nil]
  rw [Bool.not_eq_true', List.isEmpty_eq_false_iff]
  exact nonempty

/-- A word is a part of the text; it is not empty, and does not contain the delimiter. -/
theorem of_mem_words (member : token ∈ words delimiter text) :
    token ≠ [] ∧ delimiter ∉ token ∧ token <:+: text := by
  -- a text without delimiters is its only word
  have whole (text : List Byte) (clean : delimiter ∉ text) (member : token ∈ words delimiter text) :
      token ≠ [] ∧ delimiter ∉ token ∧ token <:+: text := by
    by_cases nonempty : text = []
    · subst nonempty
      rw [words_nil] at member
      cases member
    · rw [words_of_clean nonempty clean] at member
      rw [List.mem_singleton.mp member]
      exact ⟨nonempty, clean, List.infix_rfl⟩
  induction text using separator_induction delimiter with
  | last text clean => exact whole text clean member
  | next text rest clean ih =>
      rw [words_append_delimiter] at member
      rcases List.mem_append.mp member with here | later
      · obtain ⟨nonempty, clean, part⟩ := whole text clean here
        exact ⟨nonempty, clean, part.trans (List.prefix_append ..).isInfix⟩
      · obtain ⟨nonempty, clean, part⟩ := ih later
        exact ⟨nonempty, clean,
          part.trans ((List.suffix_cons ..).trans (List.suffix_append ..)).isInfix⟩

theorem strtok_delimiter_cons (delimiter : Byte) (text : List Byte) :
    strtok delimiter (delimiter :: text) = strtok delimiter text := by
  rw [strtok, List.dropWhile_cons, if_pos (beq_self_eq_true delimiter)]
  rfl

theorem strtok_cons_of_ne {byte : Byte} (other : byte ≠ delimiter) (text : List Byte) :
    strtok delimiter (byte :: text) = some ((byte :: text).takeWhile (· != delimiter),
      ((byte :: text).dropWhile (· != delimiter)).tail) := by
  rw [strtok, List.dropWhile_cons, if_neg (by simpa using other)]

/-- A text that does not begin with a delimiter begins with a word. -/
theorem words_cons_of_ne {byte : Byte} (other : byte ≠ delimiter) (text : List Byte) :
    words delimiter (byte :: text) = (byte :: text).takeWhile (· != delimiter) ::
      words delimiter ((byte :: text).dropWhile (· != delimiter)).tail := by
  have nonempty : (byte :: text).takeWhile (· != delimiter) ≠ [] := by
    rw [List.takeWhile_cons, if_pos (bne_iff_ne.mpr other)]
    exact List.cons_ne_nil _ _
  have clean : delimiter ∉ (byte :: text).takeWhile (· != delimiter) := by
    intro member
    have kept := List.mem_takeWhile_imp member
    rw [bne_self_eq_false] at kept
    cases kept
  have whole := List.takeWhile_append_dropWhile (p := (· != delimiter)) (l := byte :: text)
  cases stop : (byte :: text).dropWhile (· != delimiter) with
  | nil =>
      rw [stop, List.append_nil] at whole
      rw [List.tail_nil, words_nil, ← words_of_clean nonempty clean, whole]
  | cons next rest =>
      have same : next = delimiter := by
        have kept := List.head?_dropWhile_not (· != delimiter) (byte :: text)
        rw [stop] at kept
        simpa using kept
      rw [stop, same] at whole
      conv_lhs => rw [← whole]
      rw [List.tail_cons, words_append_delimiter, words_of_clean nonempty clean]
      rfl

/-- `strtok` takes the words one by one. -/
theorem words_eq_strtok (delimiter : Byte) (text : List Byte) :
    words delimiter text =
      (strtok delimiter text).elim [] fun found => found.1 :: words delimiter found.2 := by
  induction text with
  | nil => exact words_nil delimiter
  | cons byte text ih =>
      by_cases blank : byte = delimiter
      · subst blank
        rw [strtok_delimiter_cons, words_delimiter_cons]
        exact ih
      · rw [strtok_cons_of_ne blank]
        exact words_cons_of_ne blank text

/-- The tokens are the words. -/
theorem tokens_eq_words (delimiter : Byte) (text : List Byte) :
    tokens delimiter text = words delimiter text := by
  induction text using tokens.induct delimiter with
  | case1 text found =>
      rw [words_eq_strtok, found, tokens]
      split
      · rfl
      · rename_i some_
        cases found.symm.trans some_
  | case2 text token rest found ih =>
      rw [words_eq_strtok, found, tokens]
      split
      · rename_i none_
        cases found.symm.trans none_
      · rename_i other
        cases found.symm.trans other
        exact congrArg (token :: ·) ih

/-- A text is without delimiters, or it has a last one. -/
theorem exists_last (delimiter : Byte) (text : List Byte) : delimiter ∉ text ∨
    ∃ first last, text = first ++ delimiter :: last ∧ delimiter ∉ last := by
  induction text with
  | nil => exact .inl List.not_mem_nil
  | cons byte text ih =>
      rcases ih with clean | ⟨first, last, rfl, clean⟩
      · by_cases blank : byte = delimiter
        · exact .inr ⟨[], text, by rw [blank, List.nil_append], clean⟩
        · exact .inl (List.not_mem_cons_of_ne_of_not_mem (Ne.symm blank) clean)
      · exact .inr ⟨byte :: first, last, rfl, clean⟩

/-- Where two texts meet at a delimiter, or one is empty, no word reaches across. -/
def Parted (delimiter : Byte) (first second : List Byte) : Prop :=
  ∀ before ∈ first.getLast?, ∀ behind ∈ second.head?, before = delimiter ∨ behind = delimiter

/-- The words of two texts that meet at a delimiter are those of the one and the other. -/
theorem words_append {first second : List Byte} (parted : Parted delimiter first second) :
    words delimiter (first ++ second) = words delimiter first ++ words delimiter second := by
  induction first using List.reverseRecOn with
  | nil => rw [words_nil, List.nil_append, List.nil_append]
  | append_singleton first before =>
      cases second with
      | nil => rw [words_nil, List.append_nil, List.append_nil]
      | cons behind second =>
          rcases parted before (by simp) behind rfl with rfl | rfl
          · rw [List.append_assoc, List.singleton_append, words_append_delimiter,
              words_append_delimiter, words_nil, List.append_nil]
          · rw [words_append_delimiter, words_delimiter_cons]

/-- A word that goes on at the start of a text changes no number of words. -/
theorem length_words_clean_append {start text : List Byte} {byte : Byte}
    (nonempty : start ≠ []) (clean : delimiter ∉ start) (other : byte ≠ delimiter) :
    (words delimiter (start ++ byte :: text)).length = (words delimiter (byte :: text)).length := by
  obtain ⟨first, start, rfl⟩ := List.exists_cons_of_ne_nil nonempty
  have differs : first ≠ delimiter := fun same => clean (same ▸ List.mem_cons_self)
  have rest : (first :: start ++ byte :: text).dropWhile (· != delimiter) =
      (byte :: text).dropWhile (· != delimiter) :=
    List.dropWhile_append_of_pos fun letter member =>
      bne_iff_ne.mpr fun same => clean (same ▸ member)
  rw [List.cons_append] at rest ⊢
  rw [words_cons_of_ne differs, words_cons_of_ne other, rest, List.length_cons, List.length_cons]

/-- Where a word reaches across, two words are counted for one. -/
theorem length_words_append {first second : List Byte} (joined : ¬ Parted delimiter first second) :
    (words delimiter first).length + (words delimiter second).length =
      (words delimiter (first ++ second)).length + 1 := by
  simp only [Parted, not_forall, not_or] at joined
  obtain ⟨before, last, behind, next, letter, other⟩ := joined
  obtain ⟨second, rfl⟩ := List.head?_eq_some_iff.mp next
  rcases exists_last delimiter first with clean | ⟨front, word, rfl, clean⟩
  · have nonempty : first ≠ [] := by
      rintro rfl
      cases last
    rw [words_of_clean nonempty clean, length_words_clean_append nonempty clean other,
      List.length_singleton, Nat.add_comm]
  · have nonempty : word ≠ [] := by
      rintro rfl
      rw [List.getLast?_concat] at last
      exact letter (Option.some.inj last).symm
    rw [List.append_assoc, List.cons_append, words_append_delimiter, words_append_delimiter,
      words_of_clean nonempty clean, List.length_append, List.length_append,
      length_words_clean_append nonempty clean other, List.length_singleton]
    omega

/-- The words of a text behind words with a delimiter each. -/
theorem words_flatMap_append {segments : List (List Byte)}
    (proper : ∀ segment ∈ segments, segment ≠ [] ∧ delimiter ∉ segment) (text : List Byte) :
    words delimiter (segments.flatMap (· ++ [delimiter]) ++ text) =
      segments ++ words delimiter text := by
  induction segments with
  | nil => rfl
  | cons segment segments ih =>
      obtain ⟨nonempty, clean⟩ := proper segment List.mem_cons_self
      rw [List.flatMap_cons, List.append_assoc, List.append_assoc, List.singleton_append,
        words_append_delimiter, words_of_clean nonempty clean,
        ih fun other member => proper other (List.mem_cons_of_mem _ member)]
      rfl

variable {α : Type} {separator : α} {word left right : List α}

theorem eq_nil_of_prefix_separator (clean : separator ∉ word)
    (starts : word <+: separator :: right) : word = [] := by
  cases word with
  | nil => rfl
  | cons first word =>
      obtain ⟨rfl, -⟩ := List.cons_prefix_cons.mp starts
      exact absurd List.mem_cons_self clean

/-- A word without the separator does not reach across one. -/
theorem infix_of_separated (clean : separator ∉ word)
    (inside : word <:+: left ++ separator :: right) : word <:+: left ∨ word <:+: right := by
  rcases List.infix_append_iff.mp inside with before | behind | ⟨start, stop, rfl, ends, starts⟩
  · exact .inl before
  · rcases List.infix_cons_iff.mp behind with starts | later
    · exact .inl (eq_nil_of_prefix_separator clean starts ▸ List.nil_infix)
    · exact .inr later
  · have none := eq_nil_of_prefix_separator
      (fun member => clean (List.mem_append_right _ member)) starts
    rw [none, List.append_nil]
    exact .inl ends.isInfix

/-- A word without the separator that occurs in separated segments occurs in one of them. -/
theorem exists_infix_segment (clean : separator ∉ word) (nonempty : word ≠ [])
    {segments : List (List α)} (inside : word <:+: segments.flatMap (· ++ [separator])) :
    ∃ segment ∈ segments, word <:+: segment := by
  induction segments with
  | nil => exact absurd (List.eq_nil_of_infix_nil inside) nonempty
  | cons head segments ih =>
      rw [List.flatMap_cons, List.append_assoc, List.singleton_append] at inside
      rcases infix_of_separated clean inside with here | later
      · exact ⟨head, List.mem_cons_self, here⟩
      · obtain ⟨segment, member, occurs⟩ := ih later
        exact ⟨segment, List.mem_cons_of_mem _ member, occurs⟩

end Tokens

import LinuxUnix.Foundation.CMemory
import Mathlib.Data.Int.Init
import Mathlib.Data.List.TakeWhile

/-! # The words of a request line

`GetToken` walks over an array, skips separators, and copies the bytes of a word to
`token` until the next separator. It does not stop at the NUL of the string in the
array: the NUL is one of the separators. A run that leaves one of the two arrays
has no result. Where the string has enough words and `toklen` does not exceed the
array, the word that it asks for is stored with its NUL, if it is shorter than
`toklen` (`LinuxUnix.HttpServer.getToken_words`); a longer word fills the array
without a NUL (`LinuxUnix.HttpServer.getToken_unterminated`).
-/

namespace LinuxUnix.HttpServer

open CMemory

/-- What both loops of `GetToken` compare a byte with. -/
def isSeparator (delim byte : Byte) : Bool :=
  byte == delim || byte == 32 || byte == 0 || byte == 9 || byte == 13 || byte == 10

/-- A store to an array. -/
def store (memory : List Byte) (index : ℕ) (byte : Byte) : Option (List Byte) :=
  if index < memory.length then some (memory.set index byte) else none

/-- The first loop: what the array holds from the first byte on that is not a
separator. -/
def skipSeparators (delim : Byte) : List Byte → Option (List Byte)
  | [] => none
  | byte :: rest =>
      if isSeparator delim byte then skipSeparators delim rest else some (byte :: rest)

/-- How the second loop ends. -/
inductive Copied
  /-- `len > toklen - 1` -/
  | full (token : List Byte)
  /-- at a separator -/
  | ended (rest token : List Byte) (len : ℕ)

/-- The second loop. -/
def copyToken (delim : Byte) (toklen : ℕ) : List Byte → List Byte → ℕ → Option Copied
  | [], _, _ => none
  | byte :: rest, token, len =>
      if isSeparator delim byte then some (.ended (byte :: rest) token len)
      else (store token len byte).bind fun token =>
        if toklen - 1 < len + 1 then some (.full token)
        else copyToken delim toklen rest token (len + 1)

/-- The outer loop, with the number of words still to be read. -/
def tokenLoop (delim : Byte) (toklen : ℕ) :
    ℕ → List Byte → List Byte → ℤ → Option (ℤ × List Byte)
  | 0, _, token, len => some (len, token)
  | count + 1, rest, token, _ =>
      (store token 0 0).bind fun token =>
        (skipSeparators delim rest).bind fun rest =>
          (copyToken delim toklen rest token 0).bind fun copied =>
            match copied with
            | .full token => some (-1, token)
            | .ended rest token len => (store token len 0).bind fun token =>
                tokenLoop delim toklen count rest token len

/-- The result of `GetToken` and what it leaves in `token`. -/
def getToken (buf : List Byte) (n : ℕ) (token : List Byte) (toklen : ℕ) (delim : Byte) :
    Option (ℤ × List Byte) :=
  tokenLoop delim toklen n buf token 0

/-- The first word of a text. -/
def firstWord (delim : Byte) (text : List Byte) : List Byte :=
  (text.dropWhile (isSeparator delim)).takeWhile fun byte => !isSeparator delim byte

/-- What follows the first word of a text. -/
def afterWord (delim : Byte) (text : List Byte) : List Byte :=
  (text.dropWhile (isSeparator delim)).dropWhile fun byte => !isSeparator delim byte

/-- The words of a text, counted from zero; behind the last one they are empty. -/
def word (delim : Byte) (text : List Byte) : ℕ → List Byte
  | 0 => firstWord delim text
  | index + 1 => word delim (afterWord delim text) index

/-- What a call of `GetToken` needs: a string with `n` words, and an array of
`toklen` bytes. -/
def Needs (buf : List Byte) (n : ℕ) (token : List Byte) (toklen : ℕ) (delim : Byte) : Prop :=
  0 ∈ buf ∧ (∀ index < n, word delim (cstr buf) index ≠ []) ∧ toklen ≤ token.length

instance (buf : List Byte) (n : ℕ) (token : List Byte) (toklen : ℕ) (delim : Byte) :
    Decidable (Needs buf n token toklen delim) :=
  inferInstanceAs (Decidable (_ ∧ _ ∧ _))

variable {delim : Byte} {toklen : ℕ}

theorem isSeparator_zero (delim : Byte) : isSeparator delim 0 = true := by
  simp only [isSeparator, beq_self_eq_true, Bool.or_true, Bool.true_or]

/-- No word holds a separator. -/
theorem not_isSeparator_of_mem {text : List Byte} {byte : Byte}
    (member : byte ∈ firstWord delim text) : isSeparator delim byte = false := by
  have kept := List.mem_takeWhile_imp member
  simpa only [Bool.not_eq_true'] using kept

theorem zero_not_mem_firstWord (delim : Byte) (text : List Byte) : 0 ∉ firstWord delim text := by
  intro member
  cases (isSeparator_zero delim).symm.trans (not_isSeparator_of_mem member)

/-- A text starts with separators, goes on with its first word, and then with the
rest. -/
theorem dropWhile_eq_firstWord_append (delim : Byte) (text : List Byte) :
    text.dropWhile (isSeparator delim) = firstWord delim text ++ afterWord delim text :=
  (List.takeWhile_append_dropWhile ..).symm

/-- A byte that is not a separator starts a word. -/
theorem firstWord_ne_nil {first : Byte} (start : isSeparator delim first = false)
    (rest : List Byte) : firstWord delim (first :: rest) ≠ [] := by
  rw [firstWord, List.dropWhile_cons_of_neg (Bool.not_eq_true _ ▸ start),
    List.takeWhile_cons_of_pos (by simpa using start)]
  exact List.cons_ne_nil _ _

/-- A word goes up to the next separator. -/
theorem firstWord_append {next : Byte} {chars rest : List Byte} (nonempty : chars ≠ [])
    (kept : ∀ byte ∈ chars, isSeparator delim byte = false)
    (separator : isSeparator delim next = true) :
    firstWord delim (chars ++ next :: rest) = chars ∧
      afterWord delim (chars ++ next :: rest) = next :: rest := by
  obtain ⟨first, more, rfl⟩ := List.exists_cons_of_ne_nil nonempty
  have start : isSeparator delim first = false := kept first List.mem_cons_self
  rw [firstWord, afterWord, List.cons_append,
    List.dropWhile_cons_of_neg (Bool.not_eq_true _ ▸ start), ← List.cons_append]
  constructor
  · rw [List.takeWhile_append_of_pos (by simpa using kept),
      List.takeWhile_cons_of_neg (by simpa using separator), List.append_nil]
  · rw [List.dropWhile_append_of_pos (by simpa using kept),
      List.dropWhile_cons_of_neg (by simpa using separator)]

/-- Separators before a text do not change its first word. -/
theorem firstWord_separators_append {seps : List Byte}
    (all : ∀ byte ∈ seps, isSeparator delim byte = true) (text : List Byte) :
    firstWord delim (seps ++ text) = firstWord delim text := by
  rw [firstWord, List.dropWhile_append_of_pos all, firstWord]

/-- Separators behind a text do not change its first word, and stay behind the rest. -/
theorem firstWord_append_separators {seps text : List Byte}
    (all : ∀ byte ∈ seps, isSeparator delim byte = true)
    (started : text.dropWhile (isSeparator delim) ≠ []) :
    firstWord delim (text ++ seps) = firstWord delim text ∧
      afterWord delim (text ++ seps) = afterWord delim text ++ seps := by
  have stop : ∀ long : 0 < seps.length, ¬ (!isSeparator delim seps[0]) = true := by
    intro long
    rw [all _ (List.getElem_mem long)]
    decide
  have taken : seps.takeWhile (fun byte => !isSeparator delim byte) = [] :=
    List.takeWhile_eq_nil_iff.mpr stop
  have dropped : seps.dropWhile (fun byte => !isSeparator delim byte) = seps :=
    List.dropWhile_eq_self_iff.mpr stop
  have skipped : (text ++ seps).dropWhile (isSeparator delim) =
      text.dropWhile (isSeparator delim) ++ seps := by
    rw [List.dropWhile_append, if_neg (by rwa [List.isEmpty_iff])]
  constructor
  · rw [firstWord, skipped, List.takeWhile_append, taken, List.append_nil]
    split
    · rename_i full
      exact ((List.takeWhile_prefix _).eq_of_length full).symm
    · rfl
  · rw [afterWord, skipped, List.dropWhile_append, dropped]
    split
    · rename_i empty
      rw [afterWord, List.isEmpty_iff.mp empty, List.nil_append]
    · rfl

/-- Separators behind a text do not change its words. -/
theorem word_append_separators {seps : List Byte}
    (all : ∀ byte ∈ seps, isSeparator delim byte = true) (index : ℕ) :
    ∀ text, word delim (text ++ seps) index = word delim text index := by
  have skipped : ∀ text : List Byte, text.dropWhile (isSeparator delim) = [] →
      (text ++ seps).dropWhile (isSeparator delim) = [] := by
    intro text wordless
    rw [List.dropWhile_append, wordless, List.isEmpty_nil, if_pos rfl]
    exact List.dropWhile_eq_nil_iff.mpr all
  induction index with
  | zero =>
      intro text
      by_cases wordless : text.dropWhile (isSeparator delim) = []
      · rw [word, word, firstWord, firstWord, skipped text wordless, wordless]
      · exact (firstWord_append_separators all wordless).1
  | succ index ih =>
      intro text
      by_cases wordless : text.dropWhile (isSeparator delim) = []
      · rw [word, word, afterWord, afterWord, skipped text wordless, wordless]
      · rw [word, word, (firstWord_append_separators all wordless).2, ih]

/-- What follows a word, up to the end of the array, starts with a separator. -/
theorem afterWord_append_zero (delim : Byte) (text junk : List Byte) :
    ∃ byte rest, afterWord delim text ++ 0 :: junk = byte :: rest ∧
      isSeparator delim byte = true := by
  cases after : afterWord delim text with
  | nil => exact ⟨0, junk, rfl, isSeparator_zero delim⟩
  | cons byte rest =>
      have stopped := List.head?_dropWhile_not (fun byte => !isSeparator delim byte)
        (text.dropWhile (isSeparator delim))
      rw [← afterWord, after] at stopped
      exact ⟨byte, rest ++ 0 :: junk, rfl, by simpa using stopped⟩

/-- The first loop stops at the first word. -/
theorem skipSeparators_append {text : List Byte} (tail : List Byte)
    (nonempty : firstWord delim text ≠ []) :
    skipSeparators delim (text ++ tail) =
      some (firstWord delim text ++ (afterWord delim text ++ tail)) := by
  rw [← List.append_assoc, ← dropWhile_eq_firstWord_append]
  induction text with
  | nil => exact absurd rfl nonempty
  | cons byte text ih =>
      by_cases separator : isSeparator delim byte = true
      · have same : firstWord delim (byte :: text) = firstWord delim text := by
          rw [firstWord, List.dropWhile_cons_of_pos separator, firstWord]
        rw [List.cons_append, skipSeparators, if_pos separator,
          List.dropWhile_cons_of_pos separator]
        exact ih (by rwa [← same])
      · rw [List.cons_append, skipSeparators, if_neg separator,
          List.dropWhile_cons_of_neg separator, List.cons_append]

/-- The second loop copies a word that fits. -/
theorem copyToken_fits {chars : List Byte} : ∀ {token : List Byte} {len : ℕ} {next : Byte}
    {rest : List Byte}, (∀ byte ∈ chars, isSeparator delim byte = false) →
      isSeparator delim next = true → len + chars.length < toklen →
      len + chars.length ≤ token.length →
      copyToken delim toklen (chars ++ next :: rest) token len =
        some (.ended (next :: rest) (overwrite token len chars) (len + chars.length)) := by
  induction chars with
  | nil =>
      intro token len next rest _ separator _ _
      rw [List.nil_append, copyToken, if_pos separator, overwrite_nil]
      rfl
  | cons byte chars ih =>
      intro token len next rest clean separator short room
      rw [List.length_cons] at short room
      have kept : isSeparator delim byte = false := clean byte List.mem_cons_self
      have size : (overwrite token len [byte]).length = token.length :=
        length_overwrite (by rw [List.length_singleton]; omega)
      rw [List.cons_append, copyToken, if_neg (Bool.not_eq_true _ ▸ kept), store,
        if_pos (by omega), Option.bind_some, if_neg (by omega), set_eq_overwrite (by omega),
        ih (fun other member => clean other (List.mem_cons_of_mem _ member)) separator (by omega)
          (by omega)]
      have last : len + 1 + chars.length = len + (chars.length + 1) := by omega
      have stored : overwrite (overwrite token len [byte]) (len + 1) chars =
          overwrite token len (byte :: chars) := overwrite_append (by omega) chars
      rw [last, List.length_cons, stored]

/-- The second loop stops in the middle of a word that does not fit, and leaves no
NUL in the part that it filled. -/
theorem copyToken_full {chars : List Byte} : ∀ {token : List Byte} {len : ℕ} {tail : List Byte},
    (∀ byte ∈ chars, isSeparator delim byte = false) → len < toklen →
      toklen ≤ len + chars.length → toklen ≤ token.length →
      copyToken delim toklen (chars ++ tail) token len =
        some (.full (overwrite token len (chars.take (toklen - len)))) := by
  induction chars with
  | nil =>
      intro token len tail _ short large _
      rw [List.length_nil] at large
      omega
  | cons byte chars ih =>
      intro token len tail clean short large room
      rw [List.length_cons] at large
      have kept : isSeparator delim byte = false := clean byte List.mem_cons_self
      have next : toklen - len = toklen - (len + 1) + 1 := by omega
      rw [List.cons_append, copyToken, if_neg (Bool.not_eq_true _ ▸ kept), store,
        if_pos (by omega), Option.bind_some, set_eq_overwrite (by omega), next,
        List.take_succ_cons]
      by_cases last : toklen = len + 1
      · rw [if_pos (by omega), last, Nat.sub_self, List.take_zero]
      · have size : (overwrite token len [byte]).length = token.length :=
          length_overwrite (by rw [List.length_singleton]; omega)
        have stored : overwrite (overwrite token len [byte]) (len + 1)
            (chars.take (toklen - (len + 1))) =
            overwrite token len (byte :: chars.take (toklen - (len + 1))) :=
          overwrite_append (by omega) _
        rw [if_neg (by omega), ih (fun other member => clean other (List.mem_cons_of_mem _ member))
          (by omega) (by omega) (by omega), stored]

/-- One round of the outer loop, on a word that fits. -/
theorem tokenLoop_fits {text junk token : List Byte} {count : ℕ} {len : ℤ}
    (nonempty : firstWord delim text ≠ []) (short : (firstWord delim text).length < toklen)
    (room : (firstWord delim text).length < token.length) :
    tokenLoop delim toklen (count + 1) (text ++ 0 :: junk) token len =
      tokenLoop delim toklen count (afterWord delim text ++ 0 :: junk)
        (overwrite token 0 (firstWord delim text ++ [0])) (firstWord delim text).length := by
  have long := List.length_pos_iff.mpr nonempty
  obtain ⟨next, rest, after, separator⟩ := afterWord_append_zero delim text junk
  have size : (overwrite token 0 (firstWord delim text)).length = token.length :=
    length_overwrite (by omega)
  have stored : overwrite (overwrite token 0 (firstWord delim text))
      (firstWord delim text).length [0] = overwrite token 0 (firstWord delim text ++ [0]) := by
    rw [← overwrite_append (Nat.zero_le _), Nat.zero_add]
  rw [tokenLoop, store, if_pos (by omega), Option.bind_some, skipSeparators_append _ nonempty,
    Option.bind_some, after, copyToken_fits (fun _ => not_isSeparator_of_mem) separator
      (by omega) (by rw [List.length_set]; omega), Option.bind_some,
    overwrite_set_zero nonempty]
  simp only [Nat.zero_add]
  rw [store, if_pos (by omega), Option.bind_some, set_eq_overwrite (by omega), stored]

/-- The outer loop ends at a word that does not fit. -/
theorem tokenLoop_full {text junk token : List Byte} {count : ℕ} {len : ℤ}
    (nonempty : firstWord delim text ≠ []) (large : toklen ≤ (firstWord delim text).length)
    (positive : 0 < toklen) (room : toklen ≤ token.length) :
    tokenLoop delim toklen (count + 1) (text ++ 0 :: junk) token len =
      some (-1, overwrite token 0 ((firstWord delim text).take toklen)) := by
  have some_ : (firstWord delim text).take toklen ≠ [] := by
    rw [ne_eq, List.take_eq_nil_iff, not_or]
    exact ⟨positive.ne', nonempty⟩
  rw [tokenLoop, store, if_pos (by omega), Option.bind_some, skipSeparators_append _ nonempty,
    Option.bind_some, copyToken_full (fun _ => not_isSeparator_of_mem) positive (by omega)
      (by rw [List.length_set]; omega), Option.bind_some, Nat.sub_zero, overwrite_set_zero some_]

/-- The words that the outer loop goes through. -/
theorem tokenLoop_words (count : ℕ) : ∀ {text junk token : List Byte} {len : ℤ},
    (∀ index ≤ count, word delim text index ≠ []) →
      (∀ index ≤ count, (word delim text index).length < toklen ∧
        (word delim text index).length < token.length) →
      ∃ stored, tokenLoop delim toklen (count + 1) (text ++ 0 :: junk) token len =
          some (((word delim text count).length : ℤ), stored) ∧ stored.length = token.length ∧
        0 ∈ stored ∧ cstr stored = word delim text count := by
  induction count with
  | zero =>
      intro text junk token len words fits
      have first := fits 0 (Nat.le_refl 0)
      refine ⟨_, tokenLoop_fits (words 0 (Nat.le_refl 0)) first.1 first.2, ?_,
        zero_mem_overwrite .., ?_⟩
      · apply length_overwrite
        rw [List.length_append, List.length_singleton, Nat.zero_add]
        exact first.2
      · rw [cstr_overwrite]
        exact cstr_eq_self (zero_not_mem_firstWord delim text)
  | succ count ih =>
      intro text junk token len words fits
      have first := fits 0 (Nat.zero_le _)
      have size : (overwrite token 0 (firstWord delim text ++ [0])).length = token.length := by
        apply length_overwrite
        rw [List.length_append, List.length_singleton, Nat.zero_add]
        exact first.2
      rw [tokenLoop_fits (words 0 (Nat.zero_le _)) first.1 first.2, ← size]
      apply ih
      · exact fun index small => words (index + 1) (Nat.succ_le_succ small)
      · rw [size]
        exact fun index small => fits (index + 1) (Nat.succ_le_succ small)

/-- An array that is filled with a part of a word holds no NUL. -/
theorem zero_not_mem_full {token text : List Byte}
    (large : token.length ≤ (firstWord delim text).length) :
    (overwrite token 0 ((firstWord delim text).take token.length)).length = token.length ∧
      0 ∉ overwrite token 0 ((firstWord delim text).take token.length) := by
  refine ⟨length_overwrite (by rw [List.length_take_of_le large, Nat.zero_add]), ?_⟩
  have behind : token.drop (0 + ((firstWord delim text).take token.length).length) = [] := by
    rw [List.length_take_of_le large, Nat.zero_add, List.drop_length]
  rw [overwrite, List.take_zero, List.nil_append, behind, List.append_nil]
  exact fun member => zero_not_mem_firstWord delim text (List.mem_of_mem_take member)

/-- Without room for one of the words, the array is left without a NUL. -/
theorem tokenLoop_unterminated (count : ℕ) : ∀ {text junk token : List Byte} {len : ℤ},
    (∀ index ≤ count, word delim text index ≠ []) → 0 < token.length →
      (∃ index ≤ count, token.length ≤ (word delim text index).length) →
      ∃ stored, tokenLoop delim token.length (count + 1) (text ++ 0 :: junk) token len =
        some (-1, stored) ∧ stored.length = token.length ∧ 0 ∉ stored := by
  induction count with
  | zero =>
      intro text junk token len words positive large
      obtain ⟨index, first, large⟩ := large
      cases Nat.le_zero.mp first
      exact ⟨_, tokenLoop_full (words 0 (Nat.le_refl 0)) large positive (Nat.le_refl _),
        zero_not_mem_full large⟩
  | succ count ih =>
      intro text junk token len words positive large
      by_cases first : token.length ≤ (firstWord delim text).length
      · exact ⟨_, tokenLoop_full (words 0 (Nat.zero_le _)) first positive (Nat.le_refl _),
          zero_not_mem_full first⟩
      · obtain ⟨index, small, large⟩ := large
        cases index with
        | zero => exact absurd large first
        | succ index =>
            have size : (overwrite token 0 (firstWord delim text ++ [0])).length =
                token.length := by
              apply length_overwrite
              rw [List.length_append, List.length_singleton]
              omega
            rw [tokenLoop_fits (words 0 (Nat.zero_le _)) (by omega) (by omega), ← size]
            apply ih
            · exact fun index small => words (index + 1) (Nat.succ_le_succ small)
            · rwa [size]
            · rw [size]
              exact ⟨index, Nat.le_of_succ_le_succ small, large⟩

variable {buf token : List Byte}

/-- `GetToken` stores the word that it is asked for. -/
theorem getToken_words (count : ℕ) (terminated : 0 ∈ buf)
    (words : ∀ index ≤ count, word delim (cstr buf) index ≠ [])
    (fits : ∀ index ≤ count, (word delim (cstr buf) index).length < toklen ∧
      (word delim (cstr buf) index).length < token.length) :
    ∃ stored, getToken buf (count + 1) token toklen delim =
        some (((word delim (cstr buf) count).length : ℤ), stored) ∧
      stored.length = token.length ∧ 0 ∈ stored ∧ cstr stored = word delim (cstr buf) count := by
  obtain ⟨junk, split⟩ := eq_cstr_append terminated
  have found := @tokenLoop_words delim toklen count (cstr buf) junk token 0 words fits
  rwa [← split] at found

/-- A word as long as the array, or longer, leaves the array without a NUL. -/
theorem getToken_unterminated (count : ℕ) (terminated : 0 ∈ buf)
    (words : ∀ index ≤ count, word delim (cstr buf) index ≠ []) (positive : 0 < token.length)
    (large : ∃ index ≤ count, token.length ≤ (word delim (cstr buf) index).length) :
    ∃ stored, getToken buf (count + 1) token token.length delim = some (-1, stored) ∧
      stored.length = token.length ∧ 0 ∉ stored := by
  obtain ⟨junk, split⟩ := eq_cstr_append terminated
  have found := @tokenLoop_unterminated delim count (cstr buf) junk token 0 words positive large
  rwa [← split] at found

/-- Where there is no word, the first loop runs past the end. -/
theorem skipSeparators_none {memory : List Byte}
    (all : ∀ byte ∈ memory, isSeparator delim byte = true) :
    skipSeparators delim memory = none := by
  induction memory with
  | nil => rfl
  | cons byte memory ih =>
      rw [skipSeparators, if_pos (all byte List.mem_cons_self)]
      exact ih fun other member => all other (List.mem_cons_of_mem _ member)

/-- A text without a first word holds separators only. -/
theorem isSeparator_of_firstWord {text : List Byte} (wordless : firstWord delim text = []) :
    ∀ byte ∈ text, isSeparator delim byte = true := by
  induction text with
  | nil => nofun
  | cons first text ih =>
      have separator : isSeparator delim first = true := by
        by_contra other
        rw [firstWord, List.dropWhile_cons_of_neg other,
          List.takeWhile_cons_of_pos (by simpa using other)] at wordless
        cases wordless
      rw [firstWord, List.dropWhile_cons_of_pos separator] at wordless
      intro byte member
      rcases List.mem_cons.mp member with rfl | later
      · exact separator
      · exact ih wordless byte later

/-- The second loop runs past the array if a word does not fit and `toklen` does not stop it. -/
theorem copyToken_none {chars : List Byte} : ∀ {token : List Byte} {len : ℕ} {tail : List Byte},
    (∀ byte ∈ chars, isSeparator delim byte = false) → token.length < toklen →
      len ≤ token.length → token.length < len + chars.length →
      copyToken delim toklen (chars ++ tail) token len = none := by
  induction chars with
  | nil =>
      intro token len tail _ _ inside large
      rw [List.length_nil] at large
      omega
  | cons byte chars ih =>
      intro token len tail clean short inside large
      rw [List.length_cons] at large
      have kept : isSeparator delim byte = false := clean byte List.mem_cons_self
      rw [List.cons_append, copyToken, if_neg (Bool.not_eq_true _ ▸ kept), store]
      by_cases room : len < token.length
      · rw [if_pos room, Option.bind_some, if_neg (by omega)]
        refine ih (fun other member => clean other (List.mem_cons_of_mem _ member)) ?_ ?_ ?_ <;>
          rw [List.length_set] <;> omega
      · rw [if_neg room, Option.bind_none]

/-- A word that does not fit with its NUL runs past the array. -/
theorem tokenLoop_none {text junk token : List Byte} {count : ℕ} {len : ℤ}
    (nonempty : firstWord delim text ≠ []) (short : token.length < toklen)
    (large : token.length ≤ (firstWord delim text).length) :
    tokenLoop delim toklen (count + 1) (text ++ 0 :: junk) token len = none := by
  obtain ⟨next, rest, after, separator⟩ := afterWord_append_zero delim text junk
  rw [tokenLoop, Option.bind_eq_none_iff]
  intro started storing
  have size : started.length = token.length := by
    rw [store, Option.ite_none_right_eq_some, Option.some.injEq] at storing
    rw [← storing.2, List.length_set]
  rw [skipSeparators_append _ nonempty, Option.bind_some, after]
  rcases Nat.eq_or_lt_of_le large with full | beyond
  · -- the last byte of the array is taken by the word, and the NUL goes behind it
    have length : (overwrite started 0 (firstWord delim text)).length = started.length :=
      length_overwrite (by omega)
    rw [copyToken_fits (fun _ => not_isSeparator_of_mem) separator (by omega) (by omega),
      Option.bind_some]
    simp only [Nat.zero_add]
    rw [store, if_neg (by omega), Option.bind_none]
  · rw [copyToken_none (fun _ => not_isSeparator_of_mem) (by omega) (Nat.zero_le _) (by omega),
      Option.bind_none]

/-- Where there is no word the outer loop does not come to an end. -/
theorem tokenLoop_wordless {text junk token : List Byte} {count : ℕ} {len : ℤ}
    (wordless : firstWord delim (text ++ 0 :: junk) = []) :
    tokenLoop delim toklen (count + 1) (text ++ 0 :: junk) token len = none := by
  rw [tokenLoop, Option.bind_eq_none_iff]
  intro started _
  rw [skipSeparators_none (isSeparator_of_firstWord wordless), Option.bind_none]

/-- Zeros behind a text do not change its words. -/
theorem word_append_zeros (text : List Byte) (zeros index : ℕ) :
    word delim (text ++ List.replicate zeros 0) index = word delim text index :=
  word_append_separators (fun byte member =>
    (List.eq_of_mem_replicate member : byte = 0) ▸ isSeparator_zero delim) index text

/-- If the outer loop comes to an end, its first word is there and fits with its NUL. -/
theorem fits_of_tokenLoop {text token : List Byte} {count zeros : ℕ} {len : ℤ}
    {found : ℤ × List Byte} (short : token.length < toklen)
    (finds : tokenLoop delim toklen (count + 1) (text ++ 0 :: List.replicate zeros 0) token len =
      some found) : firstWord delim text ≠ [] ∧ (firstWord delim text).length < token.length := by
  have nonempty : firstWord delim text ≠ [] := by
    intro wordless
    have wordless' : firstWord delim (text ++ 0 :: List.replicate zeros 0) = [] :=
      (word_append_zeros text (zeros + 1) 0).trans wordless
    rw [tokenLoop_wordless wordless'] at finds
    cases finds
  refine ⟨nonempty, Nat.lt_of_not_le fun large => ?_⟩
  rw [tokenLoop_none nonempty short large] at finds
  cases finds

/-- Whatever the outer loop stores, it is the word that it is asked for, if nothing stands behind
the string and `toklen` does not stop the second loop. -/
theorem cstr_of_tokenLoop (count : ℕ) : ∀ {text token stored : List Byte} {len result : ℤ}
    {zeros : ℕ}, token.length < toklen →
      tokenLoop delim toklen (count + 1) (text ++ 0 :: List.replicate zeros 0) token len =
        some (result, stored) → cstr stored = word delim text count := by
  induction count with
  | zero =>
      intro text token stored len result zeros short found
      have fits := fits_of_tokenLoop short found
      rw [tokenLoop_fits fits.1 (by omega) fits.2, tokenLoop] at found
      cases found
      rw [cstr_overwrite, cstr_eq_self (zero_not_mem_firstWord delim text)]
      rfl
  | succ count ih =>
      intro text token stored len result zeros short found
      have fits := fits_of_tokenLoop short found
      have size : (overwrite token 0 (firstWord delim text ++ [0])).length = token.length := by
        apply length_overwrite
        rw [List.length_append, List.length_singleton, Nat.zero_add]
        exact fits.2
      rw [tokenLoop_fits fits.1 (by omega) fits.2] at found
      exact ih (size ▸ short) found

/-- If the first word of an array is missing, or does not fit, then the outer loop runs past the
array, or leaves `token` without a NUL. -/
theorem tokenLoop_fails_first {text token : List Byte} {count : ℕ} {len : ℤ}
    (positive : 0 < token.length) (unfit : ¬ (firstWord delim text ≠ [] ∧
      (firstWord delim text).length < token.length)) :
    tokenLoop delim token.length (count + 1) (text ++ [0]) token len = none ∨
      ∃ stored, tokenLoop delim token.length (count + 1) (text ++ [0]) token len =
        some (-1, stored) ∧ 0 ∉ stored := by
  by_cases wordless : firstWord delim text = []
  · left
    apply tokenLoop_wordless
    exact (word_append_zeros text 1 0).trans wordless
  · right
    have large := Nat.le_of_not_lt fun short => unfit ⟨wordless, short⟩
    exact ⟨_, tokenLoop_full wordless large positive (Nat.le_refl _), (zero_not_mem_full large).2⟩

/-- The same holds for any of the words. -/
theorem tokenLoop_fails (count : ℕ) : ∀ {text token : List Byte} {len : ℤ}, 0 < token.length →
    (¬ ∀ index ≤ count, word delim text index ≠ [] ∧
      (word delim text index).length < token.length) →
    tokenLoop delim token.length (count + 1) (text ++ [0]) token len = none ∨
      ∃ stored, tokenLoop delim token.length (count + 1) (text ++ [0]) token len =
        some (-1, stored) ∧ 0 ∉ stored := by
  induction count with
  | zero =>
      intro text token len positive unfit
      apply tokenLoop_fails_first positive
      intro first
      apply unfit
      intro index start
      cases Nat.le_zero.mp start
      exact first
  | succ count ih =>
      intro text token len positive unfit
      by_cases first : firstWord delim text ≠ [] ∧ (firstWord delim text).length < token.length
      · have size : (overwrite token 0 (firstWord delim text ++ [0])).length = token.length := by
          apply length_overwrite
          rw [List.length_append, List.length_singleton, Nat.zero_add]
          exact first.2
        rw [tokenLoop_fits first.1 first.2 first.2, ← size]
        apply ih
        · rwa [size]
        · intro rest
          apply unfit
          intro index small
          cases index with
          | zero => exact first
          | succ index => exact size ▸ rest index (Nat.le_of_succ_le_succ small)
      · exact tokenLoop_fails_first positive first

end LinuxUnix.HttpServer

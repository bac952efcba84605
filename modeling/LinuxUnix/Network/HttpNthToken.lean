import LinuxUnix.Network.HttpToken

/-! # The token that `GetToken` returns

The tokens of a string are its maximal runs of bytes that are no separators. A call for the
`n`-th one stores the tokens before it in the same array, one after the other; it returns `-1`
at the first of them that does not fit with its NUL, and the length of the `n`-th one if all
fit (`LinuxUnix.HttpServer.getToken_nth`).
-/

namespace LinuxUnix.HttpServer

open CMemory

/-- The tokens of a text. -/
def tokens (delim : Byte) (text : List Byte) : List (List Byte) :=
  (text.splitOnP (isSeparator delim)).filter (!·.isEmpty)

variable {delim : Byte} {text token stored : List Byte} {toklen count : ℕ}

theorem tokens_separator {first : Byte} (separator : isSeparator delim first = true)
    (rest : List Byte) : tokens delim (first :: rest) = tokens delim rest := by
  rw [tokens, List.splitOnP_cons_eq_if_modifyHead, if_pos separator]
  rfl

/-- A run of bytes that are no separators is a token, if it is followed by the end or by a
separator. -/
theorem tokens_run {run rest : List Byte} (nonempty : run ≠ [])
    (kept : ∀ byte ∈ run, isSeparator delim byte = false)
    (ends : ∀ byte ∈ rest.head?, isSeparator delim byte = true) :
    tokens delim (run ++ rest) = run :: tokens delim rest := by
  have here : (!run.isEmpty) = true := by
    rw [Bool.not_eq_true', List.isEmpty_eq_false_iff]
    exact nonempty
  cases rest with
  | nil =>
      rw [List.append_nil, tokens, List.splitOnP_eq_singleton kept, List.filter_cons, if_pos here]
      rfl
  | cons separator rest =>
      have stop := ends separator rfl
      rw [tokens_separator stop, tokens,
        List.splitOnP_append_cons_of_forall_mem kept separator stop, List.filter_cons,
        if_pos here]
      rfl

/-- The first loop does not pass over a token. -/
theorem tokens_dropWhile (text : List Byte) :
    tokens delim (text.dropWhile (isSeparator delim)) = tokens delim text := by
  induction text with
  | nil => rfl
  | cons byte text ih =>
      by_cases separator : isSeparator delim byte = true
      · rw [List.dropWhile_cons_of_pos separator, ih, tokens_separator separator]
      · rw [List.dropWhile_cons_of_neg separator]

/-- What follows a word starts with a separator. -/
theorem isSeparator_of_head_afterWord {byte : Byte}
    (next : byte ∈ (afterWord delim text).head?) : isSeparator delim byte = true := by
  have stopped := List.head?_dropWhile_not (fun byte => !isSeparator delim byte)
    (text.dropWhile (isSeparator delim))
  rw [← afterWord, Option.mem_def.mp next] at stopped
  simpa using stopped

/-- The first token is the first word, and the others are those behind it. -/
theorem tokens_of_firstWord (nonempty : firstWord delim text ≠ []) :
    tokens delim text = firstWord delim text :: tokens delim (afterWord delim text) := by
  rw [← tokens_dropWhile, dropWhile_eq_firstWord_append]
  apply tokens_run nonempty
  · exact fun byte member => not_isSeparator_of_mem member
  · exact fun byte next => isSeparator_of_head_afterWord next

theorem firstWord_of_tokens (some_ : tokens delim text ≠ []) : firstWord delim text ≠ [] := by
  intro wordless
  apply some_
  have skipped : text.dropWhile (isSeparator delim) = [] :=
    List.dropWhile_eq_nil_iff.mpr (isSeparator_of_firstWord wordless)
  rw [← tokens_dropWhile, skipped]
  rfl

/-- What `GetToken` leaves behind when it is asked for the last of some tokens. -/
structure Leaves (wanted : List (List Byte)) (toklen : ℕ) (token stored : List Byte)
    (result : ℤ) : Prop where
  length : stored.length = token.length
  outside : stored.drop toklen = token.drop toklen
  refuses : result = -1 ↔ ∃ word ∈ wanted, toklen ≤ word.length
  found : result ≠ -1 → ∃ word, wanted.getLast? = some word ∧ result = word.length ∧
    stored.take (word.length + 1) = word ++ [0]

/-- A text at the start of an array changes nothing behind it. -/
theorem drop_overwrite_zero {bytes : List Byte} (short : bytes.length ≤ toklen) :
    (overwrite token 0 bytes).drop toklen = token.drop toklen := by
  rw [overwrite, List.take_zero, List.nil_append, Nat.zero_add, List.drop_append,
    List.drop_eq_nil_of_le short, List.nil_append, List.drop_drop, Nat.add_sub_cancel' short]

/-- A text and its NUL at the start of an array. -/
theorem length_overwrite_word {word : List Byte} (short : word.length < token.length) :
    (overwrite token 0 (word ++ [0])).length = token.length := by
  apply length_overwrite
  rw [List.length_append, List.length_singleton, Nat.zero_add]
  exact short

/-- The first token does not fit. -/
theorem leaves_of_large {word : List Byte} {others : List (List Byte)} (large : toklen ≤ word.length)
    (room : toklen ≤ token.length) :
    Leaves (word :: others) toklen token (overwrite token 0 (word.take toklen)) (-1) where
  length := length_overwrite (by rw [List.length_take_of_le large, Nat.zero_add]; exact room)
  outside := drop_overwrite_zero (List.length_take_le ..)
  refuses := iff_of_true rfl ⟨word, List.mem_cons_self, large⟩
  found some_ := absurd rfl some_

/-- The only token that is asked for fits. -/
theorem leaves_of_short {word : List Byte} (short : word.length < toklen)
    (room : toklen ≤ token.length) :
    Leaves [word] toklen token (overwrite token 0 (word ++ [0])) word.length where
  length := length_overwrite_word (by omega)
  outside := drop_overwrite_zero (by rw [List.length_append, List.length_singleton]; exact short)
  refuses := by
    apply iff_of_false (by omega)
    rintro ⟨other, member, large⟩
    rw [List.mem_singleton.mp member] at large
    omega
  found _ := by
    refine ⟨word, rfl, rfl, ?_⟩
    have stored := take_overwrite_zero token (word ++ [0])
    rwa [List.length_append, List.length_singleton] at stored

/-- A token that fits is followed by the others that are asked for. -/
theorem Leaves.cons {word between : List Byte} {others : List (List Byte)} {result : ℤ}
    (leaves : Leaves others toklen between stored result) (some_ : others ≠ [])
    (short : word.length < toklen) (same : between.length = token.length)
    (outside : between.drop toklen = token.drop toklen) :
    Leaves (word :: others) toklen token stored result where
  length := leaves.length.trans same
  outside := leaves.outside.trans outside
  refuses := by
    simp only [leaves.refuses, List.mem_cons, or_and_right, exists_or, exists_eq_left]
    rw [or_iff_right (by omega)]
  found there := by
    rw [List.getLast?_cons_of_ne_nil some_]
    exact leaves.found there

/-- The outer loop goes through the tokens. -/
theorem tokenLoop_leaves (positive : 0 < toklen) (count : ℕ) : ∀ {text token : List Byte} {len : ℤ},
    count < (tokens delim text).length → toklen ≤ token.length →
      ∃ result stored, tokenLoop delim toklen (count + 1) (text ++ [0]) token len =
        some (result, stored) ∧
          Leaves ((tokens delim text).take (count + 1)) toklen token stored result := by
  induction count with
  | zero =>
      intro text token len enough room
      have nonempty := firstWord_of_tokens (List.ne_nil_of_length_pos enough)
      rw [tokens_of_firstWord nonempty, List.take_succ_cons, List.take_zero]
      by_cases short : (firstWord delim text).length < toklen
      · refine ⟨_, _, tokenLoop_fits nonempty short (by omega), ?_⟩
        exact leaves_of_short short room
      · have large := Nat.le_of_not_lt short
        exact ⟨_, _, tokenLoop_full nonempty large positive room, leaves_of_large large room⟩
  | succ count ih =>
      intro text token len enough room
      have nonempty := firstWord_of_tokens (List.ne_nil_of_length_pos (Nat.zero_lt_of_lt enough))
      rw [tokens_of_firstWord nonempty, List.length_cons, Nat.succ_lt_succ_iff] at enough
      rw [tokens_of_firstWord nonempty, List.take_succ_cons]
      by_cases short : (firstWord delim text).length < toklen
      · have same := length_overwrite_word (Nat.lt_of_lt_of_le short room)
        rw [tokenLoop_fits nonempty short (by omega)]
        obtain ⟨result, stored, found, leaves⟩ := ih enough (same.symm ▸ room)
        refine ⟨result, stored, found, leaves.cons ?_ short same ?_⟩
        · rw [ne_eq, List.take_eq_nil_iff, not_or]
          exact ⟨Nat.succ_ne_zero count, List.ne_nil_of_length_pos (Nat.zero_lt_of_lt enough)⟩
        · apply drop_overwrite_zero
          rw [List.length_append, List.length_singleton]
          exact short
      · have large := Nat.le_of_not_lt short
        exact ⟨_, _, tokenLoop_full nonempty large positive room, leaves_of_large large room⟩

/-- `GetToken` on a string with at least `n` tokens reads nothing behind its NUL, which is the
last byte of the array here, and stores nothing behind `token[toklen - 1]`. -/
theorem getToken_nth {n : ℕ} (first : 1 ≤ n) (enough : n ≤ (tokens delim text).length)
    (positive : 1 ≤ toklen) (room : toklen ≤ token.length) :
    ∃ result stored, getToken (text ++ [0]) n token toklen delim = some (result, stored) ∧
      stored.length = token.length ∧ stored.drop toklen = token.drop toklen ∧
      (result = -1 ↔ ∃ word ∈ (tokens delim text).take n, toklen ≤ word.length) ∧
      (result ≠ -1 → ∃ word, (tokens delim text)[n - 1]? = some word ∧ result = word.length ∧
        stored.take (word.length + 1) = word ++ [0]) := by
  obtain ⟨count, rfl⟩ := Nat.exists_eq_succ_of_ne_zero (Nat.one_le_iff_ne_zero.mp first)
  obtain ⟨result, stored, found, leaves⟩ := @tokenLoop_leaves delim toklen positive count text
    token 0 enough room
  refine ⟨result, stored, found, leaves.length, leaves.outside, leaves.refuses, fun there => ?_⟩
  obtain ⟨word, last, length, kept⟩ := leaves.found there
  refine ⟨word, ?_, length, kept⟩
  rw [List.getLast?_take, if_neg (Nat.succ_ne_zero count), Nat.succ_sub_one] at last
  rw [Nat.succ_sub_one]
  have inside := List.getElem?_eq_getElem (Nat.lt_of_succ_le enough)
  rw [inside, Option.some_or] at last
  rw [inside, last]

/-- The second token of `a b`, stored in an array of two bytes. -/
theorem getToken_nth_second :
    ∃ result stored, getToken ([97, 32, 98] ++ [0]) 2 [7, 7] 2 32 = some (result, stored) ∧
      stored.length = 2 ∧ stored.drop 2 = [] ∧
      (result = -1 ↔ ∃ word ∈ (tokens 32 [97, 32, 98]).take 2, 2 ≤ word.length) ∧
      (result ≠ -1 → ∃ word, (tokens 32 [97, 32, 98])[1]? = some word ∧ result = word.length ∧
        stored.take (word.length + 1) = word ++ [0]) :=
  getToken_nth (by decide) (by decide) (by decide) (by decide)

end LinuxUnix.HttpServer

import LinuxUnix.Foundation.CMemory
import LinuxUnix.Foundation.Iteration
import Mathlib.Data.List.TakeWhile

/-! # backward.c

`bwread` reads a file byte by byte from its end, with a seek of two bytes back after each byte,
and prints what it reads. The first newline that it meets is held back and printed at the end.
It is meant to be the last byte of the file; where the file does not end with a newline, another
one is moved (`LinuxUnix.Backward.prints_iff`).

The number of arguments and `open` are left out.
-/

namespace LinuxUnix.Backward

/-- The third argument of `lseek`. -/
inductive Whence
  | seekCur
  | seekEnd

/-- The new offset, unless it would be negative. -/
def lseek (content : List Byte) (offset : ℕ) (distance : ℤ) (whence : Whence) : Option ℕ :=
  let target : ℤ := distance + match whence with
    | .seekCur => offset
    | .seekEnd => content.length
  if target < 0 then none else some target.toNat

/-- Where `bwread` stands. -/
inductive At
  /-- before the first `lseek` -/
  | starting
  /-- before `read` in the condition of the loop -/
  | reading
  /-- before `lseek` in the loop -/
  | seeking
  /-- behind the loop -/
  | ended (rv : ℤ)
  | returned
  deriving DecidableEq

/-- Where `bwread` stands, the offset of its file, `nl`, and what has been printed. -/
structure State where
  place : At
  offset : ℕ
  nl : ℕ
  stdout : List Byte
  stderr : List String
  deriving DecidableEq

/-- The file has just been opened. -/
def start : State where
  place := .starting
  offset := 0
  nl := 0
  stdout := []
  stderr := []

/-- What the loop does with `ch`. -/
def State.take (state : State) (ch : Byte) : State :=
  if ch = 10 ∧ state.nl = 0 then { state with nl := state.nl + 1 }
  else { state with stdout := state.stdout ++ [ch] }

/-- What follows the loop. -/
def State.finish (state : State) (rv : ℤ) : State where
  place := .returned
  offset := state.offset
  nl := state.nl
  stdout := if state.nl ≠ 0 then state.stdout ++ [10] else state.stdout
  stderr :=
    if rv = 0 then state.stderr ++ ["EOF unerwartet ...\n"]
    else if rv = -1 then state.stderr ++ ["Fehler bei read()"]
    else state.stderr

/-- One call of `lseek` or `read` and what follows it; `read` on a regular file gets a byte
unless the offset is behind the last one. -/
def step (content : List Byte) (state : State) : State :=
  match state.place with
  | .starting => { state with
      place := .reading, offset := (lseek content state.offset (-1) .seekEnd).getD state.offset }
  | .reading =>
      match content[state.offset]? with
      | some ch => { state.take ch with place := .seeking, offset := state.offset + 1 }
      | none => { state with place := .ended 0 }
  | .seeking =>
      match lseek content state.offset (-2) .seekCur with
      | some offset => { state with place := .reading, offset := offset }
      | none => { state with place := .ended 1 }
  | .ended rv => state.finish rv
  | .returned => state

/-- The content from its last byte to its first, apart from a newline at its end. -/
def reversed (content : List Byte) : List Byte :=
  if content.getLast? = some 10 then content.dropLast.reverse ++ [10] else content.reverse

/-- `bwread` returns, has printed the content reversed, and complains about an empty file
only. -/
def Prints (content : List Byte) : Prop :=
  ∃ state, Reaches (step content) start state ∧ state.place = .returned ∧
    state.stdout = reversed content ∧
    state.stderr = if content = [] then ["EOF unerwartet ...\n"] else []

/-- What the loop prints of some bytes if it has held back so many newlines. -/
def printed (nl : ℕ) (bytes : List Byte) : List Byte :=
  if nl = 0 then bytes.reverse.erase 10 else bytes.reverse

/-- The newlines that are held back behind some bytes. -/
def held (nl : ℕ) (bytes : List Byte) : ℕ :=
  if nl = 0 ∧ 10 ∈ bytes then 1 else nl

variable {content : List Byte} {state : State}

theorem stdout_take (state : State) (ch : Byte) (bytes : List Byte) :
    (state.take ch).stdout ++ printed (state.take ch).nl bytes =
      state.stdout ++ printed state.nl (bytes ++ [ch]) := by
  rw [State.take]
  split
  · rename_i first
    obtain ⟨rfl, zero⟩ := first
    simp [printed, zero]
  · rename_i other
    by_cases zero : state.nl = 0
    · have ne : ch ≠ 10 := fun newline => other ⟨newline, zero⟩
      simp [printed, zero, ne]
    · simp [printed, zero]

theorem nl_take (state : State) (ch : Byte) (bytes : List Byte) :
    held (state.take ch).nl bytes = held state.nl (bytes ++ [ch]) := by
  rw [State.take]
  split
  · rename_i first
    obtain ⟨rfl, zero⟩ := first
    simp [held, zero]
  · rename_i other
    by_cases zero : state.nl = 0
    · have ne : 10 ≠ ch := fun newline => other ⟨newline.symm, zero⟩
      simp [held, zero, ne]
    · simp [held, zero]

theorem stderr_take (state : State) (ch : Byte) : (state.take ch).stderr = state.stderr := by
  rw [State.take]
  split <;> rfl

/-- What the program has come to when the loop is left at the front of the file. -/
def State.atFront (state : State) (bytes : List Byte) : State where
  place := .ended 1
  offset := 1
  nl := held state.nl bytes
  stdout := state.stdout ++ printed state.nl bytes
  stderr := state.stderr

/-- A byte read before some others: together they are what the loop goes through. -/
theorem atFront_take (state : State) (ch : Byte) (bytes : List Byte) (place : At) (offset : ℕ) :
    { state.take ch with place := place, offset := offset }.atFront bytes =
      state.atFront (bytes ++ [ch]) := by
  simp only [State.atFront, stdout_take, nl_take, stderr_take]

theorem atFront_nil (state : State) :
    state.atFront [] = { state with place := .ended 1, offset := 1 } := by
  simp [State.atFront, held, printed]

theorem step_reading {position : ℕ} {ch : Byte} (here : state.place = .reading)
    (behind : state.offset = position) (next : content[position]? = some ch) :
    step content state = { state.take ch with place := .seeking, offset := position + 1 } := by
  subst behind
  simp only [step, here, next]

theorem lseek_back (offset : ℕ) : lseek content (offset + 2) (-2) .seekCur = some offset := by
  have forward : ¬ (-2 + ((offset + 2 : ℕ) : ℤ)) < 0 := by omega
  have target : (-2 + ((offset + 2 : ℕ) : ℤ)).toNat = offset := by omega
  simp only [lseek, if_neg forward, target]

/-- The loop goes from an offset to the front; the induction is on the offset. -/
theorem reaches_front (position : ℕ) : ∀ {state : State}, state.place = .reading →
    state.offset = position → position < content.length →
      Reaches (step content) state (state.atFront (content.take (position + 1))) := by
  induction position with
  | zero =>
      intro state here behind inside
      obtain ⟨ch, next⟩ : ∃ ch, content[0]? = some ch := ⟨_, List.getElem?_eq_getElem inside⟩
      rw [List.take_add_one, next, List.take_zero, Option.toList_some]
      apply Reaches.head (step_reading here behind next)
      rw [← atFront_take state ch [] .seeking 1, atFront_nil]
      exact .head rfl (.refl _)
  | succ position ih =>
      intro state here behind inside
      obtain ⟨ch, next⟩ : ∃ ch, content[position + 1]? = some ch :=
        ⟨_, List.getElem?_eq_getElem inside⟩
      rw [List.take_add_one, next, Option.toList_some]
      apply Reaches.head (step_reading here behind next)
      rw [← atFront_take state ch _ .reading position]
      refine .head ?_ (ih rfl rfl (Nat.lt_of_succ_lt inside))
      simp only [step, lseek_back]

/-- The state in which `bwread` returns. -/
def final (content : List Byte) : State :=
  if content = [] then start.finish 0 else (start.atFront content).finish 1

theorem reaches_final (content : List Byte) : Reaches (step content) start (final content) := by
  rw [final]
  split
  · rename_i empty
    subst empty
    exact .head rfl (.head rfl (.head rfl (.refl _)))
  · rename_i nonempty
    have long := List.length_pos_iff.mpr nonempty
    have opened : lseek content 0 (-1) .seekEnd = some (content.length - 1) := by
      have forward : ¬ (-1 + (content.length : ℤ)) < 0 := by omega
      have target : (-1 + (content.length : ℤ)).toNat = content.length - 1 := by omega
      simp only [lseek, if_neg forward, target]
    have whole : content.take (content.length - 1 + 1) = content := by
      rw [Nat.sub_add_cancel long, List.take_length]
    have looped := @reaches_front content (content.length - 1)
      { start with place := .reading, offset := content.length - 1 } rfl rfl (by omega)
    rw [whole] at looped
    refine .head ?_ (looped.trans (.head rfl (.refl _)))
    simp only [step, start, opened, Option.getD_some]

theorem stdout_final (content : List Byte) :
    (final content).stdout = content.reverse.erase 10 ++ if 10 ∈ content then [10] else [] := by
  rw [final]
  split
  · rename_i empty
    subst empty
    rfl
  · by_cases newline : 10 ∈ content
    · simp [State.finish, State.atFront, start, held, printed, newline]
    · simp [State.finish, State.atFront, start, held, printed, newline]

theorem stderr_final (content : List Byte) :
    (final content).stderr = if content = [] then ["EOF unerwartet ...\n"] else [] := by
  rw [final]
  split
  · rfl
  · rfl

/-- `bwread` ends in one state only. -/
theorem prints_iff_stdout (content : List Byte) :
    Prints content ↔ (final content).stdout = reversed content := by
  have ended : (final content).place = .returned := by
    rw [final]
    split <;> rfl
  have fixed : ∀ state : State, state.place = .returned → step content state = state := by
    intro state returned
    rw [step, returned]
  constructor
  · rintro ⟨state, run, returned, stdout, _⟩
    have same := run.eq_of_fixed (reaches_final content) (fixed _ returned) (fixed _ ended)
    rw [← same, stdout]
  · intro stdout
    exact ⟨final content, reaches_final content, ended, stdout, stderr_final content⟩

/-- Only a row of one byte can be turned around that byte. -/
theorem concat_eq_cons_iff {byte : Byte} {bytes : List Byte} :
    bytes ++ [byte] = byte :: bytes ↔ ∀ other ∈ bytes, other = byte := by
  induction bytes with
  | nil => simp
  | cons first bytes ih =>
      rw [List.cons_append, List.cons.injEq, List.forall_mem_cons]
      constructor
      · rintro ⟨rfl, rest⟩
        exact ⟨rfl, ih.mp rest⟩
      · rintro ⟨rfl, rest⟩
        exact ⟨rfl, ih.mpr rest⟩

/-- The last newline of a text. -/
theorem exists_last_newline (newline : 10 ∈ content) :
    ∃ before behind, content = before ++ 10 :: behind ∧ 10 ∉ behind := by
  obtain ⟨behind, before, split, clean⟩ :=
    List.eq_append_cons_of_mem (List.mem_reverse.mpr newline)
  refine ⟨before.reverse, behind.reverse, ?_, fun member => clean (List.mem_reverse.mp member)⟩
  rw [← List.reverse_reverse content, split]
  simp

/-- Whether the last newline of a text is its last byte. -/
theorem getLast?_eq_newline_iff {before behind : List Byte} (clean : 10 ∉ behind) :
    (before ++ 10 :: behind).getLast? = some 10 ↔ behind = [] := by
  constructor
  · intro last
    by_contra closed
    rw [List.getLast?_append, List.getLast?_cons_of_ne_nil closed,
      Option.or_of_isSome (List.getLast?_isSome.mpr closed)] at last
    exact clean (List.mem_of_getLast? last)
  · rintro rfl
    exact List.getLast?_concat ..

/-- Whether a newline stands behind those that a text begins with. -/
theorem newline_behind_iff {before behind : List Byte} (clean : 10 ∉ behind) :
    10 ∉ (before ++ 10 :: behind).dropWhile (· == 10) ↔ ∀ byte ∈ before, byte = 10 := by
  constructor
  · intro leading
    by_contra other
    apply leading
    have some_ : before.dropWhile (· == 10) ≠ [] := by
      rw [ne_eq, List.dropWhile_eq_nil_iff]
      simpa using other
    rw [List.dropWhile_append, if_neg (by rwa [List.isEmpty_iff])]
    exact List.mem_append_right _ List.mem_cons_self
  · intro all
    rw [List.dropWhile_append_of_pos (by simpa using all), List.dropWhile_cons_of_pos (by rfl)]
    exact fun member => clean ((List.dropWhile_sublist _).subset member)

/-- The newline that is held back is the last byte, or has only newlines before it. -/
theorem stdout_eq_reversed_iff {before behind : List Byte} (clean : 10 ∉ behind) :
    (final (before ++ 10 :: behind)).stdout = reversed (before ++ 10 :: behind) ↔
      behind = [] ∨ ∀ byte ∈ before, byte = 10 := by
  have newline : 10 ∈ before ++ 10 :: behind := List.mem_append_right _ List.mem_cons_self
  have erased : (before ++ 10 :: behind).reverse.erase 10 = behind.reverse ++ before.reverse := by
    rw [List.reverse_append, List.reverse_cons, List.append_assoc, List.erase_append_right _ (by
      rwa [List.mem_reverse]), List.singleton_append, List.erase_cons_head]
  rw [stdout_final, if_pos newline, erased, reversed]
  by_cases closed : behind = []
  · subst closed
    rw [if_pos (List.getLast?_concat ..), List.dropLast_concat]
    simp
  · rw [if_neg (fun last => closed ((getLast?_eq_newline_iff clean).mp last)),
      or_iff_right closed, List.reverse_append, List.reverse_cons, List.append_assoc,
      List.append_assoc, List.append_cancel_left_eq, List.singleton_append, concat_eq_cons_iff]
    simp only [List.mem_reverse]

/-- The loop ends, and the output is right, if and only if the file ends with a newline, or has
no newline behind those that it begins with. -/
theorem prints_iff (content : List Byte) :
    Prints content ↔ content.getLast? = some 10 ∨ 10 ∉ content.dropWhile (· == 10) := by
  rw [prints_iff_stdout]
  by_cases newline : 10 ∈ content
  · obtain ⟨before, behind, rfl, clean⟩ := exists_last_newline newline
    rw [stdout_eq_reversed_iff clean, getLast?_eq_newline_iff clean, newline_behind_iff clean]
  · apply iff_of_true
    · have open_ : content.getLast? ≠ some 10 := fun last => newline (List.mem_of_getLast? last)
      rw [stdout_final, reversed, if_neg newline, if_neg open_, List.append_nil,
        List.erase_of_not_mem (by rwa [List.mem_reverse])]
    · exact .inr fun member => newline ((List.dropWhile_sublist _).subset member)

/-- `a` and `b` on two lines, without a newline at the end. -/
theorem not_prints_of_twoLines : ¬ ∀ content, Prints content := by
  intro claim
  have wrong := (prints_iff_stdout _).mp (claim [97, 10, 98])
  exact absurd wrong (by decide)

end LinuxUnix.Backward

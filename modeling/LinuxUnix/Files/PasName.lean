import LinuxUnix.Foundation.NumberInput
import Mathlib.Algebra.Group.Int.Defs

/-! # pasname.c

The argument is taken for a user number if `strtoul` has read all of it, and for a name
otherwise. `strtoul` reads all of the empty string, too, and of numbers with white space or a
sign; and a number is stored in an `int`, however large it is. The number looked up is the one
that was typed for digits below `2 ^ 32` only (`LinuxUnix.PasName.looksUp_iff`).
-/

namespace LinuxUnix.PasName

open Decimal

/-- `struct passwd` -/
structure Passwd where
  pwName : List Byte
  pwUid : ℕ
  pwGid : ℕ
  pwGecos : List Byte
  pwDir : List Byte
  pwShell : List Byte

/-- A call that looks up a user. -/
inductive Query
  | getpwuid (uid : ℕ)
  | getpwnam (name : List Byte)
  deriving DecidableEq

/-- `EXIT_SUCCESS` and `EXIT_FAILURE`. -/
inductive Status
  | exitSuccess
  | exitFailure
  deriving DecidableEq

/-- The calls that `main` has made, its output, and how it ends. -/
structure Outcome where
  asked : List Query
  stdout : List Byte
  stderr : List Byte
  status : Status

/-- The bytes of a text. -/
def text (string : String) : List Byte := string.toUTF8.toList

/-- A number of 64 bits stored in an `int`. -/
def toInt (number : ℕ) : ℤ :=
  if number % 2 ^ 32 < 2 ^ 31 then number % 2 ^ 32 else number % 2 ^ 32 - 2 ^ 32

/-- An `int` taken for a `uid_t`. -/
def toUid (number : ℤ) : ℕ := (number % 2 ^ 32).toNat

/-- The call that `main` makes for its argument. -/
def query (argument : List Byte) : Query :=
  let uid := toInt (strtoul argument).1
  if (strtoul argument).2 = [] then .getpwuid (toUid uid) else .getpwnam argument

/-- What is printed about a user; `%d` takes a number without a sign for an `int`. -/
def report (entry : Passwd) : List Byte :=
  text "User Angaben:\n" ++
    text "Benutzername        : " ++ entry.pwName ++ text "\n" ++
    text "Benutzernummer      : " ++ print (toInt entry.pwUid) ++ text "\n" ++
    text "Gruppennummer       : " ++ print (toInt entry.pwGid) ++ text "\n" ++
    text "Kommentar           : " ++ entry.pwGecos ++ text "\n" ++
    text "Home-Verzeichnis    : " ++ entry.pwDir ++ text "\n" ++
    text "Login-Shell         : " ++ entry.pwShell ++ text "\n"

/-- `main`, with the user database. -/
def main (database : Query → Option Passwd) : List (List Byte) → Outcome
  | [_, argument] =>
      match database (query argument) with
      | none => ⟨[query argument],
          text "Konnte nichts ueber " ++ argument ++ text " ermitteln\n", [], .exitFailure⟩
      | some entry => ⟨[query argument], report entry, [], .exitSuccess⟩
  | argv => ⟨[], [], text "Usage: " ++ argv.headD [] ++ text " Name\n", .exitFailure⟩

/-- The user that the argument names: digits are a number if it fits `uid_t`, and all other
texts are names. -/
def named (argument : List Byte) : Query :=
  if Plain argument ∧ value argument < 2 ^ 32 then .getpwuid (value argument)
  else .getpwnam argument

/-- `main` looks up the user that is named, and no other one. -/
def LooksUp (argument : List Byte) : Prop :=
  ∀ database program, (main database [program, argument]).asked = [named argument]

variable {argument : List Byte}

theorem asked_main (database : Query → Option Passwd) (program argument : List Byte) :
    (main database [program, argument]).asked = [query argument] := by
  rw [main]
  split <;> rfl

theorem looksUp_iff_query : LooksUp argument ↔ query argument = named argument := by
  constructor
  · intro looks
    have same := looks (fun _ => none) []
    rw [asked_main] at same
    exact List.head_eq_of_cons_eq same
  · intro same database program
    rw [asked_main, same]

/-- A number comes through the `int` modulo `2 ^ 32`. -/
theorem toUid_toInt (number : ℕ) : toUid (toInt number) = number % 2 ^ 32 := by
  rw [toUid, toInt]
  split <;> omega

theorem query_of_rest (empty : (strtoul argument).2 = []) :
    query argument = .getpwuid ((strtoul argument).1 % 2 ^ 32) := by
  rw [query, if_pos empty, toUid_toInt]

/-- The argument is a name for `main`. -/
theorem query_of_name (nonempty : argument ≠ []) (other : ¬ Numeral argument) :
    query argument = .getpwnam argument := by
  apply if_neg
  rw [rest_strtoul_eq_nil_iff]
  exact not_or.mpr ⟨nonempty, other⟩

/-- Digits that fit `uid_t`. -/
theorem query_of_plain (plain : Plain argument) (small : value argument < 2 ^ 32) :
    query argument = .getpwuid (value argument) := by
  have large : ¬ 2 ^ 64 ≤ value argument := by omega
  rw [query_of_rest (rest_strtoul_eq_nil_iff.mpr (.inr plain.numeral)), plain.strtoul,
    if_neg large, Nat.mod_eq_of_lt small]

/-- The right user is looked up if and only if the argument consists of digits that fit `uid_t`,
or is neither empty nor a numeral. -/
theorem looksUp_iff (argument : List Byte) : LooksUp argument ↔
    Plain argument ∧ value argument < 2 ^ 32 ∨ argument ≠ [] ∧ ¬ Numeral argument := by
  rw [looksUp_iff_query]
  by_cases number : Plain argument ∧ value argument < 2 ^ 32
  · rw [named, if_pos number]
    exact iff_of_true (query_of_plain number.1 number.2) (.inl number)
  · rw [named, if_neg number, or_iff_right number]
    constructor
    · intro name
      rw [← not_or, ← rest_strtoul_eq_nil_iff]
      intro empty
      rw [query_of_rest empty] at name
      exact Query.noConfusion name
    · rintro ⟨nonempty, other⟩
      exact query_of_name nonempty other

/-- The empty string looks up user 0. -/
theorem not_looksUp_of_empty : ¬ ∀ argument, 0 ∉ argument → LooksUp argument := by
  intro claim
  have looks := looksUp_iff_query.mp (claim [] List.not_mem_nil)
  exact absurd looks (by decide)

end LinuxUnix.PasName

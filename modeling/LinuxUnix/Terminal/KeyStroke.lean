import LinuxUnix.Foundation.Decimal
import LinuxUnix.Foundation.TransitionSystem

/-! # keystroke.c

`main` reads one byte, and after an ESC with one more `read` up to four others, which it compares
with the codes of nine keys. Here the model: the keys and the bytes they send, the program, and
what it is to report. The terminal modes are left out.
-/

namespace LinuxUnix.KeyStroke

open CMemory

/-- The keys that send an ESC and a code. -/
inductive Special
  | f1
  | f2
  | right
  | left
  | down
  | up
  | pos1
  | pgDwn
  | pgUp
  deriving DecidableEq

/-- What follows the ESC. -/
def Special.code : Special → List Byte
  | .f1 => [91, 91, 65]
  | .f2 => [91, 91, 66]
  | .right => [91, 67]
  | .left => [91, 68]
  | .down => [91, 66]
  | .up => [91, 65]
  | .pos1 => [91, 49, 126]
  | .pgDwn => [91, 54, 126]
  | .pgUp => [91, 53, 126]

/-- What is printed for a key: `F1`, `F2`, `->`, `<-`, `V`, `^`, `Pos 1`, `Pg Dwn` and `Pg Up`,
each with a newline. -/
def Special.text : Special → List Byte
  | .f1 => [70, 49, 10]
  | .f2 => [70, 50, 10]
  | .right => [45, 62, 10]
  | .left => [60, 45, 10]
  | .down => [86, 10]
  | .up => [94, 10]
  | .pos1 => [80, 111, 115, 32, 49, 10]
  | .pgDwn => [80, 103, 32, 68, 119, 110, 10]
  | .pgUp => [80, 103, 32, 85, 112, 10]

/-- The keys in the order of the comparisons. -/
def specials : List Special :=
  [.f1, .f2, .right, .left, .down, .up, .pos1, .pgDwn, .pgUp]

/-- ESC -/
def esc : Byte := 27

/-- The byte `q`. -/
def quit : Byte := 113

/-- A `char` has a sign. -/
def toChar (byte : Byte) : ℤ :=
  if byte.toNat < 128 then byte.toNat else byte.toNat - 256

/-- What is printed for a byte that is no ESC. -/
def charText (c : Byte) : List Byte :=
  if toChar c < 32 ∨ c = 127 then Decimal.print (toChar c) ++ [10] else [c, 10]

/-- What is printed for the string in `buffer`: each comparison is made. -/
def bufferText (buffer : List Byte) : List (List Byte) :=
  (specials.filter fun special => cstr buffer = special.code).map Special.text

/-- Where `main` stands. -/
inductive At
  /-- before `read(STDIN_FILENO, &c, 1)` -/
  | key
  /-- before `read(STDIN_FILENO, buffer, 4)` -/
  | escape
  | returned
  /-- after `exit(EXIT_FAILURE)` -/
  | failed
  /-- after a store outside `buffer` -/
  | undefined
  deriving DecidableEq

/-- Where `main` stands, the bytes that have been typed and not been read, `buffer`, and the
texts that have been printed. -/
structure State where
  place : At
  pending : List Byte
  buffer : List Byte
  printed : List (List Byte)
  deriving DecidableEq

/-- How a `read` turns out: with so many bytes, with `0`, or with `-1`. -/
inductive Reply
  | moved (count : ℕ)
  | ended
  | failed
  deriving DecidableEq

/-- `main` with `c` read. -/
def takeKey (state : State) (c : Byte) (rest : List Byte) : State :=
  if c = esc then { state with place := .escape, pending := rest }
  else { state with
    place := if c = quit then .returned else .key
    pending := rest
    printed := state.printed ++ [charText c] }

/-- `main` with some bytes read to `buffer`: a NUL is stored behind them. -/
def takeCode (state : State) (bytes rest : List Byte) : State :=
  if bytes.length < state.buffer.length then
    let buffer := overwrite state.buffer 0 (bytes ++ [0])
    { place := .key, pending := rest, buffer := buffer,
      printed := state.printed ++ bufferText buffer }
  else { state with place := .undefined }

/-- The message `Fehler bei read()`. -/
def readError : List Byte := "Fehler bei read()\n".toUTF8.toList

/-- A `read` and what follows it; a `read` with bytes gets at least one. -/
def next (state : State) (reply : Reply) : Option State :=
  match state.place, reply with
  | .key, .moved count =>
      match state.pending with
      | c :: rest => if count = 1 then some (takeKey state c rest) else none
      | [] => none
  | .key, .ended | .key, .failed => some { state with
      place := .failed, printed := state.printed ++ [readError] }
  | .escape, .moved count =>
      if 1 ≤ count ∧ count ≤ 4 ∧ count ≤ state.pending.length then
        some (takeCode state (state.pending.take count) (state.pending.drop count))
      else none
  | .escape, .ended => some (takeCode state [] state.pending)
  | .escape, .failed => some { state with place := .undefined }
  | .returned, _ | .failed, _ | .undefined, _ => none

/-- A `read` delivers so many bytes. -/
def deliver (state : State) (count : ℕ) : Option State :=
  next state (.moved count)

/-- A key that is pressed. -/
inductive Key
  | char (byte : Byte) (ordinary : byte ≠ esc)
  | special (kind : Special)
  deriving DecidableEq

/-- What a key sends. -/
def Key.bytes : Key → List Byte
  | .char byte _ => [byte]
  | .special kind => esc :: kind.code

/-- The report of a key. -/
def Key.text : Key → List Byte
  | .char byte _ => charText byte
  | .special kind => kind.text

/-- The key `q` ends the program. -/
def Key.quits : Key → Bool
  | .char byte _ => byte = quit
  | .special _ => false

/-- The bytes that some keys send. -/
def typed (keys : List Key) : List Byte := keys.flatMap Key.bytes

/-- The keys up to the first `q`. -/
def heard : List Key → List Key
  | [] => []
  | key :: keys => if key.quits then [key] else key :: heard keys

/-- The ten bytes of `buffer` when `main` starts. -/
structure Memory where
  bytes : List Byte
  size : bytes.length = 10

/-- Some keys are going to be pressed. -/
def start (memory : Memory) (keys : List Key) : State where
  place := .key
  pending := typed keys
  buffer := memory.bytes
  printed := []

/-- The keys up to the first `q` are reported, and their bytes are read and no other ones; the
program has returned if there is a `q`, and nothing is stored outside `buffer`. -/
structure Decoded (keys : List Key) (state : State) : Prop where
  printed : state.printed = (heard keys).map Key.text
  pending : state.pending = typed (keys.drop (heard keys).length)
  returned : state.place = .returned ↔ ∃ key ∈ keys, key.quits
  defined : state.place ≠ .undefined

/-- A `read` after an ESC takes the code of a key, and neither a part of it nor more. -/
def TakesCode (state : State) (count : ℕ) : Prop :=
  state.place = .escape → ∃ special ∈ specials, state.pending.take count = special.code

instance (state : State) (count : ℕ) : Decidable (TakesCode state count) :=
  inferInstanceAs (Decidable (_ → _))

theorem mem_specials (kind : Special) : kind ∈ specials := by
  cases kind <;> decide

theorem code_ne_nil (kind : Special) : kind.code ≠ [] := by
  cases kind <;> exact List.cons_ne_nil _ _

theorem length_code_le (kind : Special) : kind.code.length ≤ 3 := by
  cases kind <;> decide

theorem zero_not_mem_code (kind : Special) : 0 ∉ kind.code := by
  cases kind <;> decide

/-- No code is the beginning of another one. -/
theorem eq_of_prefix_code {first second : Special} (part : first.code <+: second.code) :
    first = second := by
  cases first <;> cases second <;> first | rfl | exact absurd part (by decide)

/-- What the array held before does not matter. -/
theorem bufferText_overwrite (buffer bytes : List Byte) :
    bufferText (overwrite buffer 0 (bytes ++ [0])) = bufferText bytes := by
  rw [bufferText, cstr_overwrite, bufferText]

/-- One text is printed for a code, and none for other bytes. -/
theorem bufferText_cases (bytes : List Byte) :
    (∃ kind : Special, cstr bytes = kind.code ∧ bufferText bytes = [kind.text]) ∨
      (∀ kind : Special, cstr bytes ≠ kind.code) ∧ bufferText bytes = [] := by
  by_cases known : ∃ kind : Special, cstr bytes = kind.code
  · left
    obtain ⟨kind, same⟩ := known
    refine ⟨kind, same, ?_⟩
    rw [bufferText, same]
    cases kind <;> rfl
  · right
    have unknown := not_exists.mp known
    refine ⟨unknown, ?_⟩
    rw [bufferText, List.map_eq_nil_iff, List.filter_eq_nil_iff]
    exact fun kind _ same => unknown kind (of_decide_eq_true same)

theorem typed_cons (key : Key) (keys : List Key) : typed (key :: keys) = key.bytes ++ typed keys :=
  List.flatMap_cons ..

theorem bytes_ne_nil (key : Key) : key.bytes ≠ [] := by
  cases key <;> exact List.cons_ne_nil _ _

/-- Only no keys send no bytes. -/
theorem eq_nil_of_typed {keys : List Key} (silent : typed keys = []) : keys = [] := by
  cases keys with
  | nil => rfl
  | cons key keys =>
      rw [typed_cons, List.append_eq_nil_iff] at silent
      exact absurd silent.1 (bytes_ne_nil key)

/-- Without a `q` all keys are heard. -/
theorem heard_eq_self {keys : List Key} (runs : ∀ key ∈ keys, key.quits = false) :
    heard keys = keys := by
  induction keys with
  | nil => rfl
  | cons key keys ih =>
      rw [heard, runs key List.mem_cons_self,
        ih fun other member => runs other (List.mem_cons_of_mem _ member)]
      rfl

/-- Nothing is heard behind a `q`. -/
theorem heard_append_quit {before : List Key} {key : Key} (after : List Key)
    (runs : ∀ key ∈ before, key.quits = false) (quits : key.quits = true) :
    heard (before ++ key :: after) = before ++ [key] := by
  induction before with
  | nil =>
      rw [List.nil_append, heard, if_pos quits]
      rfl
  | cons first before ih =>
      rw [List.cons_append, heard, runs first List.mem_cons_self,
        ih fun other member => runs other (List.mem_cons_of_mem _ member)]
      rfl

theorem prefix_heard (keys : List Key) : heard keys <+: keys := by
  induction keys with
  | nil => exact List.prefix_rfl
  | cons key keys ih =>
      rw [heard]
      split
      · exact List.cons_prefix_cons.mpr ⟨rfl, List.nil_prefix⟩
      · exact List.cons_prefix_cons.mpr ⟨rfl, ih⟩

end LinuxUnix.KeyStroke

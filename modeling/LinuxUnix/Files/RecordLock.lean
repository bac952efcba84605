import LinuxUnix.Foundation.CMemory
import LinuxUnix.Foundation.TransitionSystem
import Mathlib.Logic.Function.Basic

/-! # Writing under a record lock

Any number of `sperre` processes append what they read from their input to the file
`locki.lck`. `locki` asks for an exclusive lock on the whole file by `F_SETLK`; when
another process holds it the request fails at once, and `main` goes on to `write` all
the same (`LinuxUnix.RecordLock.not_locked_of_refused`). The processes write under the
lock in exactly those runs in which every request is granted
(`LinuxUnix.RecordLock.locked_of_reachable`, `LinuxUnix.RecordLock.locked_iff_granted`).

The outputs to the terminal, by `status` among others, are left out.
-/

namespace LinuxUnix.RecordLock

open TransitionSystem

/-- Where a process stands in `main`. -/
inductive At
  /-- before `open` -/
  | opening
  /-- before `fcntl` with `F_GETLK` -/
  | testing
  /-- before `read` in the condition of the loop -/
  | reading
  /-- before `fcntl` in `locki`, with the bytes in `puffer` -/
  | locki (puffer : List Byte)
  /-- before `write(fd, puffer, n)` -/
  | write (puffer : List Byte)
  /-- in `getchar` -/
  | getchar
  /-- before `fcntl` in `unlock` -/
  | unlock
  /-- before `close` -/
  | closing
  | ended
  deriving DecidableEq

/-- The process is between `locki` and `unlock`. -/
def At.inside : At → Bool
  | .write _ | .getchar | .unlock => true
  | .opening | .testing | .reading | .locki _ | .closing | .ended => false

/-- The process is about to execute `write(fd, puffer, n)`. -/
def At.writing : At → Bool
  | .write _ => true
  | .opening | .testing | .reading | .locki _ | .getchar | .unlock | .closing | .ended => false

/-- The process is about to ask for the lock. -/
def At.locking : At → Bool
  | .locki _ => true
  | .opening | .testing | .reading | .write _ | .getchar | .unlock | .closing | .ended => false

variable {Process : Type} [DecidableEq Process]

/-- Where the processes stand, which of them have the file open, which of them holds the
exclusive lock on it, if any, and its contents. -/
structure State (Process : Type) where
  place : Process → At
  fd : Process → Bool
  holder : Option Process
  file : List Byte

def State.start : State Process where
  place := fun _ => .opening
  fd := fun _ => false
  holder := none
  file := []

/-- A process takes its next step, or one of the calls that wait for their environment
returns: `open` with a descriptor or not, `read` from the input with an error or the
bytes that it has stored, and `getchar`. -/
inductive Action (Process : Type)
  | step (who : Process)
  | opened (who : Process) (succeeds : Bool)
  | input (who : Process) (data : Option (List Byte))
  | key (who : Process)

/-- The process goes on at another place. -/
def State.goTo (state : State Process) (who : Process) (next : At) : State Process :=
  { state with place := Function.update state.place who next }

/-- `fcntl` with `F_SETLK` and `F_WRLCK` is granted: the descriptor is valid, and no
other process holds a lock on the file. -/
def State.grants (state : State Process) (who : Process) : Prop :=
  state.fd who = true ∧ ∀ holder ∈ state.holder, holder = who

instance (state : State Process) (who : Process) : Decidable (state.grants who) :=
  inferInstanceAs (Decidable (_ ∧ _))

/-- The lock that a process holds is given up. -/
def State.release (state : State Process) (who : Process) : State Process :=
  { state with holder := if state.holder = some who then none else state.holder }

/-- `locki`; a refusal is only reported. -/
def locki (state : State Process) (who : Process) : State Process :=
  if state.grants who then { state with holder := some who } else state

/-- `unlock` -/
def unlock (state : State Process) (who : Process) : State Process :=
  if state.fd who then state.release who else state

/-- `write(fd, puffer, n)`; the file is open for appending. -/
def write (state : State Process) (who : Process) (puffer : List Byte) : State Process :=
  if state.fd who then { state with file := state.file ++ puffer } else state

/-- The next step of `main` that needs no input. -/
def main (state : State Process) (who : Process) : Option (State Process) :=
  match state.place who with
  | .testing => some (state.goTo who .reading)
  | .locki puffer => some ((locki state who).goTo who (.write puffer))
  | .write puffer => some ((write state who puffer).goTo who .getchar)
  | .unlock => some ((unlock state who).goTo who .reading)
  | .closing => some ((state.release who).goTo who .ended)
  | .opening | .reading | .getchar | .ended => none

/-- The condition of the loop: more than one byte has been read. -/
def loopEntry : Option (List Byte) → At
  | some data => if 1 < data.length then .locki data else .closing
  | none => .closing

/-- The effect of an action, if it can happen. -/
def next (state : State Process) : Action Process → Option (State Process)
  | .step who => main state who
  | .opened who succeeds =>
      if state.place who = .opening then
        some ({ state with fd := Function.update state.fd who succeeds }.goTo who .testing)
      else none
  | .input who data =>
      if state.place who = .reading ∧ ∀ bytes ∈ data, bytes.length ≤ 100 then
        some (state.goTo who (loopEntry data))
      else none
  | .key who =>
      if state.place who = .getchar then some (state.goTo who .unlock) else none

/-- The processes and their file. -/
def recordLock : TransitionSystem (State Process) (Action Process) :=
  .ofFunction (· = State.start) next

/-- A process about to write holds the lock, and no two processes are between `locki`
and `unlock`. -/
structure Locked (state : State Process) : Prop where
  writes : ∀ who, (state.place who).writing = true → state.holder = some who
  alone : ∀ first second, (state.place first).inside = true →
    (state.place second).inside = true → first = second

/-- Every lock that a process asks for is granted. -/
def Granted (state : State Process) : Action Process → Prop
  | .step who => (state.place who).locking = true → state.grants who
  | .opened _ _ | .input _ _ | .key _ => True

instance (state : State Process) (action : Action Process) : Decidable (Granted state action) :=
  match action with
  | .step who => inferInstanceAs (Decidable ((state.place who).locking = true → state.grants who))
  | .opened _ _ | .input _ _ | .key _ => .isTrue trivial

/-- The process between `locki` and `unlock` is the one that holds the lock. -/
structure Held (state : State Process) : Prop where
  inside : ∀ who, (state.place who).inside = true →
    state.holder = some who ∧ state.fd who = true
  holder : ∀ who, state.holder = some who → (state.place who).inside = true

variable {before after : State Process} {who : Process}

omit [DecidableEq Process] in
theorem held_start : Held (State.start : State Process) where
  inside := by intro who inside; cases inside
  holder := by intro who held; cases held

omit [DecidableEq Process] in
/-- Who is inside alone may write. -/
theorem Held.locked {state : State Process} (held : Held state) : Locked state where
  writes := by
    intro who writing
    refine (held.inside who ?_).1
    cases at_ : state.place who with
    | write puffer => rfl
    | opening | testing | reading | locki _ | getchar | unlock | closing | ended =>
        rw [at_] at writing
        cases writing
  alone := by
    intro first second one other
    exact Option.some.inj ((held.inside first one).1.symm.trans (held.inside second other).1)

/-- A process that stays inside, or stays outside. -/
theorem Held.goTo (held : Held before) {next : At}
    (same : next.inside = (before.place who).inside) : Held (before.goTo who next) where
  inside := by
    intro other inside
    by_cases mine : other = who
    · subst mine
      simp only [State.goTo, Function.update_self, same] at inside
      exact held.inside other inside
    · simp only [State.goTo, Function.update_of_ne mine] at inside
      exact held.inside other inside
  holder := by
    intro other there
    by_cases mine : other = who
    · subst mine
      simp only [State.goTo, Function.update_self, same]
      exact held.holder other there
    · simp only [State.goTo, Function.update_of_ne mine]
      exact held.holder other there

/-- A request that is granted lets its process in, alone. -/
theorem Held.locki (held : Held before) (granted : before.grants who) (puffer : List Byte) :
    Held ((locki before who).goTo who (.write puffer)) := by
  rw [RecordLock.locki, if_pos granted]
  constructor
  · intro other inside
    by_cases mine : other = who
    · subst mine
      exact ⟨rfl, granted.1⟩
    · simp only [State.goTo, Function.update_of_ne mine] at inside
      exact absurd (granted.2 other (held.inside other inside).1) mine
  · rintro other ⟨⟩
    simp only [State.goTo, Function.update_self]
    rfl

/-- The process inside leaves, and gives up the lock. -/
theorem Held.release (held : Held before) (inside : (before.place who).inside = true) {next : At}
    (outside : next.inside = false) : Held ((before.release who).goTo who next) := by
  have mine := (held.inside who inside).1
  rw [State.release, if_pos mine]
  constructor
  · intro other within
    by_cases same : other = who
    · subst same
      simp only [State.goTo, Function.update_self, outside] at within
      cases within
    · simp only [State.goTo, Function.update_of_ne same] at within
      cases mine.symm.trans (held.inside other within).1
      exact absurd rfl same
  · intro other there
    cases there

/-- A process outside has no lock to give up. -/
theorem Held.release_eq (held : Held before) (outside : (before.place who).inside = false) :
    before.release who = before := by
  have free : before.holder ≠ some who := by
    intro mine
    cases outside.symm.trans (held.holder who mine)
  rw [State.release, if_neg free]

/-- A process outside opens the file. -/
theorem Held.open (held : Held before) (outside : (before.place who).inside = false)
    (succeeds : Bool) :
    Held { before with fd := Function.update before.fd who succeeds } where
  inside := by
    intro other inside
    have different : other ≠ who := by
      rintro rfl
      cases outside.symm.trans inside
    have kept : Function.update before.fd who succeeds other = before.fd other :=
      Function.update_of_ne different _ _
    exact ⟨(held.inside other inside).1, kept.trans (held.inside other inside).2⟩
  holder := held.holder

omit [DecidableEq Process] in
/-- What is written does not matter for the lock. -/
theorem Held.write (held : Held before) (puffer : List Byte) :
    Held (write before who puffer) ∧ (RecordLock.write before who puffer).place = before.place := by
  rw [RecordLock.write]
  split
  · exact ⟨⟨held.inside, held.holder⟩, rfl⟩
  · exact ⟨held, rfl⟩

/-- Every step whose request is granted keeps the lock with the process inside. -/
theorem Held.step (held : Held before) {action : Action Process} (granted : Granted before action)
    (moved : next before action = some after) : Held after := by
  cases action with
  | step who =>
      simp only [next, main] at moved
      split at moved
      case h_1 at_ =>
        cases moved
        exact held.goTo (by rw [at_]; rfl)
      case h_2 puffer at_ =>
        cases moved
        exact held.locki (granted (by rw [at_]; rfl)) puffer
      case h_3 puffer at_ =>
        cases moved
        obtain ⟨written, same⟩ := @Held.write _ before who held puffer
        exact written.goTo (by rw [same, at_]; rfl)
      case h_4 at_ =>
        cases moved
        have inside : (before.place who).inside = true := by rw [at_]; rfl
        rw [unlock, if_pos (held.inside who inside).2]
        exact held.release inside rfl
      case h_5 at_ =>
        cases moved
        have outside : (before.place who).inside = false := by rw [at_]; rfl
        rw [held.release_eq outside]
        exact held.goTo outside.symm
      case h_6 | h_7 | h_8 | h_9 => cases moved
  | opened who succeeds =>
      rw [next, Option.ite_none_right_eq_some] at moved
      obtain ⟨at_, moved⟩ := moved
      cases moved
      have outside : (before.place who).inside = false := by rw [at_]; rfl
      exact (held.open outside succeeds).goTo outside.symm
  | input who data =>
      rw [next, Option.ite_none_right_eq_some] at moved
      obtain ⟨⟨at_, _⟩, moved⟩ := moved
      cases moved
      apply held.goTo
      rw [at_]
      cases data with
      | none => rfl
      | some data => rw [loopEntry]; split <;> rfl
  | key who =>
      rw [next, Option.ite_none_right_eq_some] at moved
      obtain ⟨at_, moved⟩ := moved
      cases moved
      exact held.goTo (by rw [at_]; rfl)

theorem held_invariant :
    (recordLock.restrict Granted).Invariant (Held : State Process → Prop) where
  initial := fun _ started => started ▸ held_start
  step := fun _ _ _ held moved => held.step moved.1 moved.2

/-- **Writes under the lock.** In a run in which every request is granted, a process
writes only while it holds the lock, and no two processes are between `locki` and
`unlock`. -/
theorem locked_of_reachable {state : State Process}
    (reached : (recordLock.restrict Granted).Reachable state) : Locked state :=
  (held_invariant.reachable reached).locked

/-- Two processes write one after the other. -/
def takingTurns : List (Action ℕ) :=
  [.opened 0 true, .step 0, .opened 1 true, .step 1, .input 0 (some [97, 10]), .step 0, .step 0,
    .key 0, .step 0, .input 1 (some [98, 10]), .step 1]

theorem locked_of_takingTurns : ∃ state : State ℕ,
    run (guarded Granted next) State.start takingTurns = some state ∧ Locked state := by
  have executed : (run (guarded Granted next) State.start takingTurns).isSome = true := by decide
  obtain ⟨state, executed⟩ := Option.isSome_iff_exists.mp executed
  exact ⟨state, executed, locked_of_reachable (.of_run (.initial rfl) executed)⟩

/-- After such a run the next step keeps the processes under the lock if and only if its
request is granted. -/
theorem locked_iff_granted (reached : (recordLock.restrict Granted).Reachable before)
    {action : Action Process} (moved : next before action = some after) :
    Locked after ↔ Granted before action := by
  have held := held_invariant.reachable reached
  refine ⟨fun locked => ?_, fun granted => (held.step granted moved).locked⟩
  by_contra refused
  cases action with
  | opened _ _ | input _ _ | key _ => exact refused trivial
  | step who =>
      obtain ⟨locking, refused⟩ := Classical.not_imp.mp refused
      obtain ⟨puffer, at_⟩ : ∃ puffer, before.place who = .locki puffer := by
        cases at_ : before.place who with
        | locki puffer => exact ⟨puffer, rfl⟩
        | opening | testing | reading | write _ | getchar | unlock | closing | ended =>
            rw [at_] at locking
            cases locking
      simp only [next, main, at_, locki, if_neg refused] at moved
      cases moved
      have mine : before.holder = some who :=
        locked.writes who (by simp only [State.goTo, Function.update_self]; rfl)
      have inside := held.holder who mine
      rw [at_] at inside
      cases inside

/-- Process 1 asks for the lock while process 0 waits for its key. -/
def refused : List (Action ℕ) :=
  [.opened 0 true, .step 0, .opened 1 true, .step 1, .input 0 (some [97, 10]), .step 0, .step 0,
    .input 1 (some [98, 10]), .step 1]

/-- A process whose request was refused writes without the lock. -/
theorem not_locked_of_refused :
    ¬ ∀ state : State ℕ, recordLock.Reachable state → Locked state := by
  intro locked
  let anyStep : State ℕ → Action ℕ → Prop := fun _ _ => True
  have broken : ((run (guarded anyStep next) State.start refused).map fun state =>
      decide ((state.place 1).writing = true ∧ state.holder ≠ some 1)) = some true := by decide
  obtain ⟨state, executed, violated⟩ := Option.map_eq_some_iff.mp broken
  obtain ⟨writing, other⟩ := of_decide_eq_true violated
  have reached : (recordLock.restrict anyStep).Reachable state := .of_run (.initial rfl) executed
  exact other ((locked state reached.of_restrict).writes 1 writing)

end LinuxUnix.RecordLock

import LinuxUnix.Foundation.TransitionSystem
import Mathlib.Data.Int.Notation

/-! # thread13.c

One thread fills an array, and another one adds up its values; a semaphore that starts with 0 lets
the second one wait for the first. In whatever order they go, they are never at the array at the same
time, the sum is that of all the values, and the program ends. What is printed leaves open only when
the first thread looks at the semaphore, and when it tells (`LinuxUnix.SemaphoreHandover.handed_over`).

The headlines of the outputs are left out, and the calls of `pthread_create` succeed.
-/

namespace LinuxUnix.SemaphoreHandover

open TransitionSystem

/-- The length of `werte`. -/
def count : ℕ := 10

/-- Where `main` is. -/
inductive MainAt
  /-- before the first `pthread_create` -/
  | creatingFirst
  | creatingSecond
  | joiningFirst
  | joiningSecond
  /-- before the last `sem_getvalue` -/
  | reporting
  | ended
  deriving DecidableEq

/-- Where `thread1` is. -/
inductive WriterAt
  | absent
  /-- before `i < 10` -/
  | writing (i : ℕ)
  | posting
  /-- before `sem_getvalue` -/
  | looking
  /-- before its value is printed -/
  | reporting (value : ℕ)
  | done
  deriving DecidableEq

/-- Where `thread2` is. -/
inductive ReaderAt
  | absent
  | waiting
  /-- before `i < 10` -/
  | adding (i : ℕ)
  | done
  deriving DecidableEq

/-- The values that are printed: of the semaphore at the start, after `sem_post`, and at the end, and
the sum. -/
inductive Output
  | initial (value : ℕ)
  | posted (value : ℕ)
  | summe (value : ℤ)
  | final (value : ℕ)
  deriving DecidableEq

/-- The threads, the semaphore, the array, the sum, and what has been printed. -/
structure State where
  main : MainAt
  writer : WriterAt
  reader : ReaderAt
  sem : ℕ
  werte : List ℤ
  summe : ℤ
  output : List Output
  deriving DecidableEq

inductive Party
  | main
  | thread1
  | thread2
  deriving DecidableEq

/-- A step of `main`. -/
def State.goMain (state : State) : Option State :=
  match state.main with
  | .creatingFirst => some { state with main := .creatingSecond, writer := .writing 0 }
  | .creatingSecond => some { state with main := .joiningFirst, reader := .waiting }
  | .joiningFirst => if state.writer = .done then some { state with main := .joiningSecond } else none
  | .joiningSecond => if state.reader = .done then some { state with main := .reporting } else none
  | .reporting =>
      some { state with main := .ended, output := state.output ++ [.final state.sem] }
  | .ended => none

/-- A step of `thread1`. -/
def State.goWriter (state : State) : Option State :=
  match state.writer with
  | .writing i =>
      if i < count then
        some { state with writer := .writing (i + 1), werte := state.werte.set i i }
      else some { state with writer := .posting }
  | .posting => some { state with writer := .looking, sem := state.sem + 1 }
  | .looking => some { state with writer := .reporting state.sem }
  | .reporting value => some { state with writer := .done, output := state.output ++ [.posted value] }
  | .absent | .done => none

/-- A step of `thread2`. -/
def State.goReader (state : State) : Option State :=
  match state.reader with
  | .waiting =>
      if 0 < state.sem then some { state with reader := .adding 0, sem := state.sem - 1 } else none
  | .adding i =>
      if i < count then
        some { state with reader := .adding (i + 1), summe := state.summe + state.werte.getD i 0 }
      else some { state with reader := .done, output := state.output ++ [.summe state.summe] }
  | .absent | .done => none

def next (state : State) : Party → Option State
  | .main => state.goMain
  | .thread1 => state.goWriter
  | .thread2 => state.goReader

/-- The semaphore has been initialised, and its value printed. -/
def start : State where
  main := .creatingFirst
  writer := .absent
  reader := .absent
  sem := 0
  werte := List.replicate count 0
  summe := 0
  output := [.initial 0]

def thread13 : TransitionSystem State Party :=
  .ofFunction (· = start) next

/-- The array when so many values are in it. -/
def filled (i : ℕ) : List ℤ :=
  (List.range i).map Int.ofNat ++ List.replicate (count - i) 0

/-- The sum of so many values. -/
def total : ℕ → ℤ
  | 0 => 0
  | i + 1 => total i + i

/-- The reader has not passed the semaphore. -/
def ReaderAt.Outside (reader : ReaderAt) : Prop :=
  reader = .absent ∨ reader = .waiting

/-- How far the values have come: the two threads, the semaphore, the array, the sum, and what has
been printed. -/
inductive Flow : WriterAt → ReaderAt → ℕ → List ℤ → ℤ → List Output → Prop
  | absent {reader : ReaderAt} (outside : reader.Outside) :
      Flow .absent reader 0 (filled 0) 0 [.initial 0]
  | writing {i : ℕ} {reader : ReaderAt} (most : i ≤ count) (outside : reader.Outside) :
      Flow (.writing i) reader 0 (filled i) 0 [.initial 0]
  | posting {reader : ReaderAt} (outside : reader.Outside) :
      Flow .posting reader 0 (filled count) 0 [.initial 0]
  | posted {reader : ReaderAt} (outside : reader.Outside) :
      Flow .looking reader 1 (filled count) 0 [.initial 0]
  | looked {reader : ReaderAt} (outside : reader.Outside) :
      Flow (.reporting 1) reader 1 (filled count) 0 [.initial 0]
  | reported {reader : ReaderAt} (outside : reader.Outside) :
      Flow .done reader 1 (filled count) 0 [.initial 0, .posted 1]
  | adding {i : ℕ} (most : i ≤ count) :
      Flow .looking (.adding i) 0 (filled count) (total i) [.initial 0]
  | addingLooked {i value : ℕ} (most : i ≤ count) (small : value ≤ 1) :
      Flow (.reporting value) (.adding i) 0 (filled count) (total i) [.initial 0]
  | addingLast {i value : ℕ} (most : i ≤ count) (small : value ≤ 1) :
      Flow .done (.adding i) 0 (filled count) (total i) [.initial 0, .posted value]
  | added : Flow .looking .done 0 (filled count) (total count) [.initial 0, .summe (total count)]
  | addedLooked {value : ℕ} (small : value ≤ 1) : Flow (.reporting value) .done 0 (filled count)
      (total count) [.initial 0, .summe (total count)]
  | addedLast {value : ℕ} (small : value ≤ 1) : Flow .done .done 0 (filled count) (total count)
      [.initial 0, .posted value, .summe (total count)]
  | addedFirst {value : ℕ} (small : value ≤ 1) : Flow .done .done 0 (filled count) (total count)
      [.initial 0, .summe (total count), .posted value]

/-- Which threads there are for `main`. -/
inductive MainAt.Fits : MainAt → WriterAt → ReaderAt → Prop
  | creatingFirst : Fits .creatingFirst .absent .absent
  | creatingSecond {writer : WriterAt} (there : writer ≠ .absent) : Fits .creatingSecond writer .absent
  | joiningFirst {writer : WriterAt} {reader : ReaderAt} (there : writer ≠ .absent)
      (both : reader ≠ .absent) : Fits .joiningFirst writer reader
  | joiningSecond {reader : ReaderAt} (both : reader ≠ .absent) : Fits .joiningSecond .done reader
  | reporting : Fits .reporting .done .done

/-- What holds in every state. -/
inductive Sound : State → Prop
  | running {main : MainAt} {writer : WriterAt} {reader : ReaderAt} {sem : ℕ} {werte : List ℤ}
      {summe : ℤ} {output : List Output} (fits : main.Fits writer reader)
      (flow : Flow writer reader sem werte summe output) :
      Sound ⟨main, writer, reader, sem, werte, summe, output⟩
  | ended {werte : List ℤ} {summe : ℤ} {output : List Output}
      (flow : Flow .done .done 0 werte summe output) :
      Sound ⟨.ended, .done, .done, 0, werte, summe, output ++ [.final 0]⟩

theorem set_filled {i : ℕ} (less : i < count) : (filled i).set i i = filled (i + 1) := by
  have length : ((List.range i).map Int.ofNat).length = i := by
    rw [List.length_map, List.length_range]
  have split : count - i = (count - (i + 1)) + 1 := by omega
  rw [filled, filled, List.set_append_right _ _ (Nat.le_of_eq length), length, Nat.sub_self, split,
    List.replicate_succ, List.set_cons_zero, List.range_succ, List.map_append, List.append_assoc]
  rfl

theorem getD_filled {i : ℕ} (less : i < count) : (filled count).getD i 0 = i := by
  have inside : i < ((List.range count).map Int.ofNat).length := by
    rw [List.length_map, List.length_range]
    exact less
  rw [filled, List.getD_eq_getElem?_getD, List.getElem?_append_left inside, List.getElem?_map,
    List.getElem?_range less]
  rfl

variable {before after state : State} {main : MainAt} {writer : WriterAt} {reader : ReaderAt}
  {sem : ℕ} {werte : List ℤ} {summe : ℤ} {output : List Output}

/-! ## Steps -/

theorem Sound.goMain (sound : Sound before) (moved : before.goMain = some after) : Sound after := by
  cases sound with
  | ended flow => cases moved
  | running fits flow =>
      cases fits with
      | creatingFirst =>
          cases moved
          cases flow with
          | absent outside => exact .running (.creatingSecond nofun) (.writing (Nat.zero_le _) outside)
      | creatingSecond there =>
          cases moved
          refine .running (.joiningFirst there nofun) ?_
          cases flow with
          | absent outside => exact absurd rfl there
          | writing most outside => exact .writing most (.inr rfl)
          | posting outside => exact .posting (.inr rfl)
          | posted outside => exact .posted (.inr rfl)
          | looked outside => exact .looked (.inr rfl)
          | reported outside => exact .reported (.inr rfl)
      | joiningFirst there both =>
          dsimp only [State.goMain] at moved
          split at moved
          · rename_i done
            cases moved
            subst done
            exact .running (.joiningSecond both) flow
          · cases moved
      | joiningSecond both =>
          dsimp only [State.goMain] at moved
          split at moved
          · rename_i done
            cases moved
            subst done
            exact .running .reporting flow
          · cases moved
      | reporting =>
          cases moved
          cases flow with
          | addedLast small => exact .ended (.addedLast small)
          | addedFirst small => exact .ended (.addedFirst small)
          | reported outside => rcases outside with outside | outside <;> cases outside

/-- The writer is still there for `main`. -/
theorem MainAt.Fits.writes (fits : main.Fits writer reader) (goes : writer ≠ .done)
    (there : writer ≠ .absent) (next : WriterAt) (stays : next ≠ .absent) : main.Fits next reader := by
  cases fits with
  | creatingFirst => exact absurd rfl there
  | creatingSecond => exact .creatingSecond stays
  | joiningFirst _ both => exact .joiningFirst stays both
  | joiningSecond | reporting => exact absurd rfl goes

/-- So is the reader. -/
theorem MainAt.Fits.reads (fits : main.Fits writer reader) (goes : reader ≠ .done)
    (there : reader ≠ .absent) (next : ReaderAt) (stays : next ≠ .absent) : main.Fits writer next := by
  cases fits with
  | creatingFirst | creatingSecond => exact absurd rfl there
  | joiningFirst some_ _ => exact .joiningFirst some_ stays
  | joiningSecond => exact .joiningSecond stays
  | reporting => exact absurd rfl goes

theorem Sound.goWriter (sound : Sound before) (moved : before.goWriter = some after) :
    Sound after := by
  cases sound with
  | ended flow => cases moved
  | running fits flow =>
      cases flow with
      | absent outside => cases moved
      | @writing i reader most outside =>
          dsimp only [State.goWriter] at moved
          split at moved
          · rename_i less
            cases moved
            refine .running (fits.writes nofun nofun _ nofun) ?_
            rw [set_filled less]
            exact .writing less outside
          · rename_i past
            cases moved
            refine .running (fits.writes nofun nofun _ nofun) ?_
            rw [Nat.le_antisymm most (Nat.le_of_not_lt past)]
            exact .posting outside
      | posting outside =>
          cases moved
          exact .running (fits.writes nofun nofun _ nofun) (.posted outside)
      | posted outside =>
          cases moved
          exact .running (fits.writes nofun nofun _ nofun) (.looked outside)
      | looked outside =>
          cases moved
          exact .running (fits.writes nofun nofun _ nofun) (.reported outside)
      | adding most =>
          cases moved
          exact .running (fits.writes nofun nofun _ nofun) (.addingLooked most (Nat.zero_le _))
      | addingLooked most small =>
          cases moved
          exact .running (fits.writes nofun nofun _ nofun) (.addingLast most small)
      | added =>
          cases moved
          exact .running (fits.writes nofun nofun _ nofun) (.addedLooked (Nat.zero_le _))
      | addedLooked small =>
          cases moved
          exact .running (fits.writes nofun nofun _ nofun) (.addedFirst small)
      | reported | addingLast | addedLast | addedFirst => cases moved

theorem Sound.goReader (sound : Sound before) (moved : before.goReader = some after) :
    Sound after := by
  cases sound with
  | ended flow => cases moved
  | running fits flow =>
      cases flow with
      | absent outside | writing _ outside | posting outside =>
          rcases outside with rfl | rfl <;> cases moved
      | posted outside =>
          rcases outside with rfl | rfl
          · cases moved
          · cases moved
            exact .running (fits.reads nofun nofun _ nofun) (.adding (Nat.zero_le _))
      | looked outside =>
          rcases outside with rfl | rfl
          · cases moved
          · cases moved
            exact .running (fits.reads nofun nofun _ nofun)
              (.addingLooked (Nat.zero_le _) (Nat.le_refl _))
      | reported outside =>
          rcases outside with rfl | rfl
          · cases moved
          · cases moved
            exact .running (fits.reads nofun nofun _ nofun)
              (.addingLast (Nat.zero_le _) (Nat.le_refl _))
      | @adding i most =>
          dsimp only [State.goReader] at moved
          split at moved
          · rename_i less
            cases moved
            refine .running (fits.reads nofun nofun _ nofun) ?_
            rw [getD_filled less]
            exact .adding less
          · rename_i past
            cases moved
            refine .running (fits.reads nofun nofun _ nofun) ?_
            rw [Nat.le_antisymm most (Nat.le_of_not_lt past)]
            exact .added
      | @addingLooked i value most small =>
          dsimp only [State.goReader] at moved
          split at moved
          · rename_i less
            cases moved
            refine .running (fits.reads nofun nofun _ nofun) ?_
            rw [getD_filled less]
            exact .addingLooked less small
          · rename_i past
            cases moved
            refine .running (fits.reads nofun nofun _ nofun) ?_
            rw [Nat.le_antisymm most (Nat.le_of_not_lt past)]
            exact .addedLooked small
      | @addingLast i value most small =>
          dsimp only [State.goReader] at moved
          split at moved
          · rename_i less
            cases moved
            refine .running (fits.reads nofun nofun _ nofun) ?_
            rw [getD_filled less]
            exact .addingLast less small
          · rename_i past
            cases moved
            refine .running (fits.reads nofun nofun _ nofun) ?_
            rw [Nat.le_antisymm most (Nat.le_of_not_lt past)]
            exact .addedLast small
      | added | addedLooked | addedLast | addedFirst => cases moved

theorem sound_invariant : thread13.Invariant Sound where
  initial _ started := by
    rw [started]
    exact .running .creatingFirst (.absent (.inl rfl))
  step _ party _ sound moved := by
    cases party with
    | main => exact sound.goMain moved
    | thread1 => exact sound.goWriter moved
    | thread2 => exact sound.goReader moved

/-! ## Every run ends -/

def MainAt.left : MainAt → ℕ
  | .creatingFirst => 45
  | .creatingSecond => 28
  | .joiningFirst => 3
  | .joiningSecond => 2
  | .reporting => 1
  | .ended => 0

def WriterAt.left : WriterAt → ℕ
  | .writing i => count - i + 4
  | .posting => 3
  | .looking => 2
  | .reporting _ => 1
  | .absent | .done => 0

def ReaderAt.left : ReaderAt → ℕ
  | .waiting => count + 2
  | .adding i => count - i + 1
  | .absent | .done => 0

/-- How many steps are left, at most. -/
def State.left (state : State) : ℕ :=
  state.main.left + state.writer.left + state.reader.left

theorem left_goMain (moved : before.goMain = some after) : after.left < before.left := by
  obtain ⟨main, writer, reader, sem, werte, summe, output⟩ := before
  cases main with
  | creatingFirst | creatingSecond =>
      cases moved
      simp only [State.left, MainAt.left, WriterAt.left, ReaderAt.left, count]
      omega
  | joiningFirst | joiningSecond =>
      dsimp only [State.goMain] at moved
      split at moved
      · cases moved
        simp only [State.left, MainAt.left]
        omega
      · cases moved
  | reporting =>
      cases moved
      simp only [State.left, MainAt.left]
      omega
  | ended => cases moved

theorem left_goWriter (moved : before.goWriter = some after) : after.left < before.left := by
  obtain ⟨main, writer, reader, sem, werte, summe, output⟩ := before
  cases writer with
  | writing i =>
      dsimp only [State.goWriter] at moved
      split at moved <;> cases moved <;> simp only [State.left, WriterAt.left] <;> omega
  | posting | looking | reporting =>
      cases moved
      simp only [State.left, WriterAt.left]
      omega
  | absent | done => cases moved

theorem left_goReader (moved : before.goReader = some after) : after.left < before.left := by
  obtain ⟨main, writer, reader, sem, werte, summe, output⟩ := before
  cases reader with
  | waiting =>
      dsimp only [State.goReader] at moved
      split at moved
      · cases moved
        simp only [State.left, ReaderAt.left]
        omega
      · cases moved
  | adding i =>
      dsimp only [State.goReader] at moved
      split at moved <;> cases moved <;> simp only [State.left, ReaderAt.left] <;> omega
  | absent | done => cases moved

/-- What is promised for a state. -/
structure Hands (state : State) : Prop where
  /-- the threads are never both at the array -/
  apart : ∀ i j, state.writer = .writing i → state.reader ≠ .adding j
  /-- the sum is the sum of all values -/
  sum : state.reader = .done → state.summe = 45
  /-- a thread can go on, or the program has ended -/
  goesOn : (∃ party after, next state party = some after) ∨ state.main = .ended
  ends : thread13.Terminates state

/-- What may be printed. -/
def outputs : List (List Output) :=
  [[.initial 0, .posted 0, .summe 45, .final 0], [.initial 0, .posted 1, .summe 45, .final 0],
    [.initial 0, .summe 45, .posted 0, .final 0], [.initial 0, .summe 45, .posted 1, .final 0]]

theorem Flow.apart (flow : Flow writer reader sem werte summe output) {i : ℕ}
    (writes : writer = .writing i) (j : ℕ) : reader ≠ .adding j := by
  subst writes
  cases flow with
  | writing most outside => rcases outside with rfl | rfl <;> exact nofun

theorem Flow.sum (flow : Flow writer reader sem werte summe output) (done : reader = .done) :
    summe = total count := by
  subst done
  cases flow with
  | added | addedLooked | addedLast | addedFirst => rfl
  | absent outside | writing _ outside | posting outside | posted outside | looked outside
  | reported outside =>
      rcases outside with outside | outside <;> cases outside

/-- A thread can go on as long as `main` waits for one. -/
theorem Flow.goesOn (flow : Flow writer reader sem werte summe output)
    (there : writer ≠ .absent) (both : reader ≠ .absent) (waits : writer ≠ .done ∨ reader ≠ .done)
    (main : MainAt) : ∃ party after,
      next ⟨main, writer, reader, sem, werte, summe, output⟩ party = some after := by
  cases flow with
  | absent outside => exact absurd rfl there
  | @writing i reader most outside =>
      by_cases less : i < count
      · exact ⟨.thread1, _, if_pos less⟩
      · exact ⟨.thread1, _, if_neg less⟩
  | posting | posted | looked | added | addedLooked => exact ⟨.thread1, _, rfl⟩
  | reported outside =>
      rcases outside with rfl | rfl
      · exact absurd rfl both
      · exact ⟨.thread2, _, rfl⟩
  | @adding i most | @addingLooked i _ most | @addingLast i _ most =>
      by_cases less : i < count
      · exact ⟨.thread2, _, if_pos less⟩
      · exact ⟨.thread2, _, if_neg less⟩
  | addedLast | addedFirst => rcases waits with waits | waits <;> exact absurd rfl waits

theorem Sound.goesOn (sound : Sound state) :
    (∃ party after, next state party = some after) ∨ state.main = .ended := by
  cases sound with
  | ended flow => exact .inr rfl
  | @running main writer reader sem werte summe output fits flow =>
      left
      cases fits with
      | creatingFirst | creatingSecond | reporting => exact ⟨.main, _, rfl⟩
      | joiningFirst there both =>
          by_cases done : writer = .done
          · exact ⟨.main, _, if_pos done⟩
          · exact flow.goesOn there both (.inl done) _
      | joiningSecond both =>
          by_cases done : reader = .done
          · exact ⟨.main, _, if_pos done⟩
          · exact flow.goesOn nofun both (.inr done) _

theorem Sound.hands (sound : Sound state) : Hands state := by
  refine ⟨fun i j writes => ?_, fun done => ?_, sound.goesOn, ?_⟩
  · cases sound with
    | running fits flow => exact flow.apart writes j
    | ended flow => exact flow.apart writes j
  · cases sound with
    | running fits flow => exact flow.sum done
    | ended flow => exact flow.sum done
  · refine sound_invariant.terminates State.left (fun _ party _ _ moved => ?_) sound
    cases party with
    | main => exact left_goMain moved
    | thread1 => exact left_goWriter moved
    | thread2 => exact left_goReader moved

theorem Sound.prints (sound : Sound state) (ended : state.main = .ended) :
    state.output ∈ outputs := by
  cases sound with
  | running fits flow => cases fits <;> cases ended
  | ended flow =>
      cases flow with
      | @addedLast value small | @addedFirst value small =>
          obtain rfl | rfl : value = 0 ∨ value = 1 := by omega
          · decide
          · decide

/-- The writer has filled the array, and is before `sem_getvalue`. -/
def prelude : List Party :=
  [.main, .main] ++ List.replicate 12 .thread1

/-- What is left to the writer. -/
def reports : List Party := List.replicate 2 .thread1

/-- The reader, from `sem_wait` to its end. -/
def reads : List Party := List.replicate 12 .thread2

/-- What is left to `main`. -/
def joins : List Party := List.replicate 3 .main

theorem exists_run {labels : List Party} {output : List Output}
    (executed : (run next start labels).map (fun state => (state.main, state.output)) =
      some (.ended, output)) :
    ∃ state, thread13.Reachable state ∧ state.main = .ended ∧ state.output = output := by
  obtain ⟨state, ran, same⟩ := Option.map_eq_some_iff.mp executed
  exact ⟨state, .of_execution (.initial rfl) ran, congrArg Prod.fst same, congrArg Prod.snd same⟩

/-- **The values are handed over.** However the threads take turns, they are never both at the array,
the sum is that of all values, and the program ends. It can print each of four outputs, and no other
one. -/
theorem handed_over : (∀ state, thread13.Reachable state → Hands state) ∧
    ∀ output, (∃ state, thread13.Reachable state ∧ state.main = .ended ∧ state.output = output) ↔
      output ∈ outputs := by
  refine ⟨fun state reached => (sound_invariant.reachable reached).hands, fun output => ⟨?_, ?_⟩⟩
  · rintro ⟨state, reached, ended, rfl⟩
    exact (sound_invariant.reachable reached).prints ended
  · intro there
    simp only [outputs, List.mem_cons, List.not_mem_nil, or_false] at there
    rcases there with rfl | rfl | rfl | rfl
    · exact @exists_run (prelude ++ [.thread2] ++ reports ++ reads.tail ++ joins) _ (by decide)
    · exact @exists_run (prelude ++ reports ++ reads ++ joins) _ (by decide)
    · exact @exists_run (prelude ++ reads ++ reports ++ joins) _ (by decide)
    · exact @exists_run (prelude ++ [.thread1] ++ reads ++ [.thread1] ++ joins) _ (by decide)

end LinuxUnix.SemaphoreHandover

import LinuxUnix.Foundation.Monitor
import LinuxUnix.Foundation.TransitionSystem

/-! # A chain of wake-ups

The threads of `thread9` wait for a condition, without a flag that they could look at before, and
each one that has been woken signals the condition for the next one. `main` sends the first
signal, without the mutex, and joins the threads. Here are the steps of the program, and where
its threads can be (`LinuxUnix.WakeUpChain.placed_invariant`).

The number of threads is a parameter. The outputs are left out.
-/

namespace LinuxUnix.WakeUpChain

open TransitionSystem

inductive Party
  | main
  | thread (index : ℕ)
  deriving DecidableEq

/-- Where `main` is. -/
inductive MainAt
  /-- before the `pthread_create` of this thread, or behind the loop -/
  | creating (i : ℕ)
  | signalling
  /-- before the `pthread_join` of this thread, or behind the loop -/
  | joining (i : ℕ)
  | finished
  deriving DecidableEq

/-- Where a thread is. -/
inductive ThreadAt
  /-- it has not been created -/
  | absent
  | locking
  /-- behind `pthread_mutex_lock` -/
  | locked
  /-- in `pthread_cond_wait` -/
  | waiting
  /-- behind `pthread_cond_wait` -/
  | signalling
  | unlocking
  | done
  deriving DecidableEq

structure State where
  main : MainAt
  /-- `exit(EXIT_FAILURE)` has been called -/
  exited : Bool
  thread : ℕ → ThreadAt
  monitor : Monitor Party

inductive Action
  /-- a step of `main` other than the following two -/
  | main
  /-- `pthread_create` fails -/
  | createFails
  /-- `main` or a thread signals, and these threads are woken -/
  | signal (party : Party) (woken : Finset Party)
  /-- `pthread_mutex_lock`, `pthread_cond_wait` or `pthread_mutex_unlock` -/
  | thread (index : ℕ)
  /-- a thread that has been woken gets the mutex -/
  | relock (index : ℕ)
  /-- a thread is woken without a signal -/
  | wake (index : ℕ)

/-- The state with a thread at another place. -/
def State.move (state : State) (index : ℕ) (place : ThreadAt) : State :=
  { state with thread := Function.update state.thread index place }

/-- A step of `main`. -/
def State.goMain (threads : ℕ) (state : State) : Option State :=
  match state.main with
  | .creating i =>
      if i < threads then some { state.move i .locking with main := .creating (i + 1) }
      else some { state with main := .signalling }
  | .joining i =>
      if i < threads then
        if state.thread i = .done then some { state with main := .joining (i + 1) } else none
      else some { state with main := .finished }
  | .signalling | .finished => none

/-- A step of a thread. -/
def State.goThread (state : State) (index : ℕ) : Option State :=
  match state.thread index with
  | .locking => (state.monitor.lock (.thread index)).map fun monitor =>
      { state.move index .locked with monitor }
  | .locked => (state.monitor.wait (.thread index)).map fun monitor =>
      { state.move index .waiting with monitor }
  | .unlocking => (state.monitor.unlock (.thread index)).map fun monitor =>
      { state.move index .done with monitor }
  | .absent | .waiting | .signalling | .done => none

/-- The call of `pthread_cond_signal`. -/
def State.goSignal (state : State) (woken : Finset Party) : Party → Option State
  | .main =>
      if state.main = .signalling then
        (state.monitor.signal woken).map fun monitor =>
          { state with main := .joining 0, monitor }
      else none
  | .thread index =>
      if state.thread index = .signalling then
        (state.monitor.signal woken).map fun monitor =>
          { state.move index .unlocking with monitor }
      else none

/-- The step function of the program; after `exit` there are no steps. -/
def next (threads : ℕ) (state : State) (action : Action) : Option State :=
  if state.exited then none
  else match action with
  | .main => state.goMain threads
  | .createFails => match state.main with
    | .creating i => if i < threads then some { state with exited := true } else none
    | _ => none
  | .signal party woken => state.goSignal woken party
  | .thread index => state.goThread index
  | .relock index =>
      if state.thread index = .waiting then
        (state.monitor.relock (.thread index)).map fun monitor =>
          { state.move index .signalling with monitor }
      else none
  | .wake index => (state.monitor.wake (.thread index)).map fun monitor => { state with monitor }

/-- The program before its first step. -/
def start : State where
  main := .creating 0
  exited := false
  thread _ := .absent
  monitor := .start

/-- `thread9` with so many threads. -/
def program (threads : ℕ) : TransitionSystem State Action :=
  .ofFunction (fun state => state = start) (next threads)

/-- The signal of `main` is still to come. -/
def MainAt.early : MainAt → Bool
  | .creating _ | .signalling => true
  | .joining _ | .finished => false

/-- Those that signal without being woken once more. -/
def State.OnItsWay (state : State) : Party → Prop
  | .main => state.main.early = true
  | .thread index => state.thread index = .signalling ∨ .thread index ∈ state.monitor.woken

instance (state : State) : ∀ party, Decidable (state.OnItsWay party)
  | .main => inferInstanceAs (Decidable (_ = _))
  | .thread _ => inferInstanceAs (Decidable (_ ∨ _))

/-- A thread waits, nobody will signal, and `main` is blocked in `pthread_join`. -/
structure Deadlocked (threads : ℕ) (state : State) : Prop where
  waits : state.monitor.waiting ≠ ∅
  silent : ∀ party, ¬ state.OnItsWay party
  blocked : ∃ index < threads, state.main = .joining index ∧ state.thread index ≠ .done

/-- The thread is still to wait. -/
def ThreadAt.early : ThreadAt → Bool
  | .locking | .locked => true
  | .absent | .waiting | .signalling | .unlocking | .done => false

/-- A signal is not lost: a thread waits for it, or somebody else is still to signal, or there is
no thread that is still to wait. -/
def Heard (threads : ℕ) (state : State) : Action → Prop
  | .signal party _ => state.monitor.waiting ≠ ∅ ∨
      (party ≠ .main ∧ state.OnItsWay .main ∨
        ∃ index < threads, Party.thread index ≠ party ∧ state.OnItsWay (.thread index)) ∨
      ∀ index < threads, (state.thread index).early = false
  | .main | .createFails | .thread _ | .relock _ | .wake _ => True

instance (threads : ℕ) (state : State) : ∀ action, Decidable (Heard threads state action)
  | .signal _ _ => inferInstanceAs (Decidable (_ ∨ _))
  | .main | .createFails | .thread _ | .relock _ | .wake _ => inferInstanceAs (Decidable True)

def MainAt.status : MainAt → Monitor.Status
  | .creating _ | .signalling | .joining _ | .finished => .outside

def ThreadAt.status : ThreadAt → Monitor.Status
  | .locked | .signalling | .unlocking => .inside
  | .waiting => .waiting
  | .absent | .locking | .done => .outside

def State.status (state : State) : Party → Monitor.Status
  | .main => state.main.status
  | .thread index => (state.thread index).status

/-- How many threads `main` has created. -/
def MainAt.created (threads : ℕ) : MainAt → ℕ
  | .creating i => i
  | .signalling | .joining _ | .finished => threads

/-- How many threads `main` has joined. -/
def MainAt.joined (threads : ℕ) : MainAt → ℕ
  | .creating _ | .signalling => 0
  | .joining i => i
  | .finished => threads

/-- Where `main` and the threads are, and who has the mutex. -/
structure Placed (threads : ℕ) (state : State) : Prop where
  follows : state.monitor.Follows state.status
  created : ∀ index, state.thread index ≠ .absent ↔ index < state.main.created threads
  within : state.main.created threads ≤ threads
  joined : ∀ index < state.main.joined threads, state.thread index = .done

variable {threads : ℕ} {state after : State} {index : ℕ} {place : ThreadAt} {party : Party}

/-- What a step of `main` does. -/
inductive MainGoes (threads : ℕ) (state : State) : State → Prop
  | create {i : ℕ} (main : state.main = .creating i) (more : i < threads) :
      MainGoes threads state { state.move i .locking with main := .creating (i + 1) }
  | created {i : ℕ} (main : state.main = .creating i) (all : threads ≤ i) :
      MainGoes threads state { state with main := .signalling }
  | join {i : ℕ} (main : state.main = .joining i) (more : i < threads)
      (done : state.thread i = .done) :
      MainGoes threads state { state with main := .joining (i + 1) }
  | joined {i : ℕ} (main : state.main = .joining i) (all : threads ≤ i) :
      MainGoes threads state { state with main := .finished }

theorem mainGoes_of_goMain (went : state.goMain threads = some after) :
    MainGoes threads state after := by
  cases main : state.main with
  | creating i =>
      by_cases more : i < threads
      · simp only [State.goMain, main, more, ↓reduceIte, Option.some.injEq] at went
        exact went ▸ .create main more
      · simp only [State.goMain, main, more, ↓reduceIte, Option.some.injEq] at went
        exact went ▸ .created main (Nat.le_of_not_lt more)
  | joining i =>
      by_cases more : i < threads
      · simp only [State.goMain, main, more, ↓reduceIte, Option.ite_none_right_eq_some,
          Option.some.injEq] at went
        obtain ⟨done, rfl⟩ := went
        exact .join main more done
      · simp only [State.goMain, main, more, ↓reduceIte, Option.some.injEq] at went
        exact went ▸ .joined main (Nat.le_of_not_lt more)
  | signalling | finished =>
      simp only [State.goMain, main] at went
      cases went

/-- What a step of a thread does. -/
inductive ThreadGoes (state : State) (index : ℕ) : State → Prop
  | lock {monitor : Monitor Party} (place : state.thread index = .locking)
      (locks : state.monitor.lock (.thread index) = some monitor) :
      ThreadGoes state index { state.move index .locked with monitor }
  | wait {monitor : Monitor Party} (place : state.thread index = .locked)
      (waits : state.monitor.wait (.thread index) = some monitor) :
      ThreadGoes state index { state.move index .waiting with monitor }
  | unlock {monitor : Monitor Party} (place : state.thread index = .unlocking)
      (unlocks : state.monitor.unlock (.thread index) = some monitor) :
      ThreadGoes state index { state.move index .done with monitor }

theorem threadGoes_of_goThread (went : state.goThread index = some after) :
    ThreadGoes state index after := by
  cases place : state.thread index with
  | locking =>
      simp only [State.goThread, place, Option.map_eq_some_iff] at went
      obtain ⟨monitor, locks, rfl⟩ := went
      exact .lock place locks
  | locked =>
      simp only [State.goThread, place, Option.map_eq_some_iff] at went
      obtain ⟨monitor, waits, rfl⟩ := went
      exact .wait place waits
  | unlocking =>
      simp only [State.goThread, place, Option.map_eq_some_iff] at went
      obtain ⟨monitor, unlocks, rfl⟩ := went
      exact .unlock place unlocks
  | absent | waiting | signalling | done =>
      simp only [State.goThread, place] at went
      cases went

/-- What a step does. -/
inductive Moves (threads : ℕ) (state : State) : Action → State → Prop
  | main {after : State} (went : state.goMain threads = some after) :
      Moves threads state .main after
  | createFails {i : ℕ} (main : state.main = .creating i) :
      Moves threads state .createFails { state with exited := true }
  | mainSignal {woken : Finset Party} {monitor : Monitor Party} (main : state.main = .signalling)
      (signals : state.monitor.signal woken = some monitor) :
      Moves threads state (.signal .main woken) { state with main := .joining 0, monitor }
  | threadSignal {index : ℕ} {woken : Finset Party} {monitor : Monitor Party}
      (place : state.thread index = .signalling)
      (signals : state.monitor.signal woken = some monitor) :
      Moves threads state (.signal (.thread index) woken)
        { state.move index .unlocking with monitor }
  | thread {index : ℕ} {after : State} (went : state.goThread index = some after) :
      Moves threads state (.thread index) after
  | relock {index : ℕ} {monitor : Monitor Party} (place : state.thread index = .waiting)
      (relocks : state.monitor.relock (.thread index) = some monitor) :
      Moves threads state (.relock index) { state.move index .signalling with monitor }
  | wake {index : ℕ} {monitor : Monitor Party}
      (wakes : state.monitor.wake (.thread index) = some monitor) :
      Moves threads state (.wake index) { state with monitor }

/-- After `exit` there are no steps. -/
theorem running_of_next {action : Action} (moved : next threads state action = some after) :
    state.exited = false := by
  unfold next at moved
  exact Bool.eq_false_iff.mpr (Option.ite_none_left_eq_some.mp moved).1

theorem moves_of_next {action : Action} (moved : next threads state action = some after) :
    Moves threads state action after := by
  unfold next at moved
  have moved := (Option.ite_none_left_eq_some.mp moved).2
  cases action with
  | main => exact .main moved
  | createFails =>
      cases main : state.main with
      | creating i =>
          simp only [main, Option.ite_none_right_eq_some, Option.some.injEq] at moved
          obtain ⟨_, rfl⟩ := moved
          rw [← main]
          exact .createFails main
      | signalling | joining _ | finished =>
          simp only [main] at moved
          cases moved
  | signal party woken =>
      cases party with
      | main =>
          simp only [State.goSignal, Option.ite_none_right_eq_some, Option.map_eq_some_iff] at moved
          obtain ⟨main, monitor, signals, rfl⟩ := moved
          exact .mainSignal main signals
      | thread index =>
          simp only [State.goSignal, Option.ite_none_right_eq_some, Option.map_eq_some_iff] at moved
          obtain ⟨place, monitor, signals, rfl⟩ := moved
          exact .threadSignal place signals
  | thread index => exact .thread moved
  | relock index =>
      simp only [Option.ite_none_right_eq_some, Option.map_eq_some_iff] at moved
      obtain ⟨place, monitor, relocks, rfl⟩ := moved
      exact .relock place relocks
  | wake index =>
      simp only [Option.map_eq_some_iff] at moved
      obtain ⟨monitor, wakes, rfl⟩ := moved
      exact .wake wakes

/-- `main` never has the mutex. -/
theorem status_main (main : MainAt) : main.status = .outside := by
  cases main <;> rfl

theorem status_move (state : State) (index : ℕ) (place : ThreadAt) :
    (state.move index place).status =
      Function.update state.status (.thread index) place.status := by
  funext party
  by_cases here : party = .thread index
  · subst here
    rw [Function.update_self]
    exact congrArg ThreadAt.status (Function.update_self ..)
  · rw [Function.update_of_ne here]
    cases party with
    | main => rfl
    | thread other =>
        have different : other ≠ index := fun equal => here (congrArg Party.thread equal)
        exact congrArg ThreadAt.status (Function.update_of_ne different ..)

/-- A step of a thread that `main` has not joined. -/
theorem Placed.move {monitor : Monitor Party} (placed : Placed threads state)
    (present : state.thread index ≠ .absent) (working : state.thread index ≠ .done)
    (follows : monitor.Follows (Function.update state.status (.thread index) place.status))
    (there : place ≠ .absent) : Placed threads { state.move index place with monitor } where
  follows := by
    rw [← status_move] at follows
    exact follows
  created := by
    refine (Function.forall_update_iff state.thread fun other place =>
      place ≠ .absent ↔ other < state.main.created threads).mpr ⟨?_, fun other _ => ?_⟩
    · exact iff_of_true there ((placed.created index).mp present)
    · exact placed.created other
  within := placed.within
  joined other small := by
    have done : state.thread other = .done := placed.joined other small
    have different : other ≠ index := by
      rintro rfl
      exact working done
    exact (Function.update_of_ne different ..).trans done

/-- A step of `main` that creates no thread. -/
theorem Placed.goOn {main : MainAt} {monitor : Monitor Party} {exited : Bool}
    (placed : Placed threads state) (follows : monitor.Follows state.status)
    (created : main.created threads = state.main.created threads)
    (joined : ∀ index < main.joined threads, state.thread index = .done) :
    Placed threads { state with main := main, exited := exited, monitor := monitor } where
  follows := by
    have same : ({ state with main := main, exited := exited, monitor := monitor } : State).status =
        state.status := by
      funext party
      cases party with
      | main => exact (status_main main).trans (status_main state.main).symm
      | thread => rfl
    rw [same]
    exact follows
  created index := by
    rw [created]
    exact placed.created index
  within := by
    rw [created]
    exact placed.within
  joined := joined

theorem placed_start (threads : ℕ) : Placed threads start where
  follows := by
    refine Monitor.follows_start fun party => ?_
    cases party <;> rfl
  created index := ⟨fun there => absurd rfl there, fun small => (Nat.not_lt_zero _ small).elim⟩
  within := Nat.zero_le _
  joined index small := (Nat.not_lt_zero _ small).elim

/-- A new thread. -/
theorem Placed.create {i : ℕ} (placed : Placed threads state) (main : state.main = .creating i)
    (more : i < threads) :
    Placed threads { state.move i .locking with main := .creating (i + 1) } := by
  have created := placed.created
  rw [main] at created
  have absent : state.thread i = .absent :=
    Decidable.not_not.mp fun there => Nat.lt_irrefl i ((created i).mp there)
  exact {
    follows := by
      have same : ({ state.move i .locking with main := .creating (i + 1) } : State).status =
          state.status := by
        funext party
        cases party with
        | main => exact (status_main state.main).symm
        | thread index =>
            change (Function.update state.thread i .locking index).status =
              (state.thread index).status
            by_cases here : index = i
            · rw [here, Function.update_self, absent]
              rfl
            · rw [Function.update_of_ne here]
      rw [same]
      exact placed.follows
    created := by
      refine (Function.forall_update_iff state.thread fun index place =>
        place ≠ .absent ↔ index < i + 1).mpr ⟨?_, fun index here => ?_⟩
      · exact iff_of_true nofun (Nat.lt_succ_self i)
      · rw [created]
        change index < i ↔ index < i + 1
        omega
    within := more
    joined := fun _ small => (Nat.not_lt_zero _ small).elim }

theorem Placed.goMain (placed : Placed threads state)
    (went : state.goMain threads = some after) : Placed threads after := by
  have joined := placed.joined
  cases mainGoes_of_goMain went with
  | create main more => exact placed.create main more
  | created main all =>
      have within := placed.within
      rw [main] at within
      exact placed.goOn placed.follows (by rw [main]; exact Nat.le_antisymm all within)
        fun _ small => (Nat.not_lt_zero _ small).elim
  | join main more done =>
      rw [main] at joined
      refine placed.goOn placed.follows (by rw [main]; rfl) fun index small => ?_
      rcases Nat.lt_succ_iff_lt_or_eq.mp small with before | same
      · exact joined index before
      · exact same ▸ done
  | joined main all =>
      rw [main] at joined
      refine placed.goOn placed.follows (by rw [main]; rfl) fun index small => ?_
      exact joined index (Nat.lt_of_lt_of_le small all)

theorem Placed.goThread (placed : Placed threads state)
    (went : state.goThread index = some after) : Placed threads after := by
  cases threadGoes_of_goThread went with
  | lock place locks =>
      exact placed.move (by rw [place]; nofun) (by rw [place]; nofun)
        (placed.follows.lock (congrArg ThreadAt.status place) locks) nofun
  | wait place waits =>
      exact placed.move (by rw [place]; nofun) (by rw [place]; nofun)
        (placed.follows.wait waits) nofun
  | unlock place unlocks =>
      exact placed.move (by rw [place]; nofun) (by rw [place]; nofun)
        (placed.follows.unlock unlocks) nofun

theorem placed_next {action : Action} (placed : Placed threads state)
    (moved : next threads state action = some after) : Placed threads after := by
  cases moves_of_next moved with
  | main went => exact placed.goMain went
  | createFails => exact placed.goOn placed.follows rfl placed.joined
  | mainSignal main signals =>
      exact placed.goOn (placed.follows.signal signals) (by rw [main]; rfl)
        fun _ small => (Nat.not_lt_zero _ small).elim
  | @threadSignal index _ _ place signals =>
      have follows := placed.follows.signal signals
      have same : state.status (.thread index) = .inside := congrArg ThreadAt.status place
      have unchanged := Function.update_eq_self (Party.thread index) state.status
      rw [same] at unchanged
      exact placed.move (by rw [place]; nofun) (by rw [place]; nofun)
        (unchanged.symm ▸ follows) nofun
  | thread went => exact placed.goThread went
  | relock place relocks =>
      exact placed.move (by rw [place]; nofun) (by rw [place]; nofun)
        (placed.follows.relock relocks) nofun
  | wake wakes =>
      exact ⟨placed.follows.wake wakes, placed.created, placed.within, placed.joined⟩

theorem placed_invariant (threads : ℕ) : (program threads).Invariant (Placed threads) where
  initial _ started := started ▸ placed_start threads
  step _ _ _ placed moved := placed_next placed moved

/-- `main` never waits for the condition. -/
theorem Placed.thread_of_waits (placed : Placed threads state)
    (waits : party ∈ state.monitor.waiting) :
    ∃ index, party = .thread index ∧ state.thread index = .waiting := by
  have status := (placed.follows.waits party).mp (.inl waits)
  cases party with
  | main =>
      change state.main.status = .waiting at status
      rw [status_main] at status
      cases status
  | thread index =>
      change (state.thread index).status = .waiting at status
      cases place : state.thread index with
      | waiting => exact ⟨index, rfl, place⟩
      | absent | locking | locked | signalling | unlocking | done =>
          rw [place] at status
          cases status

/-- A thread that has been woken is still in `pthread_cond_wait`. -/
theorem Placed.place_of_woken (placed : Placed threads state)
    (woken : .thread index ∈ state.monitor.woken) : (state.thread index).status = .waiting :=
  (placed.follows.waits _).mp (.inr woken)

theorem Placed.absent_of_le (placed : Placed threads state) (large : threads ≤ index) :
    state.thread index = .absent := by
  refine Decidable.not_not.mp fun there => Nat.not_lt.mpr large ?_
  exact Nat.lt_of_lt_of_le ((placed.created index).mp there) placed.within

theorem Placed.small_of_way (placed : Placed threads state)
    (way : state.OnItsWay (.thread index)) : index < threads := by
  refine Nat.lt_of_not_le fun large => ?_
  have absent := placed.absent_of_le large
  rcases way with signalling | woken
  · rw [absent] at signalling
    cases signalling
  · have status := placed.place_of_woken woken
    rw [absent] at status
    cases status

end LinuxUnix.WakeUpChain

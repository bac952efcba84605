import LinuxUnix.Foundation.Monitor
import LinuxUnix.Foundation.TransitionSystem
import Mathlib.Data.Int.Init

/-! # Consumers that wait for data

`main` of `thread12` starts some threads, announces a number of data items one after the other,
and joins the threads. Each thread waits until data is there and reports it. The flag
`datenVorhanden` and the number `geteilteDaten` are protected by a mutex; nothing ever takes an
item off the number again.

The number of threads and the number of items are parameters. What a thread does while it holds
the mutex up to its next call is one step. The outputs are left out, except that the reports are
counted.
-/

namespace LinuxUnix.Consumers

open TransitionSystem

inductive Party
  | main
  | client (index : ℕ)
  deriving DecidableEq

/-- Where `main` is. -/
inductive MainAt
  /-- before the `pthread_create` of this thread, or behind the loop -/
  | creating (i : ℕ)
  /-- before the condition of the produce loop -/
  | deciding
  | locking
  /-- behind `pthread_mutex_lock` -/
  | producing
  | signalling
  | unlocking
  /-- before the `pthread_join` of this thread, or behind the loop -/
  | joining (i : ℕ)
  | finished
  deriving DecidableEq

/-- Where a thread is. -/
inductive ClientAt
  /-- it has not been created -/
  | absent
  | locking
  /-- before `--retries` -/
  | deciding
  /-- before `!datenVorhanden` -/
  | testing
  /-- in `pthread_cond_wait` -/
  | waiting
  /-- before the message that data has been reported -/
  | reporting
  | unlocking
  | done
  deriving DecidableEq

structure Client where
  place : ClientAt
  retries : ℤ

/-- The program, with the number of signals that `main` has sent and the number of reports. -/
structure State where
  main : MainAt
  /-- `exit(EXIT_FAILURE)` has been called -/
  exited : Bool
  anzahlDaten : ℕ
  client : ℕ → Client
  monitor : Monitor Party
  datenVorhanden : Bool
  geteilteDaten : ℕ
  signals : ℕ
  reported : ℕ

inductive Action
  /-- a step of `main` other than the following two -/
  | main
  /-- `pthread_create` fails -/
  | createFails
  /-- `main` signals, and these threads are woken -/
  | signal (woken : Finset Party)
  /-- a step of a thread outside of `pthread_cond_wait` -/
  | client (index : ℕ)
  /-- a thread that has been woken gets the mutex -/
  | relock (index : ℕ)
  /-- a thread is woken without a signal -/
  | wake (index : ℕ)

/-- A step of `main`. -/
def State.goMain (threads : ℕ) (state : State) : Option State :=
  match state.main with
  | .creating i =>
      if i < threads then
        some { state with
          main := .creating (i + 1)
          client := Function.update state.client i { place := .locking, retries := 2 } }
      else some { state with main := .deciding }
  | .deciding => match state.anzahlDaten with
    | 0 => some { state with main := .joining 0 }
    | left + 1 => some { state with main := .locking, anzahlDaten := left }
  | .locking => (state.monitor.lock .main).map fun monitor =>
      { state with main := .producing, monitor }
  | .producing => some { state with
      main := .signalling
      geteilteDaten := state.geteilteDaten + 1
      datenVorhanden := true }
  | .unlocking => (state.monitor.unlock .main).map fun monitor =>
      { state with main := .deciding, monitor }
  | .joining i =>
      if i < threads then
        if (state.client i).place = .done then some { state with main := .joining (i + 1) }
        else none
      else some { state with main := .finished }
  | .signalling | .finished => none

/-- The state with a thread at another place. -/
def State.move (state : State) (index : ℕ) (place : ClientAt) : State :=
  { state with client := Function.update state.client index { state.client index with place } }

/-- A step of a thread outside of `pthread_cond_wait`. -/
def State.goClient (state : State) (index : ℕ) : Option State :=
  match (state.client index).place with
  | .locking => (state.monitor.lock (.client index)).map fun monitor =>
      { state.move index .deciding with monitor }
  | .deciding =>
      let retries := (state.client index).retries - 1
      some { state with client := Function.update state.client index {
        place := if retries ≠ 0 then .testing else .unlocking
        retries := retries } }
  | .testing =>
      if state.datenVorhanden then some (state.move index .reporting)
      else (state.monitor.wait (.client index)).map fun monitor =>
        { state.move index .waiting with monitor }
  | .reporting => some { state.move index .deciding with
      reported := state.reported + 1
      datenVorhanden := if state.geteilteDaten = 0 then false else state.datenVorhanden }
  | .unlocking => (state.monitor.unlock (.client index)).map fun monitor =>
      { state.move index .done with monitor }
  | .absent | .waiting | .done => none

/-- The step function of the program; after `exit` there are no steps. -/
def next (threads : ℕ) (state : State) (action : Action) : Option State :=
  if state.exited then none
  else match action with
  | .main => state.goMain threads
  | .createFails => match state.main with
    | .creating i => if i < threads then some { state with exited := true } else none
    | _ => none
  | .signal woken =>
      if state.main = .signalling then
        (state.monitor.signal woken).map fun monitor =>
          { state with main := .unlocking, monitor, signals := state.signals + 1 }
      else none
  | .client index => state.goClient index
  | .relock index =>
      if (state.client index).place = .waiting then
        (state.monitor.relock (.client index)).map fun monitor =>
          { state.move index .testing with monitor }
      else none
  | .wake index => (state.monitor.wake (.client index)).map fun monitor => { state with monitor }

/-- The program before its first step. -/
def start (items : ℕ) : State where
  main := .creating 0
  exited := false
  anzahlDaten := items
  client _ := { place := .absent, retries := 0 }
  monitor := .start
  datenVorhanden := false
  geteilteDaten := 0
  signals := 0
  reported := 0

/-- `thread12` with so many threads and so many items. -/
def program (threads items : ℕ) : TransitionSystem State Action :=
  .ofFunction (fun state => state = start items) (next threads)

/-- `main` has the mutex between its `pthread_mutex_lock` and `pthread_mutex_unlock`. -/
def MainAt.status : MainAt → Monitor.Status
  | .producing | .signalling | .unlocking => .inside
  | .creating _ | .deciding | .locking | .joining _ | .finished => .outside

def ClientAt.status : ClientAt → Monitor.Status
  | .deciding | .testing | .reporting | .unlocking => .inside
  | .waiting => .waiting
  | .absent | .locking | .done => .outside

def State.status (state : State) : Party → Monitor.Status
  | .main => state.main.status
  | .client index => (state.client index).place.status

/-- How many threads `main` has created. -/
def MainAt.created (threads : ℕ) : MainAt → ℕ
  | .creating i => i
  | .deciding | .locking | .producing | .signalling | .unlocking | .joining _ | .finished =>
      threads

/-- What `retries` is at each place: the loop is gone through once. -/
def Client.Counts (client : Client) : Prop :=
  match client.place with
  | .absent => True
  | .locking => client.retries = 2
  | .deciding => client.retries = 2 ∨ client.retries = 1
  | .testing | .waiting | .reporting => client.retries = 1
  | .unlocking | .done => client.retries = 0

/-- Where `main` and the threads are, and who has the mutex. -/
structure Placed (threads : ℕ) (state : State) : Prop where
  follows : state.monitor.Follows state.status
  created : ∀ index, (state.client index).place ≠ .absent ↔ index < state.main.created threads
  within : state.main.created threads ≤ threads
  counts : ∀ index, (state.client index).Counts

variable {threads items : ℕ} {state after : State} {index : ℕ} {client : Client}

/-- What a step of `main` does. -/
inductive MainGoes (threads : ℕ) (state : State) : State → Prop
  | create {i : ℕ} (main : state.main = .creating i) (more : i < threads) :
      MainGoes threads state { state with
        main := .creating (i + 1)
        client := Function.update state.client i { place := .locking, retries := 2 } }
  | created {i : ℕ} (main : state.main = .creating i) (all : threads ≤ i) :
      MainGoes threads state { state with main := .deciding }
  | last (main : state.main = .deciding) (left : state.anzahlDaten = 0) :
      MainGoes threads state { state with main := .joining 0 }
  | another {less : ℕ} (main : state.main = .deciding) (left : state.anzahlDaten = less + 1) :
      MainGoes threads state { state with main := .locking, anzahlDaten := less }
  | lock {monitor : Monitor Party} (main : state.main = .locking)
      (locks : state.monitor.lock .main = some monitor) :
      MainGoes threads state { state with main := .producing, monitor }
  | produce (main : state.main = .producing) :
      MainGoes threads state { state with
        main := .signalling
        geteilteDaten := state.geteilteDaten + 1
        datenVorhanden := true }
  | unlock {monitor : Monitor Party} (main : state.main = .unlocking)
      (unlocks : state.monitor.unlock .main = some monitor) :
      MainGoes threads state { state with main := .deciding, monitor }
  | join {i : ℕ} (main : state.main = .joining i) (more : i < threads)
      (done : (state.client i).place = .done) :
      MainGoes threads state { state with main := .joining (i + 1) }
  | joined {i : ℕ} (main : state.main = .joining i) (all : threads ≤ i) :
      MainGoes threads state { state with main := .finished }

theorem mainGoes_of_goMain (went : state.goMain threads = some after) :
    MainGoes threads state after := by
  cases main : state.main with
  | creating i =>
      by_cases more : i < threads
      · simp only [State.goMain, main, more, ↓reduceIte, Option.some.injEq] at went
        exact went ▸ .create main more
      · simp only [State.goMain, main, more, ↓reduceIte, Option.some.injEq] at went
        exact went ▸ .created main (Nat.le_of_not_lt more)
  | deciding =>
      simp only [State.goMain, main] at went
      split at went
      next left => exact Option.some.inj went ▸ .last main left
      next left => exact Option.some.inj went ▸ .another main left
  | locking =>
      simp only [State.goMain, main, Option.map_eq_some_iff] at went
      obtain ⟨monitor, locks, rfl⟩ := went
      exact .lock main locks
  | producing =>
      simp only [State.goMain, main, Option.some.injEq] at went
      exact went ▸ .produce main
  | unlocking =>
      simp only [State.goMain, main, Option.map_eq_some_iff] at went
      obtain ⟨monitor, unlocks, rfl⟩ := went
      exact .unlock main unlocks
  | joining i =>
      by_cases more : i < threads
      · simp only [State.goMain, main, more, ↓reduceIte, Option.ite_none_right_eq_some,
          Option.some.injEq] at went
        obtain ⟨done, rfl⟩ := went
        exact .join main more done
      · simp only [State.goMain, main, more, ↓reduceIte, Option.some.injEq] at went
        exact went ▸ .joined main (Nat.le_of_not_lt more)
  | signalling | finished =>
      simp only [State.goMain, main] at went
      cases went

/-- What a step of a thread does. -/
inductive ClientGoes (state : State) (index : ℕ) : State → Prop
  | lock {monitor : Monitor Party} (place : (state.client index).place = .locking)
      (locks : state.monitor.lock (.client index) = some monitor) :
      ClientGoes state index { state.move index .deciding with monitor }
  | decide (place : (state.client index).place = .deciding) :
      ClientGoes state index { state with client := Function.update state.client index {
        place := if (state.client index).retries - 1 ≠ 0 then .testing else .unlocking
        retries := (state.client index).retries - 1 } }
  | pass (place : (state.client index).place = .testing) (flag : state.datenVorhanden = true) :
      ClientGoes state index (state.move index .reporting)
  | wait {monitor : Monitor Party} (place : (state.client index).place = .testing)
      (flag : state.datenVorhanden = false)
      (waits : state.monitor.wait (.client index) = some monitor) :
      ClientGoes state index { state.move index .waiting with monitor }
  | report (place : (state.client index).place = .reporting) :
      ClientGoes state index { state.move index .deciding with
        reported := state.reported + 1
        datenVorhanden := if state.geteilteDaten = 0 then false else state.datenVorhanden }
  | unlock {monitor : Monitor Party} (place : (state.client index).place = .unlocking)
      (unlocks : state.monitor.unlock (.client index) = some monitor) :
      ClientGoes state index { state.move index .done with monitor }

theorem clientGoes_of_goClient (went : state.goClient index = some after) :
    ClientGoes state index after := by
  cases place : (state.client index).place with
  | locking =>
      simp only [State.goClient, place, Option.map_eq_some_iff] at went
      obtain ⟨monitor, locks, rfl⟩ := went
      exact .lock place locks
  | deciding =>
      simp only [State.goClient, place, Option.some.injEq] at went
      exact went ▸ .decide place
  | testing =>
      cases flag : state.datenVorhanden with
      | true =>
          simp only [State.goClient, place, flag, ↓reduceIte, Option.some.injEq] at went
          exact went ▸ .pass place flag
      | false =>
          simp only [State.goClient, place, flag, Bool.false_eq_true, ↓reduceIte,
            Option.map_eq_some_iff] at went
          obtain ⟨monitor, waits, rfl⟩ := went
          exact .wait place flag waits
  | reporting =>
      simp only [State.goClient, place, Option.some.injEq] at went
      exact went ▸ .report place
  | unlocking =>
      simp only [State.goClient, place, Option.map_eq_some_iff] at went
      obtain ⟨monitor, unlocks, rfl⟩ := went
      exact .unlock place unlocks
  | absent | waiting | done =>
      simp only [State.goClient, place] at went
      cases went

theorem status_main (same : after.client = state.client) :
    after.status = Function.update state.status .main after.main.status := by
  funext party
  cases party with
  | main => exact (Function.update_self Party.main _ state.status).symm
  | client index =>
      have other : Party.client index ≠ .main := nofun
      rw [Function.update_of_ne other]
      exact congrArg (fun client : ℕ → Client => (client index).place.status) same

theorem status_client (same : after.main = state.main)
    (moved : after.client = Function.update state.client index client) :
    after.status = Function.update state.status (.client index) client.place.status := by
  funext party
  by_cases here : party = .client index
  · subst here
    rw [Function.update_self]
    exact congrArg (·.place.status)
      ((congrFun moved index).trans (Function.update_self ..))
  · rw [Function.update_of_ne here]
    cases party with
    | main => exact congrArg MainAt.status same
    | client other =>
        have different : other ≠ index := fun equal => here (congrArg Party.client equal)
        exact congrArg (·.place.status)
          ((congrFun moved other).trans (Function.update_of_ne different ..))

/-- A step of `main` that changes nothing of the threads. -/
theorem Placed.ofMain (placed : Placed threads state) (same : after.client = state.client)
    (follows : after.monitor.Follows (Function.update state.status .main after.main.status))
    (created : after.main.created threads = state.main.created threads) :
    Placed threads after where
  follows := by
    rw [status_main same]
    exact follows
  created index := by
    rw [same, created]
    exact placed.created index
  within := by
    rw [created]
    exact placed.within
  counts := by
    rw [same]
    exact placed.counts

/-- A step of a thread. -/
theorem Placed.ofClient (placed : Placed threads state)
    (present : (state.client index).place ≠ .absent) (same : after.main = state.main)
    (moved : after.client = Function.update state.client index client)
    (follows : after.monitor.Follows
      (Function.update state.status (.client index) client.place.status))
    (there : client.place ≠ .absent) (counts : client.Counts) : Placed threads after where
  follows := by
    rw [status_client same moved]
    exact follows
  created := by
    rw [same, moved]
    refine (Function.forall_update_iff state.client fun other client =>
      client.place ≠ .absent ↔ other < state.main.created threads).mpr ⟨?_, fun other _ => ?_⟩
    · exact iff_of_true there ((placed.created index).mp present)
    · exact placed.created other
  within := by
    rw [same]
    exact placed.within
  counts := by
    rw [moved]
    exact (Function.forall_update_iff state.client fun _ client => client.Counts).mpr
      ⟨counts, fun other _ => placed.counts other⟩

/-- A step of `main` outside of its calls. -/
theorem Placed.goOn (placed : Placed threads state) (same : after.client = state.client)
    (monitor : after.monitor = state.monitor) (status : after.main.status = state.main.status)
    (created : after.main.created threads = state.main.created threads) :
    Placed threads after := by
  refine placed.ofMain same ?_ created
  rw [status, monitor]
  exact (Function.update_eq_self Party.main state.status).symm ▸ placed.follows

theorem placed_start (threads items : ℕ) : Placed threads (start items) where
  follows := by
    refine Monitor.follows_start fun party => ?_
    cases party <;> rfl
  created index := ⟨fun there => absurd rfl there, fun small => (Nat.not_lt_zero _ small).elim⟩
  within := Nat.zero_le _
  counts _ := trivial

/-- A new thread. -/
theorem Placed.create {i : ℕ} (placed : Placed threads state) (main : state.main = .creating i)
    (more : i < threads) (absent : (state.client i).place = .absent) :
    Placed threads { state with
      main := .creating (i + 1)
      client := Function.update state.client i { place := .locking, retries := 2 } } where
  follows := by
    have same : (State.status { state with
        main := .creating (i + 1)
        client := Function.update state.client i { place := .locking, retries := 2 } }) =
          state.status := by
      funext party
      cases party with
      | main => exact (congrArg MainAt.status main).symm
      | client index =>
          change (Function.update state.client i _ index).place.status =
            (state.client index).place.status
          by_cases here : index = i
          · subst here
            rw [Function.update_self, absent]
            rfl
          · rw [Function.update_of_ne here]
    rw [same]
    exact placed.follows
  created := by
    have created := placed.created
    rw [main] at created
    refine (Function.forall_update_iff state.client fun index client =>
      client.place ≠ .absent ↔ index < i + 1).mpr ⟨?_, fun index here => ?_⟩
    · exact iff_of_true nofun (Nat.lt_succ_self i)
    · rw [created]
      change index < i ↔ index < i + 1
      omega
  within := more
  counts := (Function.forall_update_iff state.client fun _ client => client.Counts).mpr
    ⟨rfl, fun index _ => placed.counts index⟩

theorem Placed.goMain (placed : Placed threads state)
    (went : state.goMain threads = some after) : Placed threads after := by
  have created := placed.created
  have within := placed.within
  cases mainGoes_of_goMain went with
  | @create i main more =>
      rw [main] at created
      have absent : (state.client i).place = .absent :=
        Decidable.not_not.mp fun there => Nat.lt_irrefl i ((created i).mp there)
      exact placed.create main more absent
  | created main all =>
      rw [main] at within
      exact placed.goOn rfl rfl (by rw [main]; rfl) (by rw [main]; exact Nat.le_antisymm all within)
  | last main _ => exact placed.goOn rfl rfl (by rw [main]; rfl) (by rw [main]; rfl)
  | another main _ => exact placed.goOn rfl rfl (by rw [main]; rfl) (by rw [main]; rfl)
  | lock main locks =>
      exact placed.ofMain rfl (placed.follows.lock (congrArg MainAt.status main) locks)
        (congrArg (MainAt.created threads) main).symm
  | produce main => exact placed.goOn rfl rfl (by rw [main]; rfl) (by rw [main]; rfl)
  | unlock main unlocks =>
      exact placed.ofMain rfl (placed.follows.unlock unlocks)
        (congrArg (MainAt.created threads) main).symm
  | join main _ _ => exact placed.goOn rfl rfl (by rw [main]; rfl) (by rw [main]; rfl)
  | joined main _ => exact placed.goOn rfl rfl (by rw [main]; rfl) (by rw [main]; rfl)

theorem Placed.goClient (placed : Placed threads state)
    (went : state.goClient index = some after) : Placed threads after := by
  have counts := placed.counts index
  have present : ∀ {place : ClientAt}, (state.client index).place = place → place ≠ .absent →
      (state.client index).place ≠ .absent := fun here there => here ▸ there
  have stays : ∀ {place : ClientAt}, (state.client index).place.status = place.status →
      state.monitor.Follows (Function.update state.status (.client index) place.status) :=
    fun same => same ▸ (Function.update_eq_self (Party.client index) state.status).symm ▸
      placed.follows
  cases clientGoes_of_goClient went with
  | lock place locks =>
      simp only [Client.Counts, place] at counts
      exact placed.ofClient (present place nofun) rfl rfl
        (placed.follows.lock (congrArg ClientAt.status place) locks) nofun (.inl counts)
  | decide place =>
      simp only [Client.Counts, place] at counts
      rcases counts with two | one
      · rw [two]
        exact placed.ofClient (present place nofun) rfl rfl (stays (by rw [place]; rfl)) nofun rfl
      · rw [one]
        exact placed.ofClient (present place nofun) rfl rfl (stays (by rw [place]; rfl)) nofun rfl
  | pass place _ =>
      simp only [Client.Counts, place] at counts
      exact placed.ofClient (present place nofun) rfl rfl (stays (by rw [place]; rfl)) nofun counts
  | wait place _ waits =>
      simp only [Client.Counts, place] at counts
      exact placed.ofClient (present place nofun) rfl rfl (placed.follows.wait waits) nofun counts
  | report place =>
      simp only [Client.Counts, place] at counts
      exact placed.ofClient (present place nofun) rfl rfl (stays (by rw [place]; rfl)) nofun
        (.inr counts)
  | unlock place unlocks =>
      simp only [Client.Counts, place] at counts
      exact placed.ofClient (present place nofun) rfl rfl (placed.follows.unlock unlocks) nofun
        counts

/-- What a step does. -/
inductive Moves (threads : ℕ) (state : State) : Action → State → Prop
  | main {after : State} (went : state.goMain threads = some after) :
      Moves threads state .main after
  | createFails {i : ℕ} (more : i < threads) (main : state.main = .creating i) :
      Moves threads state .createFails { state with exited := true }
  | signal {woken : Finset Party} {monitor : Monitor Party} (main : state.main = .signalling)
      (signals : state.monitor.signal woken = some monitor) :
      Moves threads state (.signal woken)
        { state with main := .unlocking, monitor, signals := state.signals + 1 }
  | client {index : ℕ} {after : State} (went : state.goClient index = some after) :
      Moves threads state (.client index) after
  | relock {index : ℕ} {monitor : Monitor Party} (place : (state.client index).place = .waiting)
      (relocks : state.monitor.relock (.client index) = some monitor) :
      Moves threads state (.relock index) { state.move index .testing with monitor }
  | wake {index : ℕ} {monitor : Monitor Party}
      (wakes : state.monitor.wake (.client index) = some monitor) :
      Moves threads state (.wake index) { state with monitor }

theorem moves_of_next {action : Action} (moved : next threads state action = some after) :
    Moves threads state action after := by
  unfold next at moved
  have moved := (Option.ite_none_left_eq_some.mp moved).2
  cases action with
  | main => exact .main moved
  | createFails =>
      cases main : state.main with
      | creating i =>
          simp only [main, Option.ite_none_right_eq_some, Option.some.injEq] at moved
          obtain ⟨more, rfl⟩ := moved
          rw [← main]
          exact .createFails more main
      | deciding | locking | producing | signalling | unlocking | joining _ | finished =>
          simp only [main] at moved
          cases moved
  | signal woken =>
      simp only [Option.ite_none_right_eq_some, Option.map_eq_some_iff] at moved
      obtain ⟨main, monitor, signals, rfl⟩ := moved
      exact .signal main signals
  | client index => exact .client moved
  | relock index =>
      simp only [Option.ite_none_right_eq_some, Option.map_eq_some_iff] at moved
      obtain ⟨place, monitor, relocks, rfl⟩ := moved
      exact .relock place relocks
  | wake index =>
      simp only [Option.map_eq_some_iff] at moved
      obtain ⟨monitor, wakes, rfl⟩ := moved
      exact .wake wakes

theorem placed_next {action : Action} (placed : Placed threads state)
    (moved : next threads state action = some after) : Placed threads after := by
  cases moves_of_next moved with
  | main went => exact placed.goMain went
  | createFails => exact placed.goOn rfl rfl rfl rfl
  | signal main signals =>
      refine placed.ofMain rfl ?_ (by rw [main]; rfl)
      have same : state.status .main = .inside := congrArg MainAt.status main
      have unchanged := Function.update_eq_self Party.main state.status
      rw [same] at unchanged
      exact unchanged.symm ▸ placed.follows.signal signals
  | client went => exact placed.goClient went
  | @relock index _ place relocks =>
      have counts := placed.counts index
      simp only [Client.Counts, place] at counts
      exact placed.ofClient (by rw [place]; nofun) rfl rfl (placed.follows.relock relocks) nofun
        counts
  | wake wakes =>
      exact ⟨placed.follows.wake wakes, placed.created, placed.within, placed.counts⟩

theorem placed_invariant (threads items : ℕ) :
    (program threads items).Invariant (Placed threads) where
  initial := by
    rintro _ rfl
    exact placed_start threads items
  step _ _ _ placed moved := placed_next placed moved

end LinuxUnix.Consumers

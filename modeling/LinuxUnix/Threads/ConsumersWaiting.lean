import LinuxUnix.Threads.Consumers
import Mathlib.Algebra.Order.BigOperators.Group.Finset

/-! # No consumer waits forever

A thread only waits as long as nothing has been announced; later ones find the flag set, which is
never taken back. So the threads that wait are those that waited before the first signal, and
each signal wakes one of them at least: if there are no more threads than items, nobody waits
after the last signal (`LinuxUnix.Consumers.lively_of_reachable`).
-/

namespace LinuxUnix.Consumers

open TransitionSystem

/-- The wake-ups that nobody can rely on. -/
def Action.spurious : Action → Prop
  | .wake _ => True
  | .main | .createFails | .signal _ | .client _ | .relock _ => False

/-- The steps that are not wake-ups without a signal. -/
def Proper (_ : State) (action : Action) : Prop :=
  ¬ action.spurious

instance (state : State) : ∀ action, Decidable (Proper state action)
  | .wake _ => isFalse fun proper => proper trivial
  | .main | .createFails | .signal _ | .client _ | .relock _ => isTrue id

/-- `main` has joined all threads, or has given up. -/
def State.Over (state : State) : Prop :=
  state.main = .finished ∨ state.exited = true

/-- The program is not stuck. As long as it is not over, a step is possible that is not a
wake-up without a signal; after the last signal nobody waits for another one; and without such
wake-ups the steps come to an end. -/
structure Lively (threads items : ℕ) (state : State) : Prop where
  goesOn : ¬ state.Over →
    ∃ action after, ((program threads items).restrict Proper).step state action after
  nobodyWaits : state.signals = items → state.monitor.waiting = ∅
  ends : ((program threads items).restrict Proper).Terminates state

/-- An item that `main` has still to announce, besides `anzahlDaten`. -/
def MainAt.pending : MainAt → ℕ
  | .locking | .producing => 1
  | .creating _ | .deciding | .signalling | .unlocking | .joining _ | .finished => 0

/-- A signal that `main` has still to send for an item. -/
def MainAt.unsignalled : MainAt → ℕ
  | .signalling => 1
  | .creating _ | .deciding | .locking | .producing | .unlocking | .joining _ | .finished => 0

/-- Behind the produce loop. -/
def MainAt.joins : MainAt → Prop
  | .joining _ | .finished => True
  | .creating _ | .deciding | .locking | .producing | .signalling | .unlocking => False

/-- The flag and the number stay in step, and so do the signals. -/
structure Announced (items : ℕ) (state : State) : Prop where
  flag : state.datenVorhanden = true ↔ 0 < state.geteilteDaten
  shared : state.geteilteDaten = state.signals + state.main.unsignalled
  all : items = state.anzahlDaten + state.main.pending + state.geteilteDaten
  last : state.main.joins → state.anzahlDaten = 0

variable {threads items : ℕ} {state after : State} {index : ℕ}

/-- What a step of a thread leaves alone. -/
theorem goClient_frame (went : state.goClient index = some after) :
    after.main = state.main ∧ after.exited = state.exited ∧
      after.anzahlDaten = state.anzahlDaten ∧ after.geteilteDaten = state.geteilteDaten ∧
      after.signals = state.signals ∧ (after.datenVorhanden = state.datenVorhanden ∨
        state.geteilteDaten = 0 ∧ after.datenVorhanden = false) := by
  cases clientGoes_of_goClient went with
  | lock | decide | pass | wait | unlock => exact ⟨rfl, rfl, rfl, rfl, rfl, .inl rfl⟩
  | report =>
      refine ⟨rfl, rfl, rfl, rfl, rfl, ?_⟩
      by_cases none_ : state.geteilteDaten = 0
      · exact .inr ⟨none_, if_pos none_⟩
      · exact .inl (if_neg none_)

theorem Announced.frame (announced : Announced items state) (main : after.main = state.main)
    (left : after.anzahlDaten = state.anzahlDaten)
    (shared : after.geteilteDaten = state.geteilteDaten) (signals : after.signals = state.signals)
    (flag : after.datenVorhanden = true ↔ state.datenVorhanden = true) :
    Announced items after where
  flag := by rw [flag, shared, announced.flag]
  shared := by rw [shared, signals, main, announced.shared]
  all := by rw [left, main, shared, ← announced.all]
  last := by
    rw [left, main]
    exact announced.last

theorem Announced.goMain (announced : Announced items state)
    (went : state.goMain threads = some after) : Announced items after := by
  obtain ⟨flag, shared, all, last⟩ := announced
  cases mainGoes_of_goMain went with
  | create main _ | created main _ | lock main _ | unlock main _ =>
      simp only [main, MainAt.unsignalled, MainAt.pending] at shared all
      exact ⟨flag, shared, all, False.elim⟩
  | last main left =>
      simp only [main, MainAt.unsignalled, MainAt.pending] at shared all
      exact ⟨flag, shared, all, fun _ => left⟩
  | another main left =>
      simp only [main, MainAt.unsignalled, MainAt.pending] at shared all
      exact ⟨flag, shared, left ▸ all, False.elim⟩
  | produce main =>
      simp only [main, MainAt.unsignalled, MainAt.pending] at shared all
      refine ⟨⟨fun _ => Nat.succ_pos _, fun _ => rfl⟩, congrArg (· + 1) shared, ?_, False.elim⟩
      rw [all, Nat.add_right_comm, Nat.add_assoc]
      rfl
  | join main _ _ | joined main _ =>
      have left := last (by rw [main]; trivial)
      simp only [main, MainAt.unsignalled, MainAt.pending] at shared all
      exact ⟨flag, shared, all, fun _ => left⟩

theorem announced_next {action : Action} (announced : Announced items state)
    (moved : next threads state action = some after) : Announced items after := by
  cases moves_of_next moved with
  | main went => exact announced.goMain went
  | createFails => exact announced.frame rfl rfl rfl rfl Iff.rfl
  | signal main signals =>
      obtain ⟨flag, shared, all, _⟩ := announced
      simp only [main, MainAt.unsignalled, MainAt.pending] at shared all
      exact ⟨flag, shared, all, False.elim⟩
  | client went =>
      obtain ⟨main, _, left, shared, signals, flag⟩ := goClient_frame went
      refine announced.frame main left shared signals ?_
      rcases flag with same | ⟨none_, reset⟩
      · rw [same]
      · rw [reset, announced.flag, none_]
        exact ⟨nofun, nofun⟩
  | relock | wake => exact announced.frame rfl rfl rfl rfl Iff.rfl

theorem announced_start (items : ℕ) : Announced items (start items) where
  flag := ⟨nofun, nofun⟩
  shared := rfl
  all := rfl
  last := False.elim

/-- The invariant: at most as many threads wait as have not been reached by a signal. -/
structure Fed (threads items : ℕ) (state : State) : Prop where
  placed : Placed threads state
  announced : Announced items state
  few : state.monitor.waiting.card ≤ threads - state.signals

theorem Placed.waiting_lt (placed : Placed threads state) {party : Party}
    (waits : party ∈ state.monitor.waiting) : ∃ index < threads, Party.client index = party := by
  have status := (placed.follows.waits party).mp (.inl waits)
  cases party with
  | main =>
      change state.main.status = .waiting at status
      cases main : state.main <;> rw [main] at status <;> cases status
  | client index =>
      refine ⟨index, ?_, rfl⟩
      have there : (state.client index).place ≠ .absent := by
        intro absent
        change (state.client index).place.status = .waiting at status
        rw [absent] at status
        cases status
      exact Nat.lt_of_lt_of_le ((placed.created index).mp there) placed.within

theorem Placed.card_le (placed : Placed threads state) :
    state.monitor.waiting.card ≤ threads := by
  have inside : state.monitor.waiting ⊆ (Finset.range threads).image Party.client := by
    intro party waits
    obtain ⟨index, small, rfl⟩ := placed.waiting_lt waits
    exact Finset.mem_image_of_mem _ (Finset.mem_range.mpr small)
  calc state.monitor.waiting.card ≤ ((Finset.range threads).image Party.client).card :=
        Finset.card_le_card inside
    _ ≤ (Finset.range threads).card := Finset.card_image_le
    _ = threads := Finset.card_range threads

theorem goMain_waiting (went : state.goMain threads = some after) :
    after.monitor.waiting = state.monitor.waiting ∧ after.signals = state.signals := by
  cases mainGoes_of_goMain went with
  | lock _ locks =>
      obtain ⟨_, rfl⟩ := Monitor.lock_eq_some_iff.mp locks
      exact ⟨rfl, rfl⟩
  | unlock _ unlocks =>
      obtain ⟨_, rfl⟩ := Monitor.unlock_eq_some_iff.mp unlocks
      exact ⟨rfl, rfl⟩
  | create | created | last | another | produce | join | joined => exact ⟨rfl, rfl⟩

/-- A thread waits only if the flag is not set. -/
theorem goClient_waiting (went : state.goClient index = some after) :
    after.monitor.waiting = state.monitor.waiting ∨ state.datenVorhanden = false := by
  cases clientGoes_of_goClient went with
  | lock _ locks =>
      obtain ⟨_, rfl⟩ := Monitor.lock_eq_some_iff.mp locks
      exact .inl rfl
  | unlock _ unlocks =>
      obtain ⟨_, rfl⟩ := Monitor.unlock_eq_some_iff.mp unlocks
      exact .inl rfl
  | decide | pass | report => exact .inl rfl
  | wait _ flag _ => exact .inr flag

theorem fed_next {action : Action} (fed : Fed threads items state)
    (moved : next threads state action = some after) : Fed threads items after := by
  have placed := placed_next fed.placed moved
  have announced := announced_next fed.announced moved
  refine ⟨placed, announced, ?_⟩
  have few := fed.few
  cases moves_of_next moved with
  | main went =>
      obtain ⟨waiting, signals⟩ := goMain_waiting went
      rw [waiting, signals]
      exact few
  | createFails => exact few
  | signal _ signals =>
      have fewer := (Monitor.card_signal signals).trans (Nat.sub_le_sub_right few 1)
      exact fewer.trans_eq (Nat.sub_sub ..)
  | client went =>
      obtain ⟨_, _, _, _, signals, _⟩ := goClient_frame went
      rw [signals]
      rcases goClient_waiting went with same | early
      · rw [same]
        exact few
      · -- nothing has been announced, so there has been no signal
        have nothing : state.geteilteDaten = 0 := by
          refine Nat.eq_zero_of_not_pos fun positive => ?_
          rw [fed.announced.flag.mpr positive] at early
          cases early
        have silent := fed.announced.shared
        have all := placed.card_le
        omega
  | relock _ relocks =>
      obtain ⟨_, rfl⟩ := Monitor.relock_eq_some_iff.mp relocks
      exact few
  | wake wakes =>
      obtain ⟨_, rfl⟩ := Monitor.wake_eq_some_iff.mp wakes
      exact (Finset.card_le_card (Finset.erase_subset ..)).trans few

theorem fed_invariant (threads items : ℕ) :
    (program threads items).Invariant (Fed threads items) where
  initial := by
    rintro _ rfl
    exact ⟨placed_start threads items, announced_start items, Nat.zero_le _⟩
  step _ _ _ fed moved := fed_next fed moved

/-- After the last signal nobody waits. -/
theorem Fed.nobodyWaits (fed : Fed threads items state) (enough : threads ≤ items)
    (last : state.signals = items) : state.monitor.waiting = ∅ := by
  have few := fed.few
  rw [last, Nat.sub_eq_zero_of_le enough] at few
  exact Finset.card_eq_zero.mp (Nat.le_zero.mp few)

/-- Behind the produce loop all signals have been sent. -/
theorem Announced.signals_eq (announced : Announced items state) (joins : state.main.joins) :
    state.signals = items := by
  have shared := announced.shared
  have all := announced.all
  have left := announced.last joins
  cases main : state.main <;> rw [main] at joins shared all
  case joining => simp only [MainAt.unsignalled, MainAt.pending] at shared all; omega
  case finished => simp only [MainAt.unsignalled, MainAt.pending] at shared all; omega
  all_goals exact joins.elim

/-- A thread that has the mutex can go on. -/
theorem Placed.client_goesOn (placed : Placed threads state)
    (holder : state.monitor.holder = some (.client index)) : (state.goClient index).isSome := by
  have inside : (state.client index).place.status = .inside :=
    (placed.follows.holds _).mp holder
  cases place : (state.client index).place with
  | deciding | reporting =>
      rw [State.goClient, place]
      rfl
  | testing =>
      rw [State.goClient, place]
      simp only
      split
      · rfl
      · rw [Monitor.wait, if_pos holder]
        rfl
  | unlocking =>
      rw [State.goClient, place, Monitor.unlock, if_pos holder]
      rfl
  | absent | locking | waiting | done =>
      rw [place] at inside
      cases inside

/-- `main` can go on if it has the mutex. -/
theorem Placed.main_goesOn (placed : Placed threads state) (running : state.exited = false)
    (holder : state.monitor.holder = some .main) :
    ∃ action, Proper state action ∧ (next threads state action).isSome := by
  have inside : state.main.status = .inside := (placed.follows.holds _).mp holder
  cases main : state.main with
  | producing =>
      refine ⟨.main, id, ?_⟩
      simp only [next, running, State.goMain, main]
      rfl
  | signalling =>
      refine ⟨.signal state.monitor.waiting, id, ?_⟩
      simp only [next, running, main]
      exact (Option.isSome_map ..).trans (Monitor.signal_all _)
  | unlocking =>
      refine ⟨.main, id, ?_⟩
      simp only [next, running, State.goMain, main, Monitor.unlock, holder]
      rfl
  | creating _ | deciding | locking | joining _ | finished =>
      rw [main] at inside
      cases inside

/-- A thread that `main` waits for can go on if the mutex is free and no thread waits for a
signal. -/
theorem Placed.joined_goesOn (placed : Placed threads state) (running : state.exited = false)
    (free : state.monitor.holder = none) (nobody : state.monitor.waiting = ∅)
    (created : (state.client index).place ≠ .absent)
    (working : (state.client index).place ≠ .done) :
    ∃ action, Proper state action ∧ (next threads state action).isSome := by
  have outside : (state.client index).place.status ≠ .inside := by
    intro inside
    rw [(placed.follows.holds (.client index)).mpr inside] at free
    cases free
  cases place : (state.client index).place with
  | absent => exact absurd place created
  | locking =>
      refine ⟨.client index, id, ?_⟩
      simp only [next, running, State.goClient, place, Monitor.lock, free]
      rfl
  | waiting =>
      have woken : .client index ∈ state.monitor.woken :=
        placed.follows.woken nobody (congrArg ClientAt.status place)
      refine ⟨.relock index, id, ?_⟩
      simp only [next, running, place, Monitor.relock, free, woken, and_self, ↓reduceIte]
      rfl
  | done => exact absurd place working
  | deciding | testing | reporting | unlocking =>
      rw [place] at outside
      exact absurd rfl outside

/-- As long as the program is not over, a step is possible. -/
theorem Fed.goesOn (fed : Fed threads items state) (enough : threads ≤ items)
    (more : ¬ state.Over) :
    ∃ action, Proper state action ∧ (next threads state action).isSome := by
  obtain ⟨unfinished, running⟩ := not_or.mp more
  rw [Bool.not_eq_true] at running
  cases holder : state.monitor.holder with
  | some party =>
      cases party with
      | main => exact fed.placed.main_goesOn running holder
      | client index =>
          refine ⟨.client index, id, ?_⟩
          simp only [next, running]
          exact fed.placed.client_goesOn holder
  | none =>
      have outside : state.main.status ≠ .inside := by
        intro inside
        rw [(fed.placed.follows.holds .main).mpr inside] at holder
        cases holder
      cases main : state.main with
      | creating i =>
          refine ⟨.main, id, ?_⟩
          simp only [next, running, Bool.false_eq_true, ↓reduceIte, State.goMain, main]
          split <;> rfl
      | deciding =>
          refine ⟨.main, id, ?_⟩
          simp only [next, running, Bool.false_eq_true, ↓reduceIte, State.goMain, main]
          split <;> rfl
      | locking =>
          refine ⟨.main, id, ?_⟩
          simp only [next, running, State.goMain, main, Monitor.lock, holder]
          rfl
      | joining i =>
          have joins : state.main.joins := by rw [main]; trivial
          have nobody := fed.nobodyWaits enough (fed.announced.signals_eq joins)
          by_cases small : i < threads
          · by_cases done : (state.client i).place = .done
            · refine ⟨.main, id, ?_⟩
              simp only [next, running, State.goMain, main, small, done, ↓reduceIte]
              rfl
            · refine fed.placed.joined_goesOn running holder nobody ?_ done
              rw [fed.placed.created, main]
              exact small
          · refine ⟨.main, id, ?_⟩
            simp only [next, running, State.goMain, main, small, ↓reduceIte]
            rfl
      | finished => exact absurd main unfinished
      | producing | signalling | unlocking =>
          rw [main] at outside
          exact absurd rfl outside

/-- How many steps a thread has still to take at most, unless it waits again. -/
def State.rank (state : State) (index : ℕ) : ℕ :=
  match (state.client index).place with
  | .absent | .done => 0
  | .locking => 6
  | .deciding => if (state.client index).retries = 2 then 5 else 2
  | .testing => 4
  | .waiting => if .client index ∈ state.monitor.woken then 5 else 3
  | .reporting => 3
  | .unlocking => 1

/-- How many steps `main` has still to take at most. -/
def State.mainLeft (threads : ℕ) (state : State) : ℕ :=
  if state.exited then 0
  else match state.main with
  | .creating i => 5 * state.anzahlDaten + threads + 3 + (threads - i)
  | .deciding => 5 * state.anzahlDaten + threads + 2
  | .locking => 5 * state.anzahlDaten + threads + 6
  | .producing => 5 * state.anzahlDaten + threads + 5
  | .signalling => 5 * state.anzahlDaten + threads + 4
  | .unlocking => 5 * state.anzahlDaten + threads + 3
  | .joining i => threads - i + 1
  | .finished => 0

/-- A step of `main` counts for more than all that the threads can do. -/
def measure (threads : ℕ) (state : State) : ℕ :=
  (6 * threads + 1) * state.mainLeft threads + ∑ index ∈ Finset.range threads, state.rank index

theorem rank_le (state : State) (index : ℕ) : state.rank index ≤ 6 := by
  unfold State.rank
  split <;> first | omega | (split <;> omega)

theorem sum_rank_le (threads : ℕ) (state : State) :
    ∑ index ∈ Finset.range threads, state.rank index ≤ 6 * threads := by
  calc ∑ index ∈ Finset.range threads, state.rank index ≤ ∑ _ ∈ Finset.range threads, 6 :=
        Finset.sum_le_sum fun index _ => rank_le state index
    _ = (Finset.range threads).card * 6 := Finset.sum_const_nat fun _ _ => rfl
    _ = 6 * threads := by rw [Finset.card_range, Nat.mul_comm]

theorem measure_main (less : after.mainLeft threads < state.mainLeft threads) :
    measure threads after < measure threads state := by
  have bound := sum_rank_le threads after
  have weight := Nat.mul_le_mul_left (6 * threads + 1) less
  rw [measure, measure]
  rw [Nat.mul_succ] at weight
  omega

theorem measure_client (small : index < threads)
    (same : after.mainLeft threads = state.mainLeft threads)
    (others : ∀ other ≠ index, after.rank other = state.rank other)
    (less : after.rank index < state.rank index) :
    measure threads after < measure threads state := by
  rw [measure, measure, same]
  refine Nat.add_lt_add_left (Finset.sum_lt_sum (fun other _ => ?_) ⟨index, ?_, less⟩) _
  · by_cases here : other = index
    · exact here ▸ Nat.le_of_lt less
    · exact Nat.le_of_eq (others other here)
  · exact Finset.mem_range.mpr small

theorem measure_goMain (running : state.exited = false)
    (went : state.goMain threads = some after) : measure threads after < measure threads state := by
  refine measure_main ?_
  cases mainGoes_of_goMain went with
  | last main left | another main left =>
      simp only [State.mainLeft, running, main, left, Bool.false_eq_true, ↓reduceIte]
      omega
  | create main _ | created main _ | lock main _ | produce main | unlock main _ | join main _ _
  | joined main _ =>
      simp only [State.mainLeft, running, main, Bool.false_eq_true, ↓reduceIte]
      omega

/-- What a thread has still to do does not depend on where the others are. -/
theorem rank_of_other {other : ℕ} {client : Client} (different : other ≠ index)
    (moved : after.client = Function.update state.client index client)
    (woken : .client other ∈ after.monitor.woken ↔ Party.client other ∈ state.monitor.woken) :
    after.rank other = state.rank other := by
  have same : after.client other = state.client other :=
    (congrFun moved other).trans (Function.update_of_ne different ..)
  simp only [State.rank, same, woken]

theorem measure_goClient (placed : Placed threads state)
    (went : state.goClient index = some after) : measure threads after < measure threads state := by
  obtain ⟨main, exited, left, _⟩ := goClient_frame went
  have small : (state.client index).place ≠ .absent → index < threads := fun there =>
    Nat.lt_of_lt_of_le ((placed.created index).mp there) placed.within
  have same : after.mainLeft threads = state.mainLeft threads := by
    simp only [State.mainLeft, main, exited, left]
  have counts := placed.counts index
  cases clientGoes_of_goClient went with
  | lock place locks =>
      obtain ⟨_, rfl⟩ := Monitor.lock_eq_some_iff.mp locks
      refine measure_client (small (by rw [place]; decide)) same
        (fun other different => rank_of_other different rfl Iff.rfl) ?_
      simp only [State.rank, State.move, Function.update_self, place]
      split <;> omega
  | decide place =>
      refine measure_client (small (by rw [place]; decide)) same
        (fun other different => rank_of_other different rfl Iff.rfl) ?_
      simp only [Client.Counts, place] at counts
      rcases counts with two | one
      · simp [State.rank, place, two]
      · simp [State.rank, place, one]
  | pass place _ =>
      refine measure_client (small (by rw [place]; decide)) same
        (fun other different => rank_of_other different rfl Iff.rfl) ?_
      simp only [State.rank, State.move, Function.update_self, place]
      omega
  | wait place _ waits =>
      obtain ⟨_, rfl⟩ := Monitor.wait_eq_some_iff.mp waits
      refine measure_client (small (by rw [place]; decide)) same
        (fun other different => rank_of_other different rfl Iff.rfl) ?_
      have awake : Party.client index ∉ state.monitor.woken := by
        intro woken
        have status := (placed.follows.waits (.client index)).mp (.inr woken)
        change (state.client index).place.status = .waiting at status
        rw [place] at status
        cases status
      simp only [State.rank, State.move, Function.update_self, place, awake, ↓reduceIte]
      omega
  | report place =>
      refine measure_client (small (by rw [place]; decide)) same
        (fun other different => rank_of_other different rfl Iff.rfl) ?_
      simp only [Client.Counts, place] at counts
      simp [State.rank, State.move, place, counts]
  | unlock place unlocks =>
      obtain ⟨_, rfl⟩ := Monitor.unlock_eq_some_iff.mp unlocks
      refine measure_client (small (by rw [place]; decide)) same
        (fun other different => rank_of_other different rfl Iff.rfl) ?_
      simp only [State.rank, State.move, Function.update_self, place]
      omega

/-- Every step that is not a wake-up without a signal comes nearer to the end. -/
theorem measure_next {action : Action} (fed : Fed threads items state)
    (proper : Proper state action) (moved : next threads state action = some after) :
    measure threads after < measure threads state := by
  have running : state.exited = false := by
    unfold next at moved
    exact Bool.eq_false_iff.mpr (Option.ite_none_left_eq_some.mp moved).1
  cases moves_of_next moved with
  | main went => exact measure_goMain running went
  | createFails more main =>
      refine measure_main ?_
      simp only [State.mainLeft, running, main, Bool.false_eq_true, ↓reduceIte]
      omega
  | signal main signals =>
      refine measure_main ?_
      simp only [State.mainLeft, running, main, Bool.false_eq_true, ↓reduceIte]
      omega
  | client went => exact measure_goClient fed.placed went
  | @relock index _ place relocks =>
      obtain ⟨⟨_, woken⟩, rfl⟩ := Monitor.relock_eq_some_iff.mp relocks
      have there : (state.client index).place ≠ .absent := by
        rw [place]
        nofun
      refine @measure_client threads state _ index
        (Nat.lt_of_lt_of_le ((fed.placed.created index).mp there) fed.placed.within) rfl
        (fun other different => rank_of_other different rfl ?_) ?_
      · exact Finset.mem_erase.trans
          ⟨And.right, fun woken => ⟨fun same => different (Party.client.inj same), woken⟩⟩
      · simp only [State.rank, State.move, Function.update_self, place, woken, ↓reduceIte]
        omega
  | wake _ => exact (proper trivial).elim

/-- With no more threads than items the program is never stuck. -/
theorem lively_of_reachable (enough : threads ≤ items)
    (reached : (program threads items).Reachable state) : Lively threads items state := by
  have fed := (fed_invariant threads items).reachable reached
  have invariant : ((program threads items).restrict Proper).Invariant (Fed threads items) :=
    ⟨(fed_invariant threads items).initial, fun _ _ _ fed moved => fed_next fed moved.2⟩
  refine ⟨fun more => ?_, fed.nobodyWaits enough, ?_⟩
  · obtain ⟨action, proper, moves⟩ := fed.goesOn enough more
    obtain ⟨after, moved⟩ := Option.isSome_iff_exists.mp moves
    exact ⟨action, after, proper, moved⟩
  · exact invariant.terminates (measure threads)
      (fun _ _ _ fed moved => measure_next fed moved.1 moved.2) fed

/-- The first thread waits before the second one has been created. -/
def earlyThread : List Action :=
  [.main, .client 0, .client 0, .client 0, .main, .main, .main, .main, .main,
    .signal {.client 0}, .main, .relock 0]

theorem lively_of_earlyThread : ∃ state : State,
    run (guarded Proper (next 2)) (start 2) earlyThread = some state ∧ Lively 2 2 state := by
  have executed : (run (guarded Proper (next 2)) (start 2) earlyThread).isSome = true := by
    decide +kernel
  obtain ⟨state, executed⟩ := Option.isSome_iff_exists.mp executed
  have reached : ((program 2 2).restrict Proper).Reachable state :=
    .of_run (.initial rfl) executed
  exact ⟨state, executed, lively_of_reachable (Nat.le_refl 2) reached.of_restrict⟩

end LinuxUnix.Consumers

import LinuxUnix.Threads.WakeUpChain
import Mathlib.Logic.Relation

/-! # A chain of wake-ups that is lost

A signal that nobody waits for is lost, and the chain with it if nobody else is still to signal
although a thread is still to wait. As long as no such signal is sent there is no deadlock
(`LinuxUnix.WakeUpChain.not_deadlocked_of_reachable`); and after such a signal the program comes
into one (`LinuxUnix.WakeUpChain.deadlocked_of_unheard`).
-/

namespace LinuxUnix.WakeUpChain

open TransitionSystem

variable {threads : ℕ} {state after : State} {index : ℕ} {party : Party}

/-- A thread is not to signal any more, or has not been created. -/
def ThreadAt.idle : ThreadAt → Bool
  | .absent | .unlocking | .done => true
  | .locking | .locked | .waiting | .signalling => false

/-- The chain has not been lost: somebody is still to signal, or no thread needs a signal. -/
def State.Alive (state : State) : Prop :=
  (∃ party, state.OnItsWay party) ∨ ∀ index, (state.thread index).idle = true

theorem onItsWay_congr (main : after.main.early = state.main.early)
    (signalling : ∀ index, after.thread index = .signalling ↔ state.thread index = .signalling)
    (woken : after.monitor.woken = state.monitor.woken) :
    after.OnItsWay party ↔ state.OnItsWay party := by
  cases party with
  | main =>
      change after.main.early = true ↔ state.main.early = true
      rw [main]
  | thread index =>
      change after.thread index = .signalling ∨ .thread index ∈ after.monitor.woken ↔
        state.thread index = .signalling ∨ .thread index ∈ state.monitor.woken
      rw [signalling, woken]

/-- A thread that `main` creates is not on its way. -/
theorem onItsWay_goMain (placed : Placed threads state)
    (went : state.goMain threads = some after) :
    after.OnItsWay party ↔ state.OnItsWay party := by
  cases mainGoes_of_goMain went with
  | @create i main _ =>
      refine onItsWay_congr (by rw [main]; rfl) (fun index => ?_) rfl
      have created := placed.created i
      rw [main] at created
      change Function.update state.thread i .locking index = .signalling ↔ _
      by_cases here : index = i
      · have absent : state.thread i = .absent :=
          Decidable.not_not.mp fun there => Nat.lt_irrefl i (created.mp there)
        rw [here, Function.update_self, absent]
        decide
      · rw [Function.update_of_ne here]
  | created main _ | join main _ _ | joined main _ =>
      exact onItsWay_congr (by rw [main]; rfl) (fun _ => Iff.rfl) rfl

/-- Behind its signal `main` creates no thread. -/
theorem thread_goMain (late : state.main.early = false)
    (went : state.goMain threads = some after) : after.thread = state.thread := by
  cases mainGoes_of_goMain went with
  | create main _ =>
      rw [main] at late
      cases late
  | created | join | joined => rfl

/-- Where a thread goes by itself. -/
inductive ThreadAt.Goes : ThreadAt → ThreadAt → Prop
  | lock : Goes .locking .locked
  | wait : Goes .locked .waiting
  | unlock : Goes .unlocking .done

/-- What a step of a thread leaves alone. -/
theorem goThread_frame (went : state.goThread index = some after) :
    ∃ place, (state.thread index).Goes place ∧ after.main = state.main ∧
      after.exited = state.exited ∧ after.thread = Function.update state.thread index place ∧
      after.monitor.woken = state.monitor.woken := by
  cases threadGoes_of_goThread went with
  | lock place locks =>
      obtain ⟨_, rfl⟩ := Monitor.lock_eq_some_iff.mp locks
      exact ⟨_, place ▸ .lock, rfl, rfl, rfl, rfl⟩
  | wait place waits =>
      obtain ⟨_, rfl⟩ := Monitor.wait_eq_some_iff.mp waits
      exact ⟨_, place ▸ .wait, rfl, rfl, rfl, rfl⟩
  | unlock place unlocks =>
      obtain ⟨_, rfl⟩ := Monitor.unlock_eq_some_iff.mp unlocks
      exact ⟨_, place ▸ .unlock, rfl, rfl, rfl, rfl⟩

theorem onItsWay_goThread (went : state.goThread index = some after) :
    after.OnItsWay party ↔ state.OnItsWay party := by
  obtain ⟨place, goes, main, _, thread, woken⟩ := goThread_frame went
  refine onItsWay_congr (congrArg MainAt.early main) (fun other => ?_) woken
  rw [thread]
  by_cases here : other = index
  · rw [here, Function.update_self]
    generalize state.thread index = before at goes
    cases goes <;> exact ⟨nofun, nofun⟩
  · rw [Function.update_of_ne here]

/-- What the signal of `main` or of a thread changes. -/
structure Signals (state after : State) (party : Party) (woken : Finset Party) : Prop where
  signals : state.monitor.signal woken = some after.monitor
  running : after.exited = false
  main : party ≠ .main → after.main = state.main
  mainLate : party = .main → after.main = .joining 0
  others : ∀ index, Party.thread index ≠ party → after.thread index = state.thread index
  own : ∀ index, Party.thread index = party →
    state.thread index = .signalling ∧ after.thread index = .unlocking

theorem signals_of_next {woken : Finset Party}
    (moved : next threads state (.signal party woken) = some after) :
    Signals state after party woken := by
  have running := running_of_next moved
  cases moves_of_next moved with
  | mainSignal main signals =>
      exact ⟨signals, running, fun other => absurd rfl other, fun _ => rfl, fun _ _ => rfl, nofun⟩
  | @threadSignal index _ _ place signals =>
      refine ⟨signals, running, fun _ => rfl, nofun, fun other different => ?_,
        fun other same => ?_⟩
      · exact Function.update_of_ne (fun equal => different (congrArg Party.thread equal)) ..
      · cases same
        exact ⟨place, Function.update_self ..⟩

section Signals

variable {woken : Finset Party}

/-- Who is on its way stays there when somebody else signals. -/
theorem Signals.stays {other : Party} (signals : Signals state after party woken)
    (different : other ≠ party) (way : state.OnItsWay other) : after.OnItsWay other := by
  cases other with
  | main =>
      change after.main.early = true
      rw [signals.main different.symm]
      exact way
  | thread index =>
      rcases way with place | before
      · exact .inl ((signals.others index different).trans place)
      · exact .inr (Monitor.woken_of_signal signals.signals before)

/-- A signal that somebody waits for puts a thread on its way. -/
theorem Signals.wakes (signals : Signals state after party woken) (placed : Placed threads state)
    (waits : state.monitor.waiting ≠ ∅) : ∃ party, after.OnItsWay party := by
  obtain ⟨waiting, waited, woken⟩ := Monitor.exists_woken signals.signals waits
  obtain ⟨index, rfl, _⟩ := placed.thread_of_waits waited
  exact ⟨.thread index, .inr woken⟩

/-- Nobody needs the signal that nobody hears. -/
theorem Signals.idle (signals : Signals state after party woken) (placed : Placed threads state)
    (nobody : state.monitor.waiting = ∅) (alone : ∀ other ≠ party, ¬ state.OnItsWay other)
    (late : ∀ index < threads, (state.thread index).early = false) (index : ℕ) :
    (after.thread index).idle = true := by
  by_cases own : Party.thread index = party
  · rw [(signals.own index own).2]
    rfl
  · rw [signals.others index own]
    have silent := not_or.mp (alone _ own)
    have small : state.thread index ≠ .absent → index < threads := fun there =>
      Nat.lt_of_lt_of_le ((placed.created index).mp there) placed.within
    cases place : state.thread index with
    | locking | locked =>
        have early := late index (small (by rw [place]; nofun))
        rw [place] at early
        cases early
    | waiting =>
        have status : state.status (.thread index) = .waiting := congrArg ThreadAt.status place
        exact absurd (placed.follows.woken nobody status) silent.2
    | signalling => exact absurd place silent.1
    | absent | unlocking | done => rfl

theorem Signals.alive (signals : Signals state after party woken) (placed : Placed threads state)
    (heard : Heard threads state (.signal party woken)) : after.Alive := by
  rcases heard with waits | (⟨different, way⟩ | ⟨index, _, different, way⟩) | late
  · exact .inl (signals.wakes placed waits)
  · exact .inl ⟨_, signals.stays different.symm way⟩
  · exact .inl ⟨_, signals.stays different way⟩
  · by_cases waits : state.monitor.waiting = ∅
    · by_cases alone : ∀ other ≠ party, ¬ state.OnItsWay other
      · exact .inr (signals.idle placed waits alone late)
      · simp only [not_forall, not_not] at alone
        obtain ⟨other, different, way⟩ := alone
        exact .inl ⟨other, signals.stays different way⟩
    · exact .inl (signals.wakes placed waits)

end Signals

theorem alive_next {action : Action} (placed : Placed threads state) (alive : state.Alive)
    (heard : Heard threads state action) (moved : next threads state action = some after) :
    after.Alive := by
  cases action with
  | signal party woken => exact (signals_of_next moved).alive placed heard
  | main =>
      cases moves_of_next moved with
      | main went =>
          by_cases early : state.main.early = true
          · exact .inl ⟨.main, (onItsWay_goMain placed went).mpr early⟩
          · rcases alive with ⟨party, way⟩ | idle
            · exact .inl ⟨party, (onItsWay_goMain placed went).mpr way⟩
            · refine .inr ?_
              rw [thread_goMain (Bool.not_eq_true _ ▸ early) went]
              exact idle
  | createFails =>
      cases moves_of_next moved with
      | createFails main => exact .inl ⟨.main, by change state.main.early = true; rw [main]; rfl⟩
  | thread index =>
      cases moves_of_next moved with
      | thread went =>
          rcases alive with ⟨party, way⟩ | idle
          · exact .inl ⟨party, (onItsWay_goThread went).mpr way⟩
          · obtain ⟨place, goes, _, _, thread, _⟩ := goThread_frame went
            refine .inr fun other => ?_
            rw [thread]
            by_cases here : other = index
            · have before := idle index
              rw [here, Function.update_self]
              generalize state.thread index = start at goes before
              cases goes with
              | lock | wait => cases before
              | unlock => rfl
            · rw [Function.update_of_ne here]
              exact idle other
  | relock index =>
      cases moves_of_next moved with
      | relock place relocks =>
          exact .inl ⟨.thread index, .inl (Function.update_self ..)⟩
  | wake index =>
      cases moves_of_next moved with
      | wake wakes =>
          obtain ⟨_, rfl⟩ := Monitor.wake_eq_some_iff.mp wakes
          exact .inl ⟨.thread index, .inr (Finset.mem_insert_self ..)⟩

theorem alive_start : start.Alive :=
  .inl ⟨.main, rfl⟩

/-- As long as the chain has not been lost nobody waits in vain. -/
theorem State.Alive.not_deadlocked (alive : state.Alive) (placed : Placed threads state) :
    ¬ Deadlocked threads state := by
  intro deadlocked
  rcases alive with ⟨party, way⟩ | idle
  · exact deadlocked.silent party way
  · obtain ⟨party, waits⟩ := Finset.nonempty_iff_ne_empty.mpr deadlocked.waits
    obtain ⟨index, _, place⟩ := placed.thread_of_waits waits
    have before := idle index
    rw [place] at before
    cases before

/-- If no signal is lost then there is no deadlock. -/
theorem not_deadlocked_of_reachable
    (reached : ((program threads).restrict (Heard threads)).Reachable state) :
    ¬ Deadlocked threads state := by
  have invariant : ((program threads).restrict (Heard threads)).Invariant
      fun state => Placed threads state ∧ state.Alive := by
    refine ⟨fun _ started => ?_, fun _ _ _ holds moved => ?_⟩
    · cases started
      exact ⟨placed_start threads, alive_start⟩
    · exact ⟨placed_next holds.1 moved.2, alive_next holds.1 holds.2 moved.1 moved.2⟩
  obtain ⟨placed, alive⟩ := invariant.reachable reached
  exact alive.not_deadlocked placed

/-- Two threads wait before `main` signals. -/
def inTime : List Action :=
  [.main, .main, .main, .thread 0, .thread 0, .thread 1, .thread 1, .signal .main {.thread 0},
    .relock 0, .signal (.thread 0) {.thread 1}, .thread 0, .main, .relock 1,
    .signal (.thread 1) ∅, .thread 1, .main, .main]

theorem not_deadlocked_of_inTime : ∃ state : State,
    run (guarded (Heard 2) (next 2)) start inTime = some state ∧ ¬ Deadlocked 2 state := by
  have executed : (run (guarded (Heard 2) (next 2)) start inTime).isSome = true := by
    decide +kernel
  obtain ⟨state, executed⟩ := Option.isSome_iff_exists.mp executed
  exact ⟨state, executed, not_deadlocked_of_reachable (.of_run (.initial rfl) executed)⟩

/-- `main` signals before any of the three threads waits. -/
def tooEarly : List Action :=
  [.main, .main, .main, .main, .signal .main ∅, .thread 0, .thread 0, .thread 1, .thread 1,
    .thread 2, .thread 2]

/-- The program as it is comes into a deadlock. -/
theorem deadlocked_of_tooEarly : ∃ state : State,
    run (guarded (fun _ _ => True) (next 3)) start tooEarly = some state ∧
      (program 3).Reachable state ∧ Deadlocked 3 state := by
  have executed : (run (guarded (fun _ _ => True) (next 3)) start tooEarly).any
      (fun state : State => decide (state.main = .joining 0 ∧ state.monitor.waiting ≠ ∅ ∧
        state.thread 0 = .waiting ∧ ∀ index : ℕ, index < 3 →
          ¬ state.OnItsWay (.thread index))) = true := by
    decide +kernel
  obtain ⟨state, executed, final⟩ := (Option.any_eq_true ..).mp executed
  obtain ⟨main, waits, place, silent⟩ := of_decide_eq_true final
  have reached : ((program 3).restrict fun _ _ => True).Reachable state :=
    .of_run (.initial rfl) executed
  have reached := reached.of_restrict
  have placed := (placed_invariant 3).reachable reached
  refine ⟨state, executed, reached, waits, fun party way => ?_, 0, by decide, main, ?_⟩
  · cases party with
    | main =>
        rw [State.OnItsWay, main] at way
        cases way
    | thread index => exact silent index (placed.small_of_way way) way
  · rw [place]
    nofun

/-- A thread is still to be woken. -/
def ThreadAt.needs : ThreadAt → Bool
  | .locking | .locked | .waiting => true
  | .absent | .signalling | .unlocking | .done => false

/-- The chain has been lost: nobody is still to signal, and `main` will wait for a thread that is
still to be woken. -/
structure Lost (threads : ℕ) (state : State) : Prop where
  running : state.exited = false
  silent : ∀ party, ¬ state.OnItsWay party
  stuck : ∃ index < threads, (state.thread index).needs = true ∧
    ∃ joined ≤ index, state.main = .joining joined

/-- A step that is not a wake-up without a signal. -/
def Goes (threads : ℕ) (before after : State) : Prop :=
  ∃ action, (∀ index, action ≠ .wake index) ∧ next threads before action = some after

/-- Behind its signal `main` has still to join a thread that is not done. -/
theorem Placed.joining (placed : Placed threads state) (late : state.main.early = false)
    (small : index < threads) (working : state.thread index ≠ .done) :
    ∃ joined ≤ index, state.main = .joining joined := by
  have joined := placed.joined index
  cases main : state.main with
  | creating _ | signalling =>
      rw [main] at late
      cases late
  | joining i =>
      rw [main] at joined
      exact ⟨i, Nat.le_of_not_lt fun before => working (joined before), rfl⟩
  | finished =>
      rw [main] at joined
      exact absurd (joined small) working

section Unheard

variable {woken : Finset Party}

theorem Signals.late (signals : Signals state after party woken)
    (alone : ¬ (party ≠ .main ∧ state.OnItsWay .main)) : after.main.early = false := by
  by_cases own : party = .main
  · rw [signals.mainLate own]
    rfl
  · rw [signals.main own]
    exact Bool.eq_false_iff.mpr fun early => alone ⟨own, early⟩

/-- After a signal that nobody waits for nobody is on its way, unless somebody else is. -/
theorem Signals.silent (signals : Signals state after party woken) (placed : Placed threads state)
    (nobody : state.monitor.waiting = ∅) (alone : ∀ other ≠ party, ¬ state.OnItsWay other)
    (other : Party) : ¬ after.OnItsWay other := by
  have same := Monitor.woken_of_nobody signals.signals nobody
  cases other with
  | main =>
      have late := signals.late fun early => alone _ early.1.symm early.2
      exact Bool.eq_false_iff.mp late
  | thread index =>
      by_cases own : Party.thread index = party
      · obtain ⟨before, place⟩ := signals.own index own
        rintro (signalling | woken)
        · rw [place] at signalling
          cases signalling
        · rw [same] at woken
          have status := placed.place_of_woken woken
          rw [before] at status
          cases status
      · intro way
        refine alone _ own ?_
        rw [State.OnItsWay, signals.others index own, same] at way
        exact way

/-- A signal that is not heard loses the chain. -/
theorem lost_of_unheard (placed : Placed threads state)
    (unheard : ¬ Heard threads state (.signal party woken))
    (moved : next threads state (.signal party woken) = some after) : Lost threads after := by
  have signals := signals_of_next moved
  obtain ⟨nobody, unheard⟩ := not_or.mp unheard
  obtain ⟨others, early⟩ := not_or.mp unheard
  obtain ⟨mainLate, noThread⟩ := not_or.mp others
  rw [not_not] at nobody
  have alone : ∀ other ≠ party, ¬ state.OnItsWay other := by
    intro other different way
    cases other with
    | main => exact mainLate ⟨different.symm, way⟩
    | thread index => exact noThread ⟨index, placed.small_of_way way, different, way⟩
  simp only [not_forall, Bool.not_eq_false] at early
  obtain ⟨index, small, early⟩ := early
  have own : Party.thread index ≠ party := by
    intro own
    rw [(signals.own index own).1] at early
    cases early
  have needs : (after.thread index).needs = true := by
    rw [signals.others index own]
    cases place : state.thread index with
    | locking | locked => rfl
    | absent | waiting | signalling | unlocking | done =>
        rw [place] at early
        cases early
  refine ⟨signals.running, signals.silent placed nobody alone, index, small, needs, ?_⟩
  refine (placed_next placed moved).joining (signals.late mainLate) small fun done => ?_
  rw [done] at needs
  cases needs

end Unheard

/-- A lost chain stays lost as long as no thread is woken without a signal. -/
theorem Lost.next (lost : Lost threads state) (placed : Placed threads state)
    (goes : Goes threads state after) : Lost threads after := by
  obtain ⟨action, proper, moved⟩ := goes
  obtain ⟨index, small, needs, joined, before, main⟩ := lost.stuck
  cases moves_of_next moved with
  | main went =>
      have silent : ∀ party, ¬ after.OnItsWay party := fun party way =>
        lost.silent party ((onItsWay_goMain placed went).mp way)
      cases mainGoes_of_goMain went with
      | create creating _ | created creating _ =>
          rw [main] at creating
          cases creating
      | join joining _ done =>
          cases main.symm.trans joining
          have different : joined ≠ index := by
            rintro rfl
            rw [done] at needs
            cases needs
          exact ⟨lost.running, silent, index, small, needs, joined + 1,
            Nat.lt_of_le_of_ne before different, rfl⟩
      | joined joining all =>
          cases main.symm.trans joining
          exact absurd (Nat.lt_of_le_of_lt before small) (Nat.not_lt.mpr all)
  | createFails creating =>
      rw [main] at creating
      cases creating
  | mainSignal signalling _ =>
      rw [main] at signalling
      cases signalling
  | threadSignal place _ => exact (lost.silent (.thread _) (.inl place)).elim
  | @thread other _ went =>
      have silent : ∀ party, ¬ after.OnItsWay party := fun party way =>
        lost.silent party ((onItsWay_goThread went).mp way)
      obtain ⟨place, goes, sameMain, exited, thread, _⟩ := goThread_frame went
      refine ⟨exited.trans lost.running, silent, index, small, ?_, joined, before,
        sameMain.trans main⟩
      rw [thread]
      by_cases same : index = other
      · rw [same] at needs
        rw [same, Function.update_self]
        generalize state.thread other = start at goes needs
        cases goes with
        | lock | wait => rfl
        | unlock => cases needs
      · rw [Function.update_of_ne same]
        exact needs
  | relock _ relocks =>
      obtain ⟨⟨_, woken⟩, _⟩ := Monitor.relock_eq_some_iff.mp relocks
      exact (lost.silent (.thread _) (.inr woken)).elim
  | wake _ => exact absurd rfl (proper _)

/-- A run without such wake-ups. -/
def Leads (threads : ℕ) : State → State → Prop :=
  Relation.ReflTransGen (Goes threads)

/-- The chain has been lost, and the invariant holds. -/
structure Doomed (threads : ℕ) (state : State) : Prop where
  lost : Lost threads state
  placed : Placed threads state

theorem Doomed.run (doomed : Doomed threads state) (leads : Leads threads state after) :
    Doomed threads after := by
  induction leads with
  | refl => exact doomed
  | tail _ goes ih =>
      refine ⟨ih.lost.next ih.placed goes, ?_⟩
      obtain ⟨_, _, moved⟩ := goes
      exact placed_next ih.placed moved

theorem goes_of_goThread (running : state.exited = false)
    (went : state.goThread index = some after) : Goes threads state after := by
  refine ⟨.thread index, nofun, ?_⟩
  simp only [next, running]
  exact went

/-- A thread that has locked the mutex waits. -/
theorem Doomed.waits_of_locked (doomed : Doomed threads state)
    (place : state.thread index = .locked) :
    ∃ after, Leads threads state after ∧ after.monitor.waiting ≠ ∅ := by
  have holder := (doomed.placed.follows.holds (.thread index)).mpr
    (congrArg ThreadAt.status place)
  have went : state.goThread index = some { state.move index .waiting with
      monitor := { state.monitor with
        holder := none, waiting := insert (.thread index) state.monitor.waiting } } := by
    simp only [State.goThread, place, Monitor.wait, holder, ↓reduceIte]
    rfl
  refine ⟨_, .single (goes_of_goThread doomed.lost.running went), ?_⟩
  exact Finset.insert_ne_empty (Party.thread index) state.monitor.waiting

/-- A thread that finds the mutex free locks it and waits. -/
theorem Doomed.waits_of_free (doomed : Doomed threads state) (free : state.monitor.holder = none)
    (place : state.thread index = .locking) :
    ∃ after, Leads threads state after ∧ after.monitor.waiting ≠ ∅ := by
  have went : state.goThread index = some { state.move index .locked with
      monitor := { state.monitor with holder := some (.thread index) } } := by
    simp only [State.goThread, place, Monitor.lock, free, ↓reduceIte]
    rfl
  have leads : Leads threads state _ := .single (goes_of_goThread doomed.lost.running went)
  obtain ⟨after, waits, nonempty⟩ :=
    (doomed.run leads).waits_of_locked (Function.update_self index _ _)
  exact ⟨after, leads.trans waits, nonempty⟩

/-- Whoever has the mutex waits or gives it back. -/
theorem Doomed.waits_of_locking (doomed : Doomed threads state)
    (place : state.thread index = .locking) :
    ∃ after, Leads threads state after ∧ after.monitor.waiting ≠ ∅ := by
  cases holder : state.monitor.holder with
  | none => exact doomed.waits_of_free holder place
  | some party =>
      have inside := (doomed.placed.follows.holds party).mp holder
      cases party with
      | main =>
          change state.main.status = .inside at inside
          rw [status_main] at inside
          cases inside
      | thread other =>
          change (state.thread other).status = .inside at inside
          cases otherPlace : state.thread other with
          | locked => exact doomed.waits_of_locked otherPlace
          | signalling => exact (doomed.lost.silent (.thread other) (.inl otherPlace)).elim
          | unlocking =>
              have went : state.goThread other = some { state.move other .done with
                  monitor := { state.monitor with holder := none } } := by
                simp only [State.goThread, otherPlace, Monitor.unlock, holder, ↓reduceIte]
                rfl
              have leads : Leads threads state _ :=
                .single (goes_of_goThread doomed.lost.running went)
              have different : index ≠ other := by
                rintro rfl
                rw [place] at otherPlace
                cases otherPlace
              obtain ⟨after, waits, nonempty⟩ := (doomed.run leads).waits_of_free rfl
                ((Function.update_of_ne different _ _).trans place)
              exact ⟨after, leads.trans waits, nonempty⟩
          | absent | locking | waiting | done =>
              rw [otherPlace] at inside
              cases inside

/-- Some thread will wait. -/
theorem Doomed.waits (doomed : Doomed threads state) :
    ∃ after, Leads threads state after ∧ after.monitor.waiting ≠ ∅ := by
  obtain ⟨index, _, needs, _⟩ := doomed.lost.stuck
  cases place : state.thread index with
  | locking => exact doomed.waits_of_locking place
  | locked => exact doomed.waits_of_locked place
  | waiting =>
      refine ⟨state, .refl, fun nobody => doomed.lost.silent (.thread index) (.inr ?_)⟩
      exact doomed.placed.follows.woken nobody (congrArg ThreadAt.status place)
  | absent | signalling | unlocking | done =>
      rw [place] at needs
      cases needs

/-- `main` joins the threads that are done. -/
theorem Doomed.blocks {state : State} {index joined : ℕ} (doomed : Doomed threads state)
    (small : index < threads) (working : state.thread index ≠ .done)
    (main : state.main = .joining joined) (before : joined ≤ index)
    (waits : state.monitor.waiting ≠ ∅) :
    ∃ after, Leads threads state after ∧ Deadlocked threads after := by
  by_cases done : state.thread joined = .done
  · have here : joined < index := by
      refine Nat.lt_of_le_of_ne before ?_
      rintro rfl
      exact working done
    have moved : Goes threads state { state with main := .joining (joined + 1) } := by
      refine ⟨.main, nofun, ?_⟩
      simp only [WakeUpChain.next, doomed.lost.running, State.goMain, main, done,
        Nat.lt_trans here small, ↓reduceIte]
      rfl
    have leads : Leads threads state _ := .single moved
    obtain ⟨after, joins, deadlocked⟩ :=
      (doomed.run leads).blocks small working rfl here waits
    exact ⟨after, leads.trans joins, deadlocked⟩
  · exact ⟨state, .refl, waits, doomed.lost.silent, joined, Nat.lt_of_le_of_lt before small, main,
      done⟩
termination_by index - joined

/-- A signal that is not heard leads into a deadlock, unless a thread is woken without one. -/
theorem deadlocked_of_unheard {woken : Finset Party} (reached : (program threads).Reachable state)
    (unheard : ¬ Heard threads state (.signal party woken))
    (moved : next threads state (.signal party woken) = some after) :
    ∃ final, Leads threads after final ∧ Deadlocked threads final := by
  have placed := (placed_invariant threads).reachable reached
  have doomed : Doomed threads after :=
    ⟨lost_of_unheard placed unheard moved, placed_next placed moved⟩
  obtain ⟨middle, first, waits⟩ := doomed.waits
  have doomed := doomed.run first
  obtain ⟨index, small, needs, joined, before, main⟩ := doomed.lost.stuck
  have working : middle.thread index ≠ .done := by
    intro done
    rw [done] at needs
    cases needs
  obtain ⟨final, second, deadlocked⟩ := doomed.blocks small working main before waits
  exact ⟨final, first.trans second, deadlocked⟩

end LinuxUnix.WakeUpChain

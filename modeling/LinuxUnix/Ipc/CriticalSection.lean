import LinuxUnix.Foundation.ProcessCount
import LinuxUnix.Foundation.Semaphore
import LinuxUnix.Foundation.TransitionSystem

/-! # The critical section of `sem`

Any number of `sem` processes use one System V semaphore. The first process that does
not find it creates it, with the value 0, and sets it to 1; all operations on it are
made with `SEM_UNDO`, so that the kernel gives back what a process holds when it ends.
The value of the semaphore and the processes inside always add up to 0 until the
semaphore is set, and to 1 from then on
(`LinuxUnix.CriticalSection.balanced_of_reachable`).
-/

namespace LinuxUnix.CriticalSection

open TransitionSystem

/-- Where a process stands in `main`. -/
inductive At
  /-- before the first `semget` of `init_semaphore` -/
  | find
  /-- before the second `semget` -/
  | create
  /-- before `semctl(semid, 0, SETVAL, 1)` -/
  | set
  /-- before `semaphore_operation(LOCK)` -/
  | lock
  /-- before `semaphore_operation(UNLOCK)` -/
  | critical
  /-- before `exit` -/
  | unlocked
  | ended
  deriving DecidableEq

/-- The process is between `semaphore_operation(LOCK)` and
`semaphore_operation(UNLOCK)`. -/
def At.inside : At → Bool
  | .critical => true
  | .find | .create | .set | .lock | .unlocked | .ended => false

/-- The process has created the semaphore and is going to set it. -/
def At.setting : At → Bool
  | .set => true
  | .find | .create | .lock | .critical | .unlocked | .ended => false

variable {Process : Type} [DecidableEq Process]

/-- The semaphore of `KEY`, if it exists, where the processes stand, and whether
`SETVAL` has been executed. -/
structure State (Process : Type) where
  sems : Option (SemaphoreSet Unit Process)
  place : Process → At
  initialised : Bool

/-- There is no semaphore yet; a process that has not been started is one that has not
called `semget`. -/
def State.start : State Process where
  sems := none
  place := fun _ => .find
  initialised := false

/-- The value of the semaphore. -/
def State.value (state : State Process) : ℕ :=
  (state.sems.map fun sems => sems.semval ()).getD 0

/-- A semaphore as `semget` creates it. -/
def created : SemaphoreSet Unit Process where
  semval := fun _ => 0
  semadj := fun _ _ => 0

/-- A process takes its next step, or is killed. A process ends in the same way when
one of its system calls fails. -/
inductive Action (Process : Type)
  | step (who : Process)
  | kill (who : Process)

/-- The end of a process: the kernel applies its undo record. -/
def State.leave (state : State Process) (who : Process) : State Process :=
  { state with
    sems := state.sems.map fun sems => sems.undo who
    place := Function.update state.place who .ended }

/-- `semaphore_operation`: the process goes on at `next`, or waits. -/
def semaphoreOperation (state : State Process) (who : Process) (op : ℤ) (next : At) :
    Option (State Process) :=
  (state.sems.bind fun sems => sems.semop who () op).map fun sems =>
    { state with sems := some sems, place := Function.update state.place who next }

/-- The next step of `main`. -/
def main (state : State Process) (who : Process) : Option (State Process) :=
  match state.place who with
  | .find => some { state with
      place := Function.update state.place who (if state.sems.isSome then .lock else .create) }
  | .create => match state.sems with
    | none => some { state with
        sems := some created, place := Function.update state.place who .set }
    | some _ => some (state.leave who)
  | .set => state.sems.map fun sems => { state with
      sems := some (sems.setval () 1)
      place := Function.update state.place who .lock
      initialised := true }
  | .lock => semaphoreOperation state who (-1) .critical
  | .critical => semaphoreOperation state who 1 .unlocked
  | .unlocked => some (state.leave who)
  | .ended => none

/-- The effect of an action, if it can happen. -/
def next (state : State Process) : Action Process → Option (State Process)
  | .step who => main state who
  | .kill who => if state.place who = .ended then none else some (state.leave who)

/-- The processes and their semaphore. -/
def criticalSection : TransitionSystem (State Process) (Action Process) :=
  .ofFunction (· = State.start) next

variable [Fintype Process]

/-- What every step keeps: the value and the processes inside add up, at most one
process is going to set the semaphore, and the record of a process is 1 exactly if it
is inside. -/
structure Balanced (state : State Process) : Prop where
  total : state.value + processCount At.inside state.place = state.initialised.toNat
  once : processCount At.setting state.place + state.initialised.toNat ≤ 1
  missing : state.sems = none →
    processCount At.setting state.place + state.initialised.toNat = 0
  records : ∀ sems ∈ state.sems, ∀ who,
    sems.semadj who () = ((state.place who).inside.toNat : ℤ)

variable {before after : State Process} {who : Process}

omit [DecidableEq Process] in
theorem balanced_start : Balanced (State.start : State Process) where
  total := by
    have nobody : processCount At.inside (fun _ : Process => At.find) = 0 :=
      processCount_const rfl
    rw [State.start, nobody]
    rfl
  once := by
    have nobody : processCount At.setting (fun _ : Process => At.find) = 0 :=
      processCount_const rfl
    rw [State.start, nobody]
    exact Nat.zero_le 1
  missing := fun _ => processCount_const rfl
  records := by
    intro sems there
    cases there

omit [Fintype Process] in
/-- The records are those of the places after a move of one process. -/
theorem records_update {sems : SemaphoreSet Unit Process} {place : Process → At} {next : At}
    (own : sems.semadj who () = (next.inside.toNat : ℤ))
    (others : ∀ other, other ≠ who → sems.semadj other () = ((place other).inside.toNat : ℤ)) :
    ∀ other, sems.semadj other () =
      ((Function.update place who next other).inside.toNat : ℤ) :=
  (Function.forall_update_iff place fun other next =>
    sems.semadj other () = (next.inside.toNat : ℤ)).mpr ⟨own, others⟩

/-- A process that goes on outside the section, without touching the semaphore. -/
theorem Balanced.goOn (balanced : Balanced before) {next : At}
    (outside : next.inside = (before.place who).inside)
    (setting : next.setting = (before.place who).setting) :
    Balanced { before with place := Function.update before.place who next } where
  total := by
    rw [processCount_update_same outside]
    exact balanced.total
  once := by
    rw [processCount_update_same setting]
    exact balanced.once
  missing := by
    rw [processCount_update_same setting]
    exact balanced.missing
  records := by
    intro sems there
    apply records_update
    · rw [outside]
      exact balanced.records sems there who
    · exact fun other _ => balanced.records sems there other

/-- The end of a process gives back what it holds. -/
theorem Balanced.leave (balanced : Balanced before) (who : Process) :
    Balanced (before.leave who) := by
  have inside := processCount_update At.inside before.place who .ended
  have setting := processCount_update At.setting before.place who .ended
  have outside : At.inside .ended = false := rfl
  have passed : At.setting .ended = false := rfl
  rw [outside, Bool.toNat_false] at inside
  rw [passed, Bool.toNat_false] at setting
  have total := balanced.total
  have once := balanced.once
  have missing := balanced.missing
  cases there : before.sems with
  | none =>
      have nothing := missing there
      simp only [State.value, there, Option.map_none, Option.getD_none] at total
      exact {
        total := by
          simp only [State.value, State.leave, there, Option.map_none, Option.getD_none]
          omega
        once := by simp only [State.leave]; omega
        missing := by simp only [State.leave]; omega
        records := by simp only [State.leave, there]; intro sems same; cases same }
  | some sems =>
      have record := balanced.records sems there who
      have value := SemaphoreSet.semval_undo sems who ()
      simp only [State.value, there, Option.map_some, Option.getD_some] at total
      exact {
        total := by
          simp only [State.value, State.leave, there, Option.map_some, Option.getD_some]
          omega
        once := by simp only [State.leave]; omega
        missing := by simp only [State.leave, there]; intro none_; cases none_
        records := by
          simp only [State.leave, there]
          rintro _ ⟨⟩
          apply records_update
          · exact SemaphoreSet.semadj_undo_self sems who ()
          · intro other different
            rw [SemaphoreSet.semadj_undo_other other different]
            exact balanced.records sems there other }

/-- An operation on the semaphore and the move of its process. -/
theorem Balanced.operate (balanced : Balanced before) {op : ℤ} {next : At}
    (performed : semaphoreOperation before who op next = some after)
    (counted : ((before.place who).inside.toNat : ℤ) - op = next.inside.toNat)
    (setting : next.setting = (before.place who).setting) : Balanced after := by
  obtain ⟨sems', operated, rfl⟩ := Option.map_eq_some_iff.mp performed
  obtain ⟨sems, there, operated⟩ := Option.bind_eq_some_iff.mp operated
  have value := SemaphoreSet.semval_semop operated
  have record := SemaphoreSet.semadj_semop operated
  have inside := processCount_update At.inside before.place who next
  have total := balanced.total
  have old := balanced.records sems there who
  simp only [State.value, there, Option.map_some, Option.getD_some] at total
  exact {
    total := by
      simp only [State.value, Option.map_some, Option.getD_some]
      omega
    once := by
      rw [processCount_update_same setting]
      exact balanced.once
    missing := by intro none_; cases none_
    records := by
      rintro _ ⟨⟩
      apply records_update
      · omega
      · intro other different
        rw [SemaphoreSet.semadj_semop_other operated other different]
        exact balanced.records sems there other }

/-- The creation of the semaphore: nobody is inside yet. -/
theorem Balanced.create (balanced : Balanced before) (at_ : before.place who = .create)
    (there : before.sems = none) :
    Balanced { before with
      sems := some created, place := Function.update before.place who .set } := by
  have inside := processCount_update At.inside before.place who .set
  have setting := processCount_update At.setting before.place who .set
  simp only [at_, At.inside, At.setting, Bool.toNat_false, Bool.toNat_true] at inside setting
  have total := balanced.total
  have nothing := balanced.missing there
  simp only [State.value, there, Option.map_none, Option.getD_none] at total
  have nobody : processCount At.inside before.place = 0 := by omega
  exact {
    total := by
      simp only [State.value, created, Option.map_some, Option.getD_some]
      omega
    once := by dsimp only; omega
    missing := by intro none_; cases none_
    records := by
      rintro _ ⟨⟩
      apply records_update
      · rfl
      · intro other _
        rw [processCount_eq_zero_iff.mp nobody other]
        rfl }

/-- `SETVAL` is executed once, while nobody is inside. -/
theorem Balanced.set (balanced : Balanced before) (at_ : before.place who = .set)
    (sems : SemaphoreSet Unit Process) :
    Balanced { before with
      sems := some (sems.setval () 1)
      place := Function.update before.place who .lock
      initialised := true } := by
  have inside := processCount_update At.inside before.place who .lock
  have setting := processCount_update At.setting before.place who .lock
  simp only [at_, At.inside, At.setting, Bool.toNat_false, Bool.toNat_true] at inside setting
  have total := balanced.total
  have once := balanced.once
  have nobody : processCount At.inside before.place = 0 := by omega
  exact {
    total := by
      simp only [State.value, SemaphoreSet.setval, Option.map_some, Option.getD_some,
        Function.update_self, Bool.toNat_true]
      omega
    once := by simp only [Bool.toNat_true]; omega
    missing := by intro none_; cases none_
    records := by
      rintro _ ⟨⟩
      apply records_update
      · simp only [SemaphoreSet.setval, Function.update_self]
        rfl
      · intro other _
        simp only [SemaphoreSet.setval, Function.update_self]
        rw [processCount_eq_zero_iff.mp nobody other]
        rfl }

/-- Every step keeps the balance. -/
theorem Balanced.step (balanced : Balanced before) {action : Action Process}
    (moved : next before action = some after) : Balanced after := by
  cases action with
  | step who =>
      simp only [next, main] at moved
      split at moved
      case h_1 at_ =>
        cases moved
        apply balanced.goOn
        · rw [at_]; split <;> rfl
        · rw [at_]; split <;> rfl
      case h_2 at_ =>
        split at moved
        · rename_i there
          cases moved
          exact balanced.create at_ there
        · cases moved
          exact balanced.leave who
      case h_3 at_ =>
        obtain ⟨sems, _, rfl⟩ := Option.map_eq_some_iff.mp moved
        exact balanced.set at_ sems
      case h_4 at_ => exact balanced.operate moved (by rw [at_]; rfl) (by rw [at_]; rfl)
      case h_5 at_ => exact balanced.operate moved (by rw [at_]; rfl) (by rw [at_]; rfl)
      case h_6 =>
        cases moved
        exact balanced.leave who
      case h_7 => cases moved
  | kill who =>
      rw [next, Option.ite_none_left_eq_some] at moved
      obtain ⟨_, moved⟩ := moved
      cases moved
      exact balanced.leave who

theorem balanced_invariant :
    criticalSection.Invariant (Balanced : State Process → Prop) where
  initial := fun _ started => started ▸ balanced_start
  step := fun _ _ _ balanced moved => balanced.step moved

/-- **Mutual exclusion under crashes.** At most one process is inside, and the value of
the semaphore and the processes inside add up to 0 before `SETVAL` and to 1 after it. -/
theorem balanced_of_reachable {state : State Process}
    (reached : criticalSection.Reachable state) :
    processCount At.inside state.place ≤ 1 ∧
      (state.initialised = false → state.value + processCount At.inside state.place = 0) ∧
      (state.initialised = true → state.value + processCount At.inside state.place = 1) := by
  have total := (balanced_invariant.reachable reached).total
  have limit := Bool.toNat_le state.initialised
  refine ⟨by omega, ?_, ?_⟩
  · intro unset
    rwa [unset] at total
  · intro set
    rwa [set] at total

/-- The second process finds the semaphore before the first one has set it; the first one is
killed inside, and the second one enters. -/
def killedInside : List (Action Bool) :=
  [.step true, .step true, .step false, .step true, .step true, .kill true, .step false]

theorem balanced_of_killedInside : ∃ state : State Bool,
    run (guarded (fun _ _ => True) next) State.start killedInside = some state ∧
      state.value + processCount At.inside state.place = 1 := by
  have executed : ((run (guarded (fun _ _ => True) next) State.start killedInside).map
      fun state : State Bool => state.initialised) = some true := by decide
  obtain ⟨state, executed, set⟩ := Option.map_eq_some_iff.mp executed
  have reached : (criticalSection.restrict fun _ _ => True).Reachable state :=
    .of_run (.initial rfl) executed
  exact ⟨state, executed, (balanced_of_reachable reached.of_restrict).2.2 set⟩

end LinuxUnix.CriticalSection

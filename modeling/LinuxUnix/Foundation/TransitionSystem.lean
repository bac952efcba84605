import Mathlib.Data.Nat.Notation
import Mathlib.Logic.Function.Basic

/-! # Labelled transition systems

A system is a set of initial states and a labelled step relation. Invariants are
proved once per step (`TransitionSystem.Invariant`) and hold in every reachable
state (`TransitionSystem.Invariant.reachable`). A guard on the steps restricts a
system to the runs all of whose steps meet it (`TransitionSystem.restrict`), so
that a property can be proved for exactly those runs.
-/

/-- The states a system may start in, and its labelled steps. -/
structure TransitionSystem (State Label : Type*) where
  initial : State → Prop
  step : State → Label → State → Prop

namespace TransitionSystem

variable {State Label : Type*}

/-- The system of a partial transition function: a label that the function
refuses in a state is not enabled there. -/
def ofFunction (initial : State → Prop) (next : State → Label → Option State) :
    TransitionSystem State Label where
  initial := initial
  step before label after := next before label = some after

/-- The runs all of whose steps meet a guard on the state before and the label. -/
def restrict (system : TransitionSystem State Label) (guard : State → Label → Prop) :
    TransitionSystem State Label where
  initial := system.initial
  step before label after := guard before label ∧ system.step before label after

/-- The states that some run reaches. -/
inductive Reachable (system : TransitionSystem State Label) : State → Prop where
  | initial {state : State} (started : system.initial state) : Reachable system state
  | step {before after : State} {label : Label} (reached : Reachable system before)
      (moved : system.step before label after) : Reachable system after

/-- A predicate that holds initially and that every step preserves. -/
structure Invariant (system : TransitionSystem State Label) (predicate : State → Prop) :
    Prop where
  initial : ∀ state, system.initial state → predicate state
  step : ∀ before label after, predicate before → system.step before label after →
    predicate after

variable {system : TransitionSystem State Label} {guard : State → Label → Prop}

/-- An invariant holds in every reachable state. -/
theorem Invariant.reachable {predicate : State → Prop} (invariant : system.Invariant predicate)
    {state : State} (reached : system.Reachable state) : predicate state := by
  induction reached with
  | initial started => exact invariant.initial _ started
  | step _ moved ih => exact invariant.step _ _ _ ih moved

/-- No run goes on forever from the state. -/
def Terminates (system : TransitionSystem State Label) (state : State) : Prop :=
  Acc (fun after before => ∃ label, system.step before label after) state

/-- Runs end if every step lowers a measure, as long as an invariant holds. -/
theorem Invariant.terminates {predicate : State → Prop} (invariant : system.Invariant predicate)
    (measure : State → ℕ) (lowers : ∀ before label after, predicate before →
      system.step before label after → measure after < measure before) {state : State}
    (holds : predicate state) : system.Terminates state := by
  induction left : measure state using Nat.strongRecOn generalizing state with
  | _ size ih =>
      refine ⟨_, ?_⟩
      rintro after ⟨label, moved⟩
      have lower := lowers _ _ _ holds moved
      rw [left] at lower
      exact ih _ lower (invariant.step _ _ _ holds moved) rfl

/-- A run that does not go on forever comes to a state without a step. -/
theorem Terminates.exists_final {state : State} (terminates : system.Terminates state)
    (reached : system.Reachable state) :
    ∃ final, system.Reachable final ∧ ∀ label after, ¬ system.step final label after := by
  induction terminates with
  | intro state _ ih =>
      by_cases moves : ∃ label after, system.step state label after
      · obtain ⟨label, after, moved⟩ := moves
        exact ih after ⟨label, moved⟩ (.step reached moved)
      · exact ⟨state, reached, fun label after moved => moves ⟨label, after, moved⟩⟩

/-- A run that meets a guard is a run. -/
theorem Reachable.of_restrict {state : State} (reached : (system.restrict guard).Reachable state) :
    system.Reachable state := by
  induction reached with
  | initial started => exact .initial started
  | step _ moved ih => exact .step ih moved.2

/-- A transition function that refuses the steps that do not meet a guard. -/
def guarded (guard : State → Label → Prop) [∀ state label, Decidable (guard state label)]
    (next : State → Label → Option State) (state : State) (label : Label) : Option State :=
  if guard state label then next state label else none

/-- Execute a list of labels, stopping at the first that is not enabled. -/
def run (next : State → Label → Option State) : State → List Label → Option State
  | state, [] => some state
  | state, label :: labels => (next state label).bind fun after => run next after labels

theorem run_append {next : State → Label → Option State} (first second : List Label)
    (state : State) : run next state (first ++ second) =
      (run next state first).bind fun middle => run next middle second := by
  induction first generalizing state with
  | nil => rfl
  | cons label first ih =>
      rw [List.cons_append, run, run, Option.bind_assoc]
      exact Option.bind_congr fun after _ => ih after

/-- Every step of an execution meets a guard. -/
def Along (guard : State → Label → Prop) (next : State → Label → Option State) :
    State → List Label → Prop
  | _, [] => True
  | state, label :: labels =>
      guard state label ∧ ∀ after ∈ next state label, Along guard next after labels

instance decidableAlong {guard : State → Label → Prop}
    [∀ state label, Decidable (guard state label)] {next : State → Label → Option State} :
    ∀ state labels, Decidable (Along guard next state labels)
  | _, [] => .isTrue trivial
  | state, label :: labels =>
      have (after : State) : Decidable (Along guard next after labels) :=
        decidableAlong after labels
      inferInstanceAs (Decidable
        (guard state label ∧ ∀ after ∈ next state label, Along guard next after labels))

/-- What every step preserves, an execution preserves. -/
theorem run_preserves {next : State → Label → Option State} {holds : State → Prop}
    (keeps : ∀ before label after, holds before → next before label = some after → holds after)
    {labels : List Label} {before after : State} (start : holds before)
    (executed : run next before labels = some after) : holds after := by
  induction labels generalizing before with
  | nil =>
      cases executed
      exact start
  | cons label labels ih =>
      obtain ⟨middle, moved, rest⟩ := Option.bind_eq_some_iff.mp executed
      exact ih (keeps _ _ _ start moved) rest

/-- One predicate holds at the end of an execution if all its steps meet a guard, and another
one if a step does not, provided that this step establishes it and the later ones keep it. -/
theorem run_decides {next : State → Label → Option State} {good bad : State → Prop}
    (keeps : ∀ before label after, good before → guard before label →
      next before label = some after → good after)
    (breaks : ∀ before label after, good before → ¬ guard before label →
      next before label = some after → bad after)
    (stays : ∀ before label after, bad before → next before label = some after → bad after)
    {labels : List Label} {before after : State} (start : good before)
    (executed : run next before labels = some after) :
    Along guard next before labels ∧ good after ∨ ¬ Along guard next before labels ∧ bad after := by
  induction labels generalizing before with
  | nil =>
      cases executed
      exact .inl ⟨trivial, start⟩
  | cons label labels ih =>
      obtain ⟨middle, moved, rest⟩ := Option.bind_eq_some_iff.mp executed
      by_cases met : guard before label
      · rcases ih (keeps _ _ _ start met moved) rest with ⟨along, ended⟩ | ⟨strayed, ended⟩
        · refine .inl ⟨⟨met, ?_⟩, ended⟩
          rintro other there
          cases moved.symm.trans there
          exact along
        · exact .inr ⟨fun along => strayed (along.2 middle moved), ended⟩
      · exact .inr ⟨fun along => met along.1,
          run_preserves stays (breaks _ _ _ start met moved) rest⟩

/-- The state that an execution ends in is reached. -/
theorem Reachable.of_execution {initial : State → Prop} {next : State → Label → Option State}
    {labels : List Label} {before after : State}
    (reached : (ofFunction initial next).Reachable before)
    (executed : run next before labels = some after) : (ofFunction initial next).Reachable after :=
  run_preserves (fun _ _ _ there moved => .step there moved) reached executed

/-- A state that a guarded execution ends in is reached by a run that meets the
guard. -/
theorem Reachable.of_run {initial : State → Prop} {next : State → Label → Option State}
    [∀ state label, Decidable (guard state label)] {labels : List Label} :
    ∀ {before after : State}, ((ofFunction initial next).restrict guard).Reachable before →
      run (guarded guard next) before labels = some after →
        ((ofFunction initial next).restrict guard).Reachable after := by
  induction labels with
  | nil =>
      intro before after reached executed
      cases executed
      exact reached
  | cons label labels ih =>
      intro before after reached executed
      obtain ⟨middle, moved, executed⟩ := Option.bind_eq_some_iff.mp executed
      unfold guarded at moved
      split at moved
      · rename_i met
        exact ih (.step reached ⟨met, moved⟩) executed
      · cases moved

end TransitionSystem

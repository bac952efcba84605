import Mathlib.Logic.Function.Iterate

/-! # Running a deterministic machine

A machine is a step function; it stops at a state that it steps to itself. The
states a run reaches compose (`Reaches.trans`), and two stopping states that one
run reaches are the same (`Reaches.eq_of_fixed`). Whether a run stops and holds to something
on the way is decided step by step (`completes_iff_step`), or follows from an invariant and a
measure (`completes_of_measure`).
-/

variable {State : Type*} {step : State → State}

/-- Some number of steps leads from one state to the other. -/
def Reaches (step : State → State) (before after : State) : Prop :=
  ∃ count, step^[count] before = after

theorem Reaches.refl (state : State) : Reaches step state state :=
  ⟨0, rfl⟩

theorem Reaches.head {before middle after : State} (moved : step before = middle)
    (rest : Reaches step middle after) : Reaches step before after := by
  obtain ⟨count, rfl⟩ := rest
  exact ⟨count + 1, by rw [Function.iterate_succ_apply, moved]⟩

theorem Reaches.trans {before middle after : State} (first : Reaches step before middle)
    (second : Reaches step middle after) : Reaches step before after := by
  obtain ⟨first, rfl⟩ := first
  obtain ⟨second, rfl⟩ := second
  exact ⟨second + first, Function.iterate_add_apply step second first before⟩

/-- What every step preserves, every run preserves. -/
theorem Reaches.preserves {before after : State} (run : Reaches step before after)
    (holds : State → Prop) (preserved : ∀ state, holds state → holds (step state))
    (start : holds before) : holds after := by
  obtain ⟨count, rfl⟩ := run
  exact Function.Iterate.rec holds start preserved count

/-- A run that has stopped has only one stopping state. -/
theorem Reaches.eq_of_fixed {start first second : State} (left : Reaches step start first)
    (right : Reaches step start second) (leftFixed : step first = first)
    (rightFixed : step second = second) : first = second := by
  obtain ⟨left, rfl⟩ := left
  obtain ⟨right, rfl⟩ := right
  calc step^[left] start = step^[right] (step^[left] start) :=
        (Function.iterate_fixed leftFixed right).symm
    _ = step^[left] (step^[right] start) := by
        rw [← Function.iterate_add_apply, Nat.add_comm, Function.iterate_add_apply]
    _ = step^[right] start := Function.iterate_fixed rightFixed left

/-- Of two states of one run, one is reached from the other. -/
theorem Reaches.linear {start first second : State} (left : Reaches step start first)
    (right : Reaches step start second) :
    Reaches step first second ∨ Reaches step second first := by
  obtain ⟨left, rfl⟩ := left
  obtain ⟨right, rfl⟩ := right
  rcases Nat.le_total left right with less | less
  · refine .inl ⟨right - left, ?_⟩
    rw [← Function.iterate_add_apply, Nat.sub_add_cancel less]
  · refine .inr ⟨left - right, ?_⟩
    rw [← Function.iterate_add_apply, Nat.sub_add_cancel less]

/-- A run from a state is at the state itself, or at one that is reached from the next. -/
theorem Reaches.cases_head {before after : State} (run : Reaches step before after) :
    before = after ∨ Reaches step (step before) after := by
  obtain ⟨_ | count, rfl⟩ := run
  · exact .inl rfl
  · exact .inr ⟨count, (Function.iterate_succ_apply step count before).symm⟩

/-- The machine stops at a state of one kind, and all states on the way are of another kind. -/
def Completes (step : State → State) (ended sound : State → Prop) (start : State) : Prop :=
  (∃ after, Reaches step start after ∧ ended after) ∧ ∀ after, Reaches step start after → sound after

variable {ended sound : State → Prop} {state : State}

theorem completes_of_ended (stopped : ended state) (fixed : step state = state)
    (holds : sound state) : Completes step ended sound state := by
  refine ⟨⟨state, .refl state, stopped⟩, ?_⟩
  rintro after ⟨count, rfl⟩
  rw [Function.iterate_fixed fixed]
  exact holds

theorem not_completes_of_unsound (breaks : ¬ sound state) : ¬ Completes step ended sound state :=
  fun completes => breaks (completes.2 state (.refl state))

/-- A machine that stands still before it has ended never does. -/
theorem not_completes_of_stuck (fixed : step state = state) (running : ¬ ended state) :
    ¬ Completes step ended sound state := by
  rintro ⟨⟨after, ⟨count, rfl⟩, stopped⟩, -⟩
  rw [Function.iterate_fixed fixed] at stopped
  exact running stopped

/-- A machine that has not ended goes on. -/
theorem completes_iff_step (running : ¬ ended state) (holds : sound state) :
    Completes step ended sound state ↔ Completes step ended sound (step state) := by
  constructor
  · rintro ⟨⟨after, run, stopped⟩, all⟩
    refine ⟨⟨after, ?_, stopped⟩, fun later onward => all later (.head rfl onward)⟩
    rcases run.cases_head with rfl | onward
    · exact absurd stopped running
    · exact onward
  · rintro ⟨⟨after, run, stopped⟩, all⟩
    refine ⟨⟨after, .head rfl run, stopped⟩, fun later onward => ?_⟩
    rcases onward.cases_head with rfl | onward
    · exact holds
    · exact all later onward

theorem Completes.mono {weaker : State → Prop} (completes : Completes step ended sound state)
    (implies : ∀ state, sound state → weaker state) : Completes step ended weaker state :=
  ⟨completes.1, fun after run => implies after (completes.2 after run)⟩

/-- A machine stops if every step lowers a measure, as long as an invariant holds that it starts
with. -/
theorem completes_of_measure (measure : State → ℕ)
    (keeps : ∀ state, sound state → sound (step state))
    (lowers : ∀ state, sound state → ¬ ended state → measure (step state) < measure state)
    (starts : sound state) : Completes step ended sound state := by
  refine ⟨?_, fun after run => run.preserves sound keeps starts⟩
  induction left : measure state using Nat.strongRecOn generalizing state with
  | _ size ih =>
      by_cases stopped : ended state
      · exact ⟨state, .refl state, stopped⟩
      · have lower := lowers state starts stopped
        rw [left] at lower
        obtain ⟨after, run, stops⟩ := ih _ lower (keeps state starts) rfl
        exact ⟨after, .head rfl run, stops⟩

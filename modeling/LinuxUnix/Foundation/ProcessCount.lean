import Mathlib.Algebra.BigOperators.Group.Finset.Basic
import Mathlib.Algebra.GroupWithZero.Nat
import Mathlib.Algebra.Order.BigOperators.Group.Finset
import Mathlib.Data.Finset.Card
import Mathlib.Data.Fintype.Basic

/-! # Counting the processes at a place

The number of processes whose local state satisfies a predicate, and how one
process's move changes it (`processCount_update`); and the weight of some processes, given by their
number or as a list (`sum_update_lt`, `sum_map_set`).
-/

variable {Process Place : Type*} [Fintype Process]

/-- The number of processes whose place satisfies `inside`. -/
def processCount (inside : Place → Bool) (place : Process → Place) : ℕ :=
  (Finset.univ.filter fun process => inside (place process)).card

variable {inside : Place → Bool} {place : Process → Place}

theorem processCount_eq_zero_iff :
    processCount inside place = 0 ↔ ∀ process, inside (place process) = false := by
  simp only [processCount, Finset.card_eq_zero, Finset.filter_eq_empty_iff, Finset.mem_univ,
    true_implies, Bool.not_eq_true]

theorem processCount_const {start : Place} (outside : inside start = false) :
    processCount inside (fun _ : Process => start) = 0 :=
  processCount_eq_zero_iff.mpr fun _ => outside

theorem processCount_le_one_iff :
    processCount inside place ≤ 1 ↔ ∀ first second, inside (place first) = true →
      inside (place second) = true → first = second := by
  simp only [processCount, Finset.card_le_one, Finset.mem_filter, Finset.mem_univ, true_and]
  exact ⟨fun same first second one other => same first one second other,
    fun same first one second other => same first second one other⟩

theorem processCount_pos {process : Process} (member : inside (place process) = true) :
    0 < processCount inside place :=
  Finset.card_pos.mpr ⟨process, Finset.mem_filter.mpr ⟨Finset.mem_univ _, member⟩⟩

variable [DecidableEq Process]

/-- A process that moves takes its old place out of the count and brings in its
new one. -/
theorem processCount_update (inside : Place → Bool) (place : Process → Place)
    (process : Process) (next : Place) :
    processCount inside (Function.update place process next) + (inside (place process)).toNat =
      processCount inside place + (inside next).toNat := by
  have others : ∀ other, other ∈ Finset.univ.erase process →
      Function.update place process next other = place other := fun other member =>
    Function.update_of_ne (Finset.ne_of_mem_erase member) _ _
  have split : ∀ current : Process → Place, processCount inside current =
      ((Finset.univ.erase process).filter fun other => inside (current other)).card +
        (inside (current process)).toNat := by
    intro current
    rw [processCount, ← Finset.insert_erase (Finset.mem_univ process), Finset.filter_insert]
    cases present : inside (current process) with
    | false => simp
    | true => simp
  rw [split, split place, Function.update_self,
    Finset.filter_congr fun other member => by rw [others other member]]
  omega

/-- A process that stays on its side of the predicate leaves the count unchanged. -/
theorem processCount_update_same {process : Process} {next : Place}
    (same : inside next = inside (place process)) :
    processCount inside (Function.update place process next) = processCount inside place := by
  have moved := processCount_update inside place process next
  rw [same] at moved
  exact Nat.add_right_cancel moved

/-- A process that goes to a lighter place makes the processes lighter as a whole. -/
theorem sum_update_lt {weight : Place → ℕ} {process : Process} {next : Place}
    (lighter : weight next < weight (place process)) :
    ∑ other, weight (Function.update place process next other) < ∑ other, weight (place other) := by
  apply Finset.sum_lt_sum
  · intro other _
    by_cases same : other = process
    · subst same
      rw [Function.update_self]
      exact Nat.le_of_lt lighter
    · rw [Function.update_of_ne same]
  · refine ⟨process, Finset.mem_univ _, ?_⟩
    rw [Function.update_self]
    exact lighter

/-- A process of a list that goes to another place changes the sum by its own weight. -/
theorem sum_map_set (weight : Place → ℕ) {places : List Place} {number : ℕ} {place : Place}
    (here : places[number]? = some place) (next : Place) :
    ((places.set number next).map weight).sum + weight place =
      (places.map weight).sum + weight next := by
  obtain ⟨inside, there⟩ := List.getElem?_eq_some_iff.mp here
  have split : places.take number ++ place :: places.drop (number + 1) = places := by
    rw [← there, List.cons_getElem_drop_succ, List.take_append_drop]
  have whole := congrArg (fun places => (places.map weight).sum) split
  rw [List.set_eq_take_append_cons_drop, if_pos inside]
  simp only [List.map_append, List.map_cons, List.sum_append, List.sum_cons] at whole ⊢
  omega

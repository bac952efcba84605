import Mathlib.Data.Int.Init
import Mathlib.Logic.Function.Basic

/-! # System V semaphore sets with undo records

A set holds a value for each semaphore and, for each process, the adjustment that
the kernel applies when the process ends. An operation made with `SEM_UNDO`
subtracts itself from the adjustment of its process (`SemaphoreSet.semop`); the
end of a process adds its adjustments back, clamped at zero
(`SemaphoreSet.undo`).
-/

/-- The values of the semaphores of a set, and each process's pending adjustments. -/
structure SemaphoreSet (Sem Process : Type*) where
  semval : Sem → ℕ
  semadj : Process → Sem → ℤ

namespace SemaphoreSet

variable {Sem Process : Type*} [DecidableEq Sem] [DecidableEq Process]

/-- One operation with `SEM_UNDO`; it waits (`none`) rather than let the value
fall below zero. -/
def semop (sems : SemaphoreSet Sem Process) (process : Process) (sem : Sem) (op : ℤ) :
    Option (SemaphoreSet Sem Process) :=
  if (sems.semval sem : ℤ) + op < 0 then none
  else some {
    semval := Function.update sems.semval sem ((sems.semval sem : ℤ) + op).toNat
    semadj := Function.update sems.semadj process
      (Function.update (sems.semadj process) sem (sems.semadj process sem - op)) }

/-- The end of a process: its adjustments are applied and forgotten. -/
def undo (sems : SemaphoreSet Sem Process) (process : Process) : SemaphoreSet Sem Process where
  semval sem := ((sems.semval sem : ℤ) + sems.semadj process sem).toNat
  semadj := Function.update sems.semadj process fun _ => 0

/-- `semctl` with `SETVAL`: one semaphore gets a value, and all adjustments of it are
forgotten. -/
def setval (sems : SemaphoreSet Sem Process) (sem : Sem) (value : ℕ) :
    SemaphoreSet Sem Process where
  semval := Function.update sems.semval sem value
  semadj process := Function.update (sems.semadj process) sem 0

variable {sems after : SemaphoreSet Sem Process} {process : Process} {sem : Sem} {op : ℤ}

/-- An operation takes effect exactly when the value stays non-negative. -/
theorem semop_eq_some_iff :
    sems.semop process sem op = some after ↔ 0 ≤ (sems.semval sem : ℤ) + op ∧
      after = {
        semval := Function.update sems.semval sem ((sems.semval sem : ℤ) + op).toNat
        semadj := Function.update sems.semadj process
          (Function.update (sems.semadj process) sem (sems.semadj process sem - op)) } := by
  unfold semop
  split
  · exact ⟨nofun, fun performed => by omega⟩
  · rename_i enough
    rw [Option.some.injEq]
    exact ⟨fun same => ⟨by omega, same.symm⟩, fun performed => performed.2.symm⟩

theorem semval_semop (performed : sems.semop process sem op = some after) :
    (after.semval sem : ℤ) = sems.semval sem + op := by
  obtain ⟨enough, rfl⟩ := semop_eq_some_iff.mp performed
  simp only [Function.update_self]
  omega

theorem semval_semop_of_ne (performed : sems.semop process sem op = some after) (other : Sem)
    (different : other ≠ sem) : after.semval other = sems.semval other := by
  obtain ⟨_, rfl⟩ := semop_eq_some_iff.mp performed
  exact Function.update_of_ne different _ _

theorem semadj_semop (performed : sems.semop process sem op = some after) :
    after.semadj process sem = sems.semadj process sem - op := by
  obtain ⟨_, rfl⟩ := semop_eq_some_iff.mp performed
  simp only [Function.update_self]

theorem semadj_semop_of_ne (performed : sems.semop process sem op = some after) (other : Sem)
    (different : other ≠ sem) : after.semadj process other = sems.semadj process other := by
  obtain ⟨_, rfl⟩ := semop_eq_some_iff.mp performed
  simp only [Function.update_self, Function.update_of_ne different]

theorem semadj_semop_other (performed : sems.semop process sem op = some after)
    (other : Process) (different : other ≠ process) :
    after.semadj other = sems.semadj other := by
  obtain ⟨_, rfl⟩ := semop_eq_some_iff.mp performed
  exact Function.update_of_ne different _ _

omit [DecidableEq Sem] in
/-- The value after a process has ended, clamped at zero. -/
theorem semval_undo (sems : SemaphoreSet Sem Process) (process : Process) (sem : Sem) :
    ((sems.undo process).semval sem : ℤ) = max 0 (sems.semval sem + sems.semadj process sem) := by
  simp only [undo]
  omega

omit [DecidableEq Sem] in
theorem semadj_undo_other (other : Process) (different : other ≠ process) :
    (sems.undo process).semadj other = sems.semadj other :=
  Function.update_of_ne different _ _

omit [DecidableEq Sem] in
theorem semadj_undo_self (sems : SemaphoreSet Sem Process) (process : Process) (sem : Sem) :
    (sems.undo process).semadj process sem = 0 := by
  simp only [undo, Function.update_self]

end SemaphoreSet

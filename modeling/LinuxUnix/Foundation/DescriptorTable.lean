import Mathlib.Data.Int.Init
import Mathlib.Logic.Function.Basic

/-! # Descriptor tables

What the descriptors of a process denote. A number that is negative or not in
use denotes nothing.
-/

/-- The object that each number in use denotes. -/
abbrev DescriptorTable (Object : Type*) := ℕ → Option Object

namespace DescriptorTable

variable {Object : Type*}

/-- What a value of type `int` denotes as a descriptor. -/
def lookup (table : DescriptorTable Object) (fd : ℤ) : Option Object :=
  if fd < 0 then none else table fd.toNat

/-- The table after a call that hands out a number. -/
def install (table : DescriptorTable Object) (fd : ℕ) (object : Object) :
    DescriptorTable Object :=
  Function.update table fd (some object)

/-- The table after `close`. -/
def release (table : DescriptorTable Object) (fd : ℤ) : DescriptorTable Object :=
  if fd < 0 then table else Function.update table fd.toNat none

/-- The number that `socket`, `accept` and `open` hand out: the lowest one not in use. -/
def Lowest (table : DescriptorTable Object) (fd : ℕ) : Prop :=
  table fd = none ∧ ∀ lower < fd, table lower ≠ none

instance (table : DescriptorTable Object) (fd : ℕ) : Decidable (table.Lowest fd) :=
  inferInstanceAs (Decidable (_ ∧ _))

variable {table : DescriptorTable Object} {fd : ℕ} {object : Object}

@[simp] theorem lookup_natCast (table : DescriptorTable Object) (fd : ℕ) :
    table.lookup (fd : ℤ) = table fd := by
  simp only [lookup, Int.toNat_natCast]
  exact if_neg (by omega)

theorem install_self : table.install fd object fd = some object :=
  Function.update_self ..

theorem install_of_ne {other : ℕ} (different : other ≠ fd) :
    table.install fd object other = table other :=
  Function.update_of_ne different _ _

/-- `close` leaves entries, and none for its own number. -/
theorem of_release_eq_some {fd : ℤ} {other : ℕ} (open_ : table.release fd other = some object) :
    (other : ℤ) ≠ fd ∧ table other = some object := by
  unfold release at open_
  split at open_
  · exact ⟨by omega, open_⟩
  · by_cases same : other = fd.toNat
    · rw [same, Function.update_self] at open_
      cases open_
    · rw [Function.update_of_ne same] at open_
      exact ⟨by omega, open_⟩

theorem lookup_install_self : (table.install fd object).lookup (fd : ℤ) = some object := by
  rw [lookup_natCast, install, Function.update_self]

theorem lookup_install_of_ne {other : ℤ} (different : other ≠ fd) :
    (table.install fd object).lookup other = table.lookup other := by
  unfold lookup install
  split
  · rfl
  · exact Function.update_of_ne (by omega) _ _

theorem lookup_release_self (table : DescriptorTable Object) (fd : ℤ) :
    (table.release fd).lookup fd = none := by
  unfold lookup release
  split
  · rfl
  · exact Function.update_self ..

theorem lookup_release_of_ne {fd other : ℤ} (different : other ≠ fd) :
    (table.release fd).lookup other = table.lookup other := by
  unfold lookup release
  split
  · rfl
  · split
    · rfl
    · exact Function.update_of_ne (by omega) _ _

/-- `close` does not open anything. -/
theorem lookup_release_eq_none {other : ℤ} (unused : table.lookup other = none) (fd : ℤ) :
    (table.release fd).lookup other = none := by
  by_cases same : other = fd
  · rw [same]
    exact lookup_release_self ..
  · exact (lookup_release_of_ne same).trans unused

end DescriptorTable

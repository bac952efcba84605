import Mathlib.Logic.Function.Basic

/-! # Allocated memory and who owns it

A block of memory is there from its `malloc` to its `free`, and its address may be given out again
afterwards. If each owner has at most one block, and the blocks of different owners are different ones,
then no owner touches what another one has, and a block that is freed is there
(`Allocation.Owned`).
-/

/-- The blocks that are there, with what they hold. -/
abbrev Allocation (Address Value : Type*) := Address → Option Value

namespace Allocation

variable {Owner Address Value : Type*}

/-- The blocks are those of the owners, each of its own. -/
structure Owned (memory : Allocation Address Value) (owns : Owner → Option (Address × Value)) :
    Prop where
  holds : ∀ owner address value, owns owner = some (address, value) → memory address = some value
  apart : ∀ first second address value value', owns first = some (address, value) →
    owns second = some (address, value') → first = second
  all : ∀ address value, memory address = some value →
    ∃ owner, owns owner = some (address, value)

theorem owned_nothing :
    Owned (fun _ : Address => (none : Option Value)) fun _ : Owner => none where
  holds := nofun
  apart := nofun
  all := nofun

variable {memory : Allocation Address Value} {owns : Owner → Option (Address × Value)}

/-- If nobody owns anything, nothing is there. -/
theorem Owned.eq_none_of_nobody (owned : Owned memory owns) (nobody : ∀ owner, owns owner = none)
    (address : Address) : memory address = none := by
  cases found : memory address with
  | none => rfl
  | some value =>
      obtain ⟨owner, has⟩ := owned.all address value found
      rw [nobody] at has
      cases has

variable [DecidableEq Owner] [DecidableEq Address] {owner : Owner} {address : Address}
  {value : Value}

/-- The owner of a block frees it. -/
theorem Owned.free (owned : Owned memory owns) (has : owns owner = some (address, value)) :
    Owned (Function.update memory address none) (Function.update owns owner none) := by
  have other {who : Owner} {block : Address × Value} (there : Function.update owns owner none who =
      some block) : who ≠ owner ∧ owns who = some block := by
    rcases eq_or_ne who owner with rfl | different
    · rw [Function.update_self] at there
      cases there
    · rw [Function.update_of_ne different] at there
      exact ⟨different, there⟩
  refine ⟨fun who block content there => ?_, fun one two block content content' first second => ?_,
    fun block content there => ?_⟩
  · obtain ⟨different, there⟩ := other there
    rw [Function.update_of_ne _ _ _, owned.holds who block content there]
    rintro rfl
    exact different (owned.apart _ _ _ _ _ there has)
  · exact owned.apart _ _ _ _ _ (other first).2 (other second).2
  · rcases eq_or_ne block address with rfl | elsewhere
    · rw [Function.update_self] at there
      cases there
    · rw [Function.update_of_ne elsewhere] at there
      obtain ⟨who, mine⟩ := owned.all block content there
      refine ⟨who, ?_⟩
      rw [Function.update_of_ne _ _ _, mine]
      rintro rfl
      cases has.symm.trans mine
      exact elsewhere rfl

/-- An owner without a block gets one that has not been there. -/
theorem Owned.malloc (owned : Owned memory owns) (fresh : memory address = none)
    (without : owns owner = none) (value : Value) :
    Owned (Function.update memory address (some value))
      (Function.update owns owner (some (address, value))) := by
  have old {who : Owner} {block : Address} {content : Value}
      (there : owns who = some (block, content)) : block ≠ address := by
    rintro rfl
    cases fresh.symm.trans (owned.holds who block content there)
  refine ⟨fun who block content there => ?_, fun one two block content content' first second => ?_,
    fun block content there => ?_⟩
  · rcases eq_or_ne who owner with rfl | different
    · rw [Function.update_self] at there
      cases there
      exact Function.update_self ..
    · rw [Function.update_of_ne different] at there
      rw [Function.update_of_ne (old there), owned.holds who block content there]
  · rcases eq_or_ne one owner with rfl | different
    · rcases eq_or_ne two one with rfl | different'
      · rfl
      · rw [Function.update_self] at first
        rw [Function.update_of_ne different'] at second
        cases first
        exact absurd rfl (old second)
    · rw [Function.update_of_ne different] at first
      rcases eq_or_ne two owner with rfl | different'
      · rw [Function.update_self] at second
        cases second
        exact absurd rfl (old first)
      · rw [Function.update_of_ne different'] at second
        exact owned.apart _ _ _ _ _ first second
  · rcases eq_or_ne block address with rfl | elsewhere
    · rw [Function.update_self] at there
      cases there
      exact ⟨owner, Function.update_self ..⟩
    · rw [Function.update_of_ne elsewhere] at there
      obtain ⟨who, mine⟩ := owned.all block content there
      refine ⟨who, ?_⟩
      rw [Function.update_of_ne _ _ _, mine]
      rintro rfl
      cases without.symm.trans mine

/-- The owner of a block writes to it. -/
theorem Owned.store (owned : Owned memory owns) (has : owns owner = some (address, value))
    (next : Value) : Owned (Function.update memory address (some next))
      (Function.update owns owner (some (address, next))) := by
  have written := (owned.free has).malloc (Function.update_self ..) (Function.update_self ..) next
  rw [Function.update_idem, Function.update_idem] at written
  exact written

/-- The owner of a block gives it to somebody who has none. -/
theorem Owned.give {receiver : Owner} (owned : Owned memory owns)
    (has : owns owner = some (address, value)) (without : owns receiver = none) :
    Owned memory (Function.update (Function.update owns owner none) receiver
      (some (address, value))) := by
  have different : receiver ≠ owner := by
    rintro rfl
    cases without.symm.trans has
  have given := (owned.free has).malloc (Function.update_self ..)
    (by rw [Function.update_of_ne different, without]) value
  rw [Function.update_idem, ← owned.holds _ _ _ has, Function.update_eq_self] at given
  exact given

end Allocation

import Mathlib.Data.List.Basic
import Mathlib.Data.Nat.Notation

/-! # The longest prefix that has room

Of the prefixes of a list that have a property one may be the longest: all others are prefixes of
it. Texts that are taken one after the other, as long as there is room for the next one, make up
the longest prefix that has room (`Prefixes.longest_taken`).
-/

namespace Prefixes

variable {Element : Type*}

/-- A prefix of a list that has a property, and of which every other one is a prefix. -/
structure Longest (property : List Element → Prop) (whole part : List Element) : Prop where
  isPrefix : part <+: whole
  holds : property part
  longest : ∀ other, other <+: whole → property other → other <+: part

/-- Behind so many elements the texts have room in less than a size. -/
def Fits (size used : ℕ) (texts : List (List Element)) : Prop :=
  used + texts.flatten.length < size

/-- The texts that are taken as long as the next one has room. -/
def taken (size used : ℕ) : List (List Element) → List (List Element)
  | [] => []
  | text :: texts =>
      if used + text.length < size then text :: taken size (used + text.length) texts else []

variable {size used : ℕ} {text : List Element} {texts : List (List Element)}

theorem fits_nil : Fits size used ([] : List (List Element)) ↔ used < size := by
  rw [Fits, List.flatten_nil, List.length_nil, Nat.add_zero]

theorem fits_cons : Fits size used (text :: texts) ↔ Fits size (used + text.length) texts := by
  rw [Fits, Fits, List.flatten_cons, List.length_append, Nat.add_assoc]

theorem taken_of_room (room : used + text.length < size) (texts : List (List Element)) :
    taken size used (text :: texts) = text :: taken size (used + text.length) texts :=
  if_pos room

theorem taken_of_full (full : ¬ used + text.length < size) (texts : List (List Element)) :
    taken size used (text :: texts) = [] :=
  if_neg full

theorem longest_taken (room : used < size) (texts : List (List Element)) :
    Longest (Fits size used) texts (taken size used texts) := by
  induction texts generalizing used with
  | nil => exact ⟨List.prefix_rfl, fits_nil.mpr room, fun _ inside _ => inside⟩
  | cons text texts ih =>
      by_cases next : used + text.length < size
      · obtain ⟨isPrefix, holds, longest⟩ := ih next
        rw [taken_of_room next]
        refine ⟨List.cons_prefix_cons.mpr ⟨rfl, isPrefix⟩, fits_cons.mpr holds, ?_⟩
        intro other inside fits
        cases other with
        | nil => exact List.nil_prefix
        | cons head tail =>
            obtain ⟨rfl, behind⟩ := List.cons_prefix_cons.mp inside
            exact List.cons_prefix_cons.mpr ⟨rfl, longest tail behind (fits_cons.mp fits)⟩
      · rw [taken_of_full next]
        refine ⟨List.nil_prefix, fits_nil.mpr room, ?_⟩
        intro other inside fits
        cases other with
        | nil => exact List.prefix_rfl
        | cons head tail =>
            obtain ⟨rfl, -⟩ := List.cons_prefix_cons.mp inside
            rw [fits_cons, Fits] at fits
            exact absurd (Nat.lt_of_le_of_lt (Nat.le_add_right ..) fits) next

end Prefixes

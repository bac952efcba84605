import Mathlib.Data.List.Nodup

/-! # Lists with keys

In a list of distinct keys each key selects at most one entry.
-/

namespace Keyed

variable {Key Entry : Type*} [DecidableEq Key] {keys : List Key}

theorem filter_eq_of_nodup (nodup : keys.Nodup) (key : Key) :
    keys.filter (fun other => other = key) = if key ∈ keys then [key] else [] := by
  rw [List.filter_eq, nodup.count]
  split
  · rfl
  · rfl

/-- The entry of a key, if every entry knows its key. -/
theorem select_of_nodup (nodup : keys.Nodup) {entry : Key → Entry} {keyOf : Entry → Key}
    (knows : ∀ key, keyOf (entry key) = key) (key : Key) :
    (keys.map entry).filter (fun found => keyOf found = key) =
      if key ∈ keys then [entry key] else [] := by
  have same : (fun found => decide (keyOf found = key)) ∘ entry =
      fun other => decide (other = key) := by
    funext other
    rw [Function.comp_apply, knows]
  rw [List.filter_map, same, filter_eq_of_nodup nodup]
  split
  · rfl
  · rfl

end Keyed

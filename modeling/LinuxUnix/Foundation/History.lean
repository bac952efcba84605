import Mathlib.Data.List.Induction

/-! # What has happened since

Something holds since an event of one kind if no event of another kind has come after it
(`History.Since`). A history grows at its end.
-/

namespace History

variable {Event : Type*}

/-- An event of the first kind has happened, and after it none of the second. -/
def Since (starts ends : Event → Prop) (history : List Event) : Prop :=
  ∃ before event after, history = before ++ event :: after ∧ starts event ∧
    ∀ later ∈ after, ¬ ends later

variable {starts ends : Event → Prop} {history : List Event} {event : Event}

theorem not_since_nil : ¬ Since starts ends ([] : List Event) := by
  rintro ⟨before, event, after, split, _⟩
  cases before with
  | nil => cases split
  | cons _ _ => cases split

/-- The last event starts it, or does not end it. -/
theorem since_concat : Since starts ends (history ++ [event]) ↔
    starts event ∨ Since starts ends history ∧ ¬ ends event := by
  constructor
  · rintro ⟨before, first, after, split, started, kept⟩
    cases after using List.reverseRecOn with
    | nil =>
        cases (List.append_inj' split rfl).2
        exact .inl started
    | append_singleton after last =>
        rw [← List.cons_append, ← List.append_assoc] at split
        obtain ⟨earlier, last_⟩ := List.append_inj' split rfl
        cases last_
        refine .inr ⟨⟨before, first, after, earlier, started, ?_⟩, ?_⟩
        · exact fun later member => kept later (List.mem_append_left _ member)
        · exact kept _ (List.mem_append_right _ List.mem_cons_self)
  · rintro (started | ⟨⟨before, first, after, rfl, started, kept⟩, goes⟩)
    · exact ⟨history, event, [], rfl, started, fun later member => absurd member List.not_mem_nil⟩
    · refine ⟨before, first, after ++ [event], ?_, started, ?_⟩
      · rw [List.append_assoc, List.cons_append]
      · intro later member
        cases List.mem_append.mp member with
        | inl inside => exact kept later inside
        | inr last => exact List.mem_singleton.mp last ▸ goes

/-- Of two kinds that exclude each other only one can have come last. -/
theorem not_since_of_since (disjoint : ∀ event, starts event → ¬ ends event)
    (since : Since starts ends history) : ¬ Since ends starts history := by
  induction history using List.reverseRecOn with
  | nil => exact absurd since not_since_nil
  | append_singleton history event ih =>
      rw [since_concat] at since ⊢
      rintro (ended | ⟨earlier, goes⟩)
      · cases since with
        | inl started => exact disjoint event started ended
        | inr kept => exact kept.2 ended
      · cases since with
        | inl started => exact goes started
        | inr kept => exact ih kept.1 earlier

end History

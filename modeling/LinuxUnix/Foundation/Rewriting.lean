import LinuxUnix.Foundation.OpenFiles

/-! # A file that several write anew

Any number of writers empty a file and put the same text into it, each of them from the start on, in
pieces, and with no regard to the others. A position that does not have its element yet is still to
come to one of them (`Rewriting.Mends`), so that the file holds the text as soon as nobody is at it
(`Rewriting.Mends.eq_of_nobody`).
-/

namespace Rewriting

open OpenFiles

variable {Element Writer : Type*} {text content : List Element} {writing : Writer → Option ℕ}

/-- What a file may hold while some writers, each with the offset it has come to, put the text into
it. -/
structure Mends (text content : List Element) (writing : Writer → Option ℕ) : Prop where
  short : content.length ≤ text.length
  /-- an element is there, or still to come -/
  comes : ∀ index < text.length, content[index]? = text[index]? ∨
    ∃ writer offset, writing writer = some offset ∧ offset ≤ index

/-- Nobody is at the file. -/
theorem Mends.eq_of_nobody (mends : Mends text content writing)
    (nobody : ∀ writer, writing writer = none) : content = text := by
  refine List.ext_getElem? fun index => ?_
  by_cases inside : index < text.length
  · rcases mends.comes index inside with there | ⟨writer, offset, writes, -⟩
    · exact there
    · rw [nobody] at writes
      cases writes
  · rw [List.getElem?_eq_none (Nat.le_trans mends.short (Nat.le_of_not_lt inside)),
      List.getElem?_eq_none (Nat.le_of_not_lt inside)]

variable [DecidableEq Writer] {writer : Writer} {offset : ℕ}

/-- A writer empties the file. -/
theorem mends_nil (text : List Element) (writing : Writer → Option ℕ) (writer : Writer) :
    Mends text [] (Function.update writing writer (some 0)) where
  short := Nat.zero_le _
  comes _ _ := .inr ⟨writer, 0, Function.update_self .., Nat.zero_le _⟩

/-- A writer puts the next piece of the text into it. -/
theorem Mends.write {hole : Element} {piece : List Element} (mends : Mends text content writing)
    (writes : writing writer = some offset) (next : piece <+: text.drop offset)
    (fits : offset ≤ text.length) :
    Mends text (put hole content offset piece)
      (Function.update writing writer (some (offset + piece.length))) := by
  have length := next.length_le
  rw [List.length_drop] at length
  refine ⟨length_put_le mends.short (by omega), fun index inside => ?_⟩
  by_cases behind : offset + piece.length ≤ index
  · exact .inr ⟨writer, _, Function.update_self .., behind⟩
  by_cases within : offset ≤ index
  · left
    obtain ⟨i, rfl⟩ := Nat.exists_eq_add_of_le within
    have short : i < piece.length := by omega
    rw [getElem?_put_add short, List.getElem?_eq_getElem short, next.getElem short,
      List.getElem_drop, List.getElem?_eq_getElem inside]
  · have before : index < offset := Nat.lt_of_not_le within
    rcases mends.comes index inside with there | ⟨other, position, others, ahead⟩
    · left
      have old : index < content.length := by
        rw [List.getElem?_eq_getElem inside] at there
        exact (List.getElem?_eq_some_iff.mp there).1
      rw [getElem?_put_of_not old (.inl before), there]
    · right
      refine ⟨other, position, ?_, ahead⟩
      rw [Function.update_of_ne _ _ _, others]
      rintro rfl
      cases writes.symm.trans others
      exact within ahead

/-- A writer that has come to the end leaves. -/
theorem Mends.leave (mends : Mends text content writing)
    (writes : writing writer = some text.length) :
    Mends text content (Function.update writing writer none) := by
  refine ⟨mends.short, fun index inside => ?_⟩
  rcases mends.comes index inside with there | ⟨other, position, others, ahead⟩
  · exact .inl there
  · refine .inr ⟨other, position, ?_, ahead⟩
    rw [Function.update_of_ne _ _ _, others]
    rintro rfl
    cases writes.symm.trans others
    exact absurd inside (Nat.not_lt_of_le ahead)

end Rewriting

import Mathlib.Data.List.Basic
import Mathlib.Data.Nat.Notation

/-! # Transfers that may break off

A call of `send` or `write` moves one element at least and no more than it is asked for, or it
fails. A buffer is moved by calls for what is left of it, until nothing is left or a call fails.
What the calls have moved is the buffer if none of them fails, and lacks something at its end
otherwise (`Transfer.exists_rest`).
-/

namespace Transfer

variable {Element : Type*}

/-- How the calls turn out, by their numbers and by how much they are asked for: so many elements
are moved, or the call fails. -/
structure Schedule where
  reply : ℕ → ℕ → Option ℕ
  possible : ∀ {number asked count : ℕ}, reply number asked = some count → 1 ≤ count ∧ count ≤ asked

/-- A call: what it is asked to move, and how many elements it moves if it does not fail. -/
structure Call (Element : Type*) where
  asked : List Element
  moved : Option ℕ
  deriving DecidableEq

/-- The elements that a call moves. -/
def Call.transmitted (call : Call Element) : List Element :=
  call.asked.take (call.moved.getD 0)

/-- The elements that some calls move one after the other. -/
def transmitted (calls : List (Call Element)) : List Element :=
  (calls.map Call.transmitted).flatten

/-- One of the calls fails. -/
def Fails (calls : List (Call Element)) : Prop :=
  ∃ call ∈ calls, call.moved = none

instance (calls : List (Call Element)) : Decidable (Fails calls) :=
  inferInstanceAs (Decidable (∃ _ ∈ _, _))

/-- The calls that move a buffer, numbered from a number on. -/
def calls (schedule : Schedule) (number : ℕ) (buffer : List Element) : List (Call Element) :=
  if _finished : buffer = [] then []
  else match _replied : schedule.reply number buffer.length with
    | none => [⟨buffer, none⟩]
    | some count => ⟨buffer, some count⟩ :: calls schedule (number + 1) (buffer.drop count)
termination_by buffer.length
decreasing_by
  have moved := (schedule.possible _replied).1
  rw [List.length_drop]
  exact Nat.sub_lt (List.length_pos_iff.mpr _finished) moved

variable {schedule : Schedule} {number count : ℕ} {buffer : List Element}

@[simp] theorem calls_nil (schedule : Schedule) (number : ℕ) :
    calls schedule number ([] : List Element) = [] := by
  rw [calls, dif_pos rfl]

theorem calls_of_failed (nonempty : buffer ≠ [])
    (failed : schedule.reply number buffer.length = none) :
    calls schedule number buffer = [⟨buffer, none⟩] := by
  rw [calls, dif_neg nonempty]
  split
  · rfl
  · rename_i moved
    cases failed.symm.trans moved

theorem calls_of_moved (nonempty : buffer ≠ [])
    (moved : schedule.reply number buffer.length = some count) :
    calls schedule number buffer =
      ⟨buffer, some count⟩ :: calls schedule (number + 1) (buffer.drop count) := by
  rw [calls, dif_neg nonempty]
  split
  · rename_i failed
    cases failed.symm.trans moved
  · rename_i other
    cases other.symm.trans moved
    rfl

theorem not_fails_nil : ¬ Fails ([] : List (Call Element)) := by
  rintro ⟨call, member, -⟩
  cases member

theorem fails_cons (call : Call Element) (later : List (Call Element)) :
    Fails (call :: later) ↔ call.moved = none ∨ Fails later := by
  simp only [Fails, List.mem_cons, exists_eq_or_imp]

theorem transmitted_cons (call : Call Element) (later : List (Call Element)) :
    transmitted (call :: later) = call.transmitted ++ transmitted later :=
  rfl

theorem transmitted_append (first second : List (Call Element)) :
    transmitted (first ++ second) = transmitted first ++ transmitted second := by
  rw [transmitted, List.map_append, List.flatten_append]
  rfl

/-- The calls move the buffer from its start on, and something is left if and only if one of them
fails. -/
theorem exists_rest (schedule : Schedule) (number : ℕ) (buffer : List Element) :
    ∃ rest, transmitted (calls schedule number buffer) ++ rest = buffer ∧
      (Fails (calls schedule number buffer) ↔ rest ≠ []) := by
  induction number, buffer using calls.induct schedule with
  | case1 number =>
      rw [calls_nil]
      exact ⟨[], rfl, iff_of_false not_fails_nil (absurd rfl)⟩
  | case2 number buffer nonempty failed =>
      rw [calls_of_failed nonempty failed]
      exact ⟨buffer, rfl, iff_of_true ⟨_, List.mem_cons_self, rfl⟩ nonempty⟩
  | case3 number buffer nonempty count moved ih =>
      obtain ⟨rest, whole, fails⟩ := ih
      refine ⟨rest, ?_, ?_⟩
      · rw [calls_of_moved nonempty moved, transmitted_cons, List.append_assoc, whole]
        exact List.take_append_drop count buffer
      · rw [calls_of_moved nonempty moved, fails_cons, fails]
        exact or_iff_right (Option.some_ne_none count)

/-- Calls none of which fails move the whole buffer. -/
theorem transmitted_calls (succeed : ¬ Fails (calls schedule number buffer)) :
    transmitted (calls schedule number buffer) = buffer := by
  obtain ⟨rest, whole, fails⟩ := exists_rest schedule number buffer
  rw [fails, not_not] at succeed
  rwa [succeed, List.append_nil] at whole

/-- If a call fails, the end of the buffer is not moved. -/
theorem transmitted_calls_of_fails (fails : Fails (calls schedule number buffer)) :
    transmitted (calls schedule number buffer) <+: buffer ∧
      transmitted (calls schedule number buffer) ≠ buffer := by
  obtain ⟨rest, whole, left⟩ := exists_rest schedule number buffer
  refine ⟨⟨rest, whole⟩, fun same => left.mp fails ?_⟩
  rw [same] at whole
  exact List.append_right_eq_self.mp whole

/-- The calls do not look at the elements. -/
theorem calls_map {Other : Type*} (convert : Element → Other) (schedule : Schedule) (number : ℕ)
    (buffer : List Element) : calls schedule number (buffer.map convert) =
      (calls schedule number buffer).map fun call => ⟨call.asked.map convert, call.moved⟩ := by
  induction number, buffer using calls.induct schedule with
  | case1 number => rw [List.map_nil, calls_nil, calls_nil, List.map_nil]
  | case2 number buffer nonempty failed =>
      have some_ : buffer.map convert ≠ [] := fun empty => nonempty (List.map_eq_nil_iff.mp empty)
      rw [calls_of_failed nonempty failed, calls_of_failed some_ (by rwa [List.length_map])]
      rfl
  | case3 number buffer nonempty count moved ih =>
      have some_ : buffer.map convert ≠ [] := fun empty => nonempty (List.map_eq_nil_iff.mp empty)
      rw [calls_of_moved nonempty moved, calls_of_moved some_ (by rwa [List.length_map]),
        ← List.map_drop, ih]
      rfl

theorem transmitted_map {Other : Type*} (convert : Element → Other) (schedule : Schedule)
    (number : ℕ) (buffer : List Element) :
    transmitted (calls schedule number (buffer.map convert)) =
      (transmitted (calls schedule number buffer)).map convert := by
  rw [calls_map, transmitted, transmitted, List.map_map, List.map_flatten, List.map_map]
  congr 1
  exact List.map_congr_left fun call _ => (List.map_take ..).symm

/-- A schedule with one more call before the others. -/
def Schedule.cons (first : Option ℕ) (later : Schedule) : Schedule where
  reply
    | 0, asked => first.filter fun count => 1 ≤ count ∧ count ≤ asked
    | number + 1, asked => later.reply number asked
  possible := by
    intro number asked count replied
    cases number with
    | zero => exact of_decide_eq_true (Option.filter_eq_some_iff.mp replied).2
    | succ number => exact later.possible replied

theorem reply_cons_zero (later : Schedule) {asked : ℕ} (one : 1 ≤ count) (few : count ≤ asked) :
    (later.cons (some count)).reply 0 asked = some count :=
  if_pos (decide_eq_true ⟨one, few⟩)

theorem calls_cons (first : Option ℕ) (later : Schedule) (number : ℕ) (buffer : List Element) :
    calls (later.cons first) (number + 1) buffer = calls later number buffer := by
  induction number, buffer using calls.induct later with
  | case1 number => rw [calls_nil, calls_nil]
  | case2 number buffer nonempty failed =>
      rw [calls_of_failed nonempty failed]
      exact calls_of_failed nonempty failed
  | case3 number buffer nonempty count moved ih =>
      rw [calls_of_moved nonempty moved, ← ih]
      exact calls_of_moved nonempty moved

end Transfer

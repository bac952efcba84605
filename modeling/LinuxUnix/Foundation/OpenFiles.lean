import Mathlib.Data.List.Induction
import Mathlib.Data.Nat.Notation
import Mathlib.Logic.Function.Basic

/-! # Open files

A file that is open has an offset. A `write` puts its data there and moves the offset, or puts them
at the end if the file is open with `O_APPEND` (`OpenFiles.write`). Descriptors and processes that
share what one `open` has made share the offset. What goes to a file through one `open` only stands
there in one piece (`OpenFiles.content_writes_of_sole`); what is appended through any number of
them stands behind the old content in the order of the calls
(`OpenFiles.content_writes_of_appends`).
-/

/-- What each `open` has been made for. -/
structure Opening (File Open : Type*) where
  file : Open → File
  appends : Open → Bool

/-- The content of the files, and the offset of each `open`. -/
@[ext] structure OpenFiles (File Open Element : Type*) where
  content : File → List Element
  offset : Open → ℕ

namespace OpenFiles

variable {File Open Element : Type*}

/-- A content with some elements put at a position; a hole up to there is filled. -/
def put (hole : Element) (old : List Element) (position : ℕ) (elements : List Element) :
    List Element :=
  if elements = [] then old
  else old.take position ++ List.replicate (position - old.length) hole ++ elements ++
    old.drop (position + elements.length)

@[simp] theorem put_nil (hole : Element) (old : List Element) (position : ℕ) :
    put hole old position [] = old :=
  if_pos rfl

@[simp] theorem put_length (hole : Element) (old elements : List Element) :
    put hole old old.length elements = old ++ elements := by
  unfold put
  split
  · rename_i nothing
    rw [nothing, List.append_nil]
  · rw [List.take_length, Nat.sub_self, List.replicate_zero, List.append_nil,
      List.drop_eq_nil_of_le (Nat.le_add_right ..), List.append_nil]

@[simp] theorem nil_put (hole : Element) (elements : List Element) :
    put hole [] 0 elements = elements :=
  put_length hole [] elements

/-- What is put right behind something else. -/
theorem put_put (hole : Element) (old : List Element) (position : ℕ)
    (first second : List Element) :
    put hole (put hole old position first) (position + first.length) second =
      put hole old position (first ++ second) := by
  by_cases none_ : first = []
  · rw [none_, put_nil, List.length_nil, Nat.add_zero, List.nil_append]
  by_cases nothing : second = []
  · rw [nothing, put_nil, List.append_nil]
  have ahead : (old.take position ++ List.replicate (position - old.length) hole ++
      first).length = position + first.length := by
    simp only [List.length_append, List.length_take, List.length_replicate]
    omega
  rw [put, if_neg nothing, put, if_neg none_, put,
    if_neg fun both => nothing (List.append_eq_nil_iff.mp both).2]
  generalize old.take position ++ List.replicate (position - old.length) hole = start at ahead ⊢
  have filled : position + first.length -
      (start ++ first ++ old.drop (position + first.length)).length = 0 := by
    rw [List.length_append, ahead]
    exact Nat.sub_eq_zero_of_le (Nat.le_add_right ..)
  rw [filled, List.replicate_zero, List.append_nil, List.take_append_of_le_length (Nat.le_of_eq ahead.symm),
    List.take_of_length_le (Nat.le_of_eq ahead), List.drop_append, ahead,
    List.drop_eq_nil_of_le (ahead ▸ Nat.le_add_right ..), List.nil_append,
    Nat.add_sub_cancel_left, List.drop_drop, List.length_append, Nat.add_assoc]
  simp only [List.append_assoc]

theorem length_put_le {hole : Element} {old elements : List Element} {position most : ℕ}
    (short : old.length ≤ most)
    (fits : position + elements.length ≤ most) : (put hole old position elements).length ≤ most := by
  unfold put
  split
  · exact short
  · simp only [List.length_append, List.length_take, List.length_replicate, List.length_drop]
    omega

/-- What is put somewhere stands there. -/
theorem getElem?_put_add {hole : Element} {old elements : List Element} {position index : ℕ}
    (inside : index < elements.length) :
    (put hole old position elements)[position + index]? = elements[index]? := by
  have some_ : elements ≠ [] := by
    rintro rfl
    exact absurd inside (Nat.not_lt_zero _)
  have ahead : (old.take position ++ List.replicate (position - old.length) hole).length =
      position := by
    simp only [List.length_append, List.length_take, List.length_replicate]
    omega
  rw [put, if_neg some_, List.append_assoc, List.getElem?_append_right (by omega), ahead,
    Nat.add_sub_cancel_left, List.getElem?_append_left inside]

/-- What has been there stays there, in front of it and behind it. -/
theorem getElem?_put_of_not {hole : Element} {old elements : List Element} {position index : ℕ}
    (there : index < old.length)
    (outside : index < position ∨ position + elements.length ≤ index) :
    (put hole old position elements)[index]? = old[index]? := by
  unfold put
  split
  · rfl
  · rcases outside with before | behind
    · have first : index < (old.take position).length := by
        rw [List.length_take]
        omega
      rw [List.append_assoc, List.append_assoc, List.getElem?_append_left first,
        List.getElem?_take_of_lt before]
    · have ahead : (old.take position ++ List.replicate (position - old.length) hole ++
          elements).length = position + elements.length := by
        simp only [List.length_append, List.length_take, List.length_replicate]
        omega
      rw [List.getElem?_append_right (by omega), ahead, List.getElem?_drop,
        Nat.add_sub_cancel' behind]

variable [DecidableEq File] [DecidableEq Open]

/-- Where a `write` goes. -/
def position (opening : Opening File Open) (files : OpenFiles File Open Element) (target : Open) :
    ℕ :=
  if opening.appends target then (files.content (opening.file target)).length
  else files.offset target

/-- `write`. -/
def write (opening : Opening File Open) (hole : Element) (files : OpenFiles File Open Element)
    (target : Open) (elements : List Element) : OpenFiles File Open Element where
  content := Function.update files.content (opening.file target)
    (put hole (files.content (opening.file target)) (files.position opening target) elements)
  offset :=
    if elements = [] then files.offset
    else Function.update files.offset target (files.position opening target + elements.length)

/-- `open` with `O_TRUNC`. -/
def openEmpty (opening : Opening File Open) (files : OpenFiles File Open Element) (target : Open) :
    OpenFiles File Open Element where
  content := Function.update files.content (opening.file target) []
  offset := Function.update files.offset target 0

/-- Calls of `write`, one after another. -/
def writes (opening : Opening File Open) (hole : Element) (files : OpenFiles File Open Element)
    (calls : List (Open × List Element)) : OpenFiles File Open Element :=
  calls.foldl (fun files call => files.write opening hole call.1 call.2) files

variable {opening : Opening File Open} {hole : Element} {files : OpenFiles File Open Element}
  {target : Open} {file : File} {elements : List Element} {calls : List (Open × List Element)}

theorem content_write : (files.write opening hole target elements).content =
    Function.update files.content (opening.file target)
      (put hole (files.content (opening.file target)) (files.position opening target) elements) :=
  rfl

theorem offset_write : (files.write opening hole target elements).offset =
    if elements = [] then files.offset
    else Function.update files.offset target
      (files.position opening target + elements.length) :=
  rfl

/-- A `write` leaves the other files alone. -/
theorem content_write_of_ne (elsewhere : opening.file target ≠ file) :
    (files.write opening hole target elements).content file = files.content file :=
  Function.update_of_ne elsewhere.symm _ _

/-- A `write` leaves the other offsets alone. -/
theorem offset_write_of_ne {other : Open} (different : target ≠ other) :
    (files.write opening hole target elements).offset other = files.offset other := by
  rw [offset_write]
  split
  · rfl
  · exact Function.update_of_ne different.symm _ _

theorem content_write_of_appends (appends : opening.appends target = true) :
    (files.write opening hole target elements).content (opening.file target) =
      files.content (opening.file target) ++ elements := by
  rw [content_write, Function.update_self, position, if_pos appends, put_length]

theorem content_write_self (overwrites : opening.appends target = false) :
    (files.write opening hole target elements).content (opening.file target) =
      put hole (files.content (opening.file target)) (files.offset target) elements := by
  rw [content_write, Function.update_self, position, overwrites, if_neg Bool.false_ne_true]

theorem offset_write_self (overwrites : opening.appends target = false) :
    (files.write opening hole target elements).offset target =
      files.offset target + elements.length := by
  rw [offset_write, position, overwrites, if_neg Bool.false_ne_true]
  split
  · rename_i nothing
    rw [nothing, List.length_nil, Nat.add_zero]
  · rw [Function.update_self]

theorem content_openEmpty_self :
    (files.openEmpty opening target).content (opening.file target) = [] :=
  Function.update_self ..

theorem content_openEmpty_of_ne (elsewhere : opening.file target ≠ file) :
    (files.openEmpty opening target).content file = files.content file :=
  Function.update_of_ne elsewhere.symm _ _

theorem offset_openEmpty_self : (files.openEmpty opening target).offset target = 0 :=
  Function.update_self ..

theorem offset_openEmpty_of_ne {other : Open} (different : target ≠ other) :
    (files.openEmpty opening target).offset other = files.offset other :=
  Function.update_of_ne different.symm _ _

theorem writes_append (first second : List (Open × List Element)) :
    files.writes opening hole (first ++ second) =
      (files.writes opening hole first).writes opening hole second :=
  List.foldl_append ..

/-- The data of the calls with some target, one behind the other. -/
def through (calls : List (Open × List Element)) (target : Open) : List Element :=
  (calls.filter (·.1 = target)).flatMap (·.2)

/-- The data of the calls that go to some file. -/
def into (opening : Opening File Open) (calls : List (Open × List Element)) (file : File) :
    List Element :=
  (calls.filter (opening.file ·.1 = file)).flatMap (·.2)

omit [DecidableEq File] [DecidableEq Open] in
private theorem flatMap_filter_concat (keep : Open × List Element → Prop) [DecidablePred keep]
    (calls : List (Open × List Element)) (call : Open × List Element) :
    ((calls ++ [call]).filter keep).flatMap (·.2) =
      (calls.filter keep).flatMap (·.2) ++ if keep call then call.2 else [] := by
  rw [List.filter_append, List.flatMap_append]
  by_cases kept : keep call
  · rw [if_pos kept, List.filter_cons_of_pos (by simpa using kept), List.filter_nil,
      List.flatMap_singleton]
  · rw [if_neg kept, List.filter_cons_of_neg (by simpa using kept), List.filter_nil,
      List.flatMap_nil]

omit [DecidableEq File] in
@[simp] theorem through_nil (target : Open) :
    through ([] : List (Open × List Element)) target = [] :=
  rfl

omit [DecidableEq File] in
@[simp] theorem through_cons (call : Open × List Element) (calls : List (Open × List Element))
    (target : Open) : through (call :: calls) target =
      (if call.1 = target then call.2 else []) ++ through calls target := by
  by_cases same : call.1 = target
  · rw [through, List.filter_cons_of_pos (by simpa using same), List.flatMap_cons, if_pos same]
    rfl
  · rw [through, List.filter_cons_of_neg (by simpa using same), if_neg same]
    rfl

omit [DecidableEq File] in
theorem through_concat (calls : List (Open × List Element)) (call : Open × List Element)
    (target : Open) : through (calls ++ [call]) target =
      through calls target ++ if call.1 = target then call.2 else [] :=
  flatMap_filter_concat (·.1 = target) calls call

omit [DecidableEq Open] in
theorem into_concat (calls : List (Open × List Element)) (call : Open × List Element)
    (file : File) : into opening (calls ++ [call]) file =
      into opening calls file ++ if opening.file call.1 = file then call.2 else [] :=
  flatMap_filter_concat (opening.file ·.1 = file) calls call

/-- A file that is written through one `open` only has what was written in one piece, where the
offset was, and the offset stands behind it. -/
theorem writes_of_sole (overwrites : opening.appends target = false)
    (sole : ∀ call ∈ calls, opening.file call.1 = opening.file target → call.1 = target) :
    (files.writes opening hole calls).content (opening.file target) =
        put hole (files.content (opening.file target)) (files.offset target)
          (through calls target) ∧
      (files.writes opening hole calls).offset target =
        files.offset target + (through calls target).length := by
  induction calls using List.reverseRecOn with
  | nil => exact ⟨(put_nil ..).symm, rfl⟩
  | append_singleton calls call ih =>
      obtain ⟨content, offset⟩ := ih fun call member => sole call (List.mem_append_left _ member)
      rw [writes_append, through_concat]
      change ((files.writes opening hole calls).write opening hole call.1 call.2).content _ = _ ∧
        ((files.writes opening hole calls).write opening hole call.1 call.2).offset _ = _
      by_cases same : call.1 = target
      · rw [if_pos same, same, content_write_self overwrites, offset_write_self overwrites,
          content, offset, put_put, List.length_append, Nat.add_assoc]
        exact ⟨rfl, rfl⟩
      · have elsewhere : opening.file call.1 ≠ opening.file target := fun there =>
          same (sole call (List.mem_append_right _ (List.mem_singleton_self _)) there)
        rw [if_neg same, List.append_nil, content_write_of_ne elsewhere, offset_write_of_ne same]
        exact ⟨content, offset⟩

theorem content_writes_of_sole (overwrites : opening.appends target = false)
    (sole : ∀ call ∈ calls, opening.file call.1 = opening.file target → call.1 = target) :
    (files.writes opening hole calls).content (opening.file target) =
      put hole (files.content (opening.file target)) (files.offset target)
        (through calls target) :=
  (writes_of_sole overwrites sole).1

/-- What is appended stands behind the old content in the order of the calls. -/
theorem content_writes_of_appends
    (appends : ∀ call ∈ calls, opening.file call.1 = file → opening.appends call.1 = true) :
    (files.writes opening hole calls).content file = files.content file ++
      into opening calls file := by
  induction calls using List.reverseRecOn with
  | nil => exact (List.append_nil _).symm
  | append_singleton calls call ih =>
      rw [writes_append, into_concat]
      change ((files.writes opening hole calls).write opening hole call.1 call.2).content _ = _
      have content := ih fun call member => appends call (List.mem_append_left _ member)
      by_cases there : opening.file call.1 = file
      · have last := appends call (List.mem_append_right _ (List.mem_singleton_self _)) there
        subst there
        rw [if_pos rfl, content_write_of_appends last, content, List.append_assoc]
      · rw [if_neg there, List.append_nil, content_write_of_ne there, content]

end OpenFiles

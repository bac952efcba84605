import LinuxUnix.Foundation.CMemory

/-! # Reading a mail

A mail begins with its header, the lines up to the first empty one; the rest is its body. A
line that starts with a blank or a tab continues the field of the line before it, and a field
is a name, a colon and a value.
-/

namespace MailText

/-- The lines of a text, without their newlines. -/
def lines : List Byte → List (List Byte)
  | [] => []
  | byte :: rest =>
      if byte = 10 then [] :: lines rest
      else match lines rest with
        | [] => [[byte]]
        | line :: others => (byte :: line) :: others

/-- The lines before the first empty one. -/
def header (text : List Byte) : List (List Byte) :=
  (lines text).takeWhile (· != [])

/-- What follows the first empty line, from the start of a line or not. -/
def bodyFrom : Bool → List Byte → List Byte
  | _, [] => []
  | start, byte :: rest =>
      if byte = 10 then if start then rest else bodyFrom true rest else bodyFrom false rest

/-- What follows the first empty line. -/
def body (text : List Byte) : List Byte := bodyFrom true text

/-- The line goes on with the field before it. -/
def continues (line : List Byte) : Bool :=
  line.head? == some 32 || line.head? == some 9

/-- What the first lines add to a field before them, and the fields that follow. -/
def gather : List (List Byte) → List Byte × List (List Byte)
  | [] => ([], [])
  | line :: others =>
      if continues line then (line ++ (gather others).1, (gather others).2)
      else ([], (line ++ (gather others).1) :: (gather others).2)

/-- The fields of a mail, each of them in one line. -/
def fields (text : List Byte) : List (List Byte) :=
  (gather (header text)).2

def fieldName (field : List Byte) : List Byte := field.takeWhile (· != 58)

def fieldValue (field : List Byte) : List Byte := (field.dropWhile (· != 58)).tail

/-- The value of the first field of a name. -/
def value (name text : List Byte) : Option (List Byte) :=
  ((fields text).find? (fieldName · = name)).map fieldValue

variable {line rest text name : List Byte}

/-- A line that ends with a newline is the first. -/
theorem lines_line (clean : 10 ∉ line) (rest : List Byte) :
    lines (line ++ 10 :: rest) = line :: lines rest := by
  induction line with
  | nil => rfl
  | cons byte line ih =>
      have other : byte ≠ 10 := fun newline => clean (newline ▸ List.mem_cons_self)
      rw [List.cons_append, lines, if_neg other,
        ih fun member => clean (List.mem_cons_of_mem _ member)]

/-- A text that does not start with a newline has a first line that starts like it. -/
theorem lines_cons {byte : Byte} (other : byte ≠ 10) (rest : List Byte) :
    ∃ line others, lines (byte :: rest) = (byte :: line) :: others := by
  rw [lines, if_neg other]
  split
  · exact ⟨[], [], rfl⟩
  · rename_i line others _
    exact ⟨line, others, rfl⟩

/-- Reading lines drops the newlines. -/
theorem flatten_lines (text : List Byte) : (lines text).flatten.Sublist text := by
  induction text with
  | nil => exact List.Sublist.refl []
  | cons byte text ih =>
      rw [lines]
      split
      · exact ih.cons byte
      · split
        · exact (List.nil_sublist text).cons_cons byte
        · rename_i line others split_
          rw [split_] at ih
          exact ih.cons_cons byte

/-- Gathering the lines keeps their bytes and the order of these. -/
theorem flatten_gather (lines : List (List Byte)) :
    (gather lines).1 ++ (gather lines).2.flatten = lines.flatten := by
  induction lines with
  | nil => rfl
  | cons line others ih =>
      rw [gather]
      split
      · rw [List.append_assoc, ih, List.flatten_cons]
      · rw [List.nil_append, List.flatten_cons, List.append_assoc, ih, List.flatten_cons]

theorem flatten_fields (text : List Byte) : (fields text).flatten ⊆ text := by
  intro byte member
  have gathered := List.mem_append_right (gather (header text)).1 member
  rw [fields, flatten_gather] at gathered
  obtain ⟨line, inside, there⟩ := List.mem_flatten.mp gathered
  exact (flatten_lines text).subset
    (List.mem_flatten.mpr ⟨line, (List.takeWhile_sublist _).subset inside, there⟩)

/-- A value consists of bytes of the text. -/
theorem value_subset {found : List Byte} (there : value name text = some found) :
    found ⊆ text := by
  obtain ⟨field, first, rfl⟩ := Option.map_eq_some_iff.mp there
  intro byte member
  refine flatten_fields text (List.mem_flatten.mpr ⟨field, List.mem_of_find?_eq_some first, ?_⟩)
  exact (List.dropWhile_sublist _).subset (List.mem_of_mem_tail member)

theorem takeWhile_nonempty (nonempty : line ≠ []) (others : List (List Byte)) :
    (line :: others).takeWhile (· != []) = line :: others.takeWhile (· != []) :=
  List.takeWhile_cons_of_pos (bne_iff_ne.mpr nonempty)

/-- A line that does not continue another one starts a field, and what the lines behind it
add to the field is at the end of it. -/
theorem fields_line (clean : 10 ∉ line) (nonempty : line ≠ []) (starts : continues line = false)
    (rest : List Byte) : ∃ others, fields (line ++ 10 :: rest) =
      (line ++ (gather (header rest)).1) :: others := by
  refine ⟨(gather (header rest)).2, ?_⟩
  rw [fields, header, lines_line clean, takeWhile_nonempty nonempty, gather,
    if_neg (ne_true_of_eq_false starts)]
  rfl

/-- A line that starts with a blank is added to the field before it. -/
theorem gather_blank (rest : List Byte) : (gather (header (32 :: rest))).1 ≠ [] := by
  obtain ⟨line, others, split⟩ := lines_cons (by decide : (32 : Byte) ≠ 10) rest
  have blank : continues (32 :: line) = true := rfl
  rw [header, split, takeWhile_nonempty (List.cons_ne_nil _ _), gather, if_pos blank]
  exact List.cons_ne_nil _ _

theorem takeWhile_colon (clean : 58 ∉ name) (rest : List Byte) :
    fieldName (name ++ 58 :: rest) = name := by
  rw [fieldName, List.takeWhile_append_of_pos, List.takeWhile_cons_of_neg (by decide),
    List.append_nil]
  intro byte member
  exact bne_iff_ne.mpr fun colon => clean (colon ▸ member)

theorem dropWhile_colon (clean : 58 ∉ name) (rest : List Byte) :
    fieldValue (name ++ 58 :: rest) = rest := by
  rw [fieldValue, List.dropWhile_append_of_pos, List.dropWhile_cons_of_neg (by decide),
    List.tail_cons]
  intro byte member
  exact bne_iff_ne.mpr fun colon => clean (colon ▸ member)

/-- The value of a field whose next line starts with a blank does not end with its line. -/
theorem value_of_continued {first : List Byte} (named : 58 ∉ name)
    (clean : 10 ∉ name ++ 58 :: first) (starts : continues (name ++ 58 :: first) = false)
    (rest : List Byte) : ∃ more, more ≠ [] ∧
      value name (name ++ 58 :: first ++ 10 :: 32 :: rest) = some (first ++ more) := by
  obtain ⟨others, gathered⟩ := fields_line clean
    (List.append_ne_nil_of_right_ne_nil _ (List.cons_ne_nil _ _)) starts (32 :: rest)
  refine ⟨_, gather_blank rest, ?_⟩
  rw [value, gathered, List.append_assoc, List.cons_append, List.find?_cons_of_pos,
    Option.map_some, dropWhile_colon named]
  exact decide_eq_true (takeWhile_colon named _)

end MailText

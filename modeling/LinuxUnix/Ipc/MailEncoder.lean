import LinuxUnix.Foundation.LineInput
import LinuxUnix.Foundation.MailText

/-! # popen2.c

`main` reads the recipient, the sender, the subject and a body, and `sendmail` writes them to a
pipe as a mail. The sender keeps the newline that `fgets` has read, and a blank stands before
`To:`: by the mail rules the recipient is then a part of the sender, whatever has been typed
(`LinuxUnix.MailEncoder.not_faithful`). No empty line is written between the subject and the
body either.

The search for the path of sendmail and the messages on the terminal are left out.
-/

namespace LinuxUnix.MailEncoder

open CMemory LineInput MailText

/-- `BUF1` -/
def buf1 : ℕ := 255

/-- `BUF2` -/
def buf2 : ℕ := 8192

/-- The bytes of a text. -/
def ascii (text : String) : List Byte :=
  text.toList.map Char.toUInt8

/-- `fgets`, for a buffer of that size: the array, and the input that is left. At the end of the
input nothing is stored. -/
def fgets (size : ℕ) (stdin : List Byte) : Option (List Byte × List Byte) :=
  if stdin = [] then none
  else some (piece size stdin ++ [0], stdin.drop (piece size stdin).length)

/-- `sub[strlen(sub) - 1] = '\0'`, which is outside of `sub` if the string is empty. -/
def cutLast (sub : List Byte) : Option (List Byte) :=
  if cstr sub = [] then none else some (sub.set ((cstr sub).length - 1) 0)

/-- The loop that collects the body in `inhalt`. -/
def collect (inhalt : List Byte) : List (List Byte) → List Byte
  | [] => inhalt
  | puffer :: later =>
      if inhalt.length + (cstr puffer).length < buf2 then collect (inhalt ++ cstr puffer) later
      else inhalt

/-- What `sendmail` writes to the pipe. -/
def sendmail (to_ from_ subject inhalt : List Byte) : List Byte :=
  ascii "From:" ++ cstr from_ ++ ascii " To:" ++ cstr to_ ++ ascii "Subject:" ++ cstr subject ++
    ascii "\n" ++ inhalt ++ ascii "\n"

/-- What `main` has collected in `inhalt`, and what it writes to the pipe; there is nothing to
say about a run that uses an array in which nothing has been stored. -/
def main (stdin : List Byte) : Option (List Byte × List Byte) := do
  let (to_, stdin) ← fgets buf1 stdin
  let (from_, stdin) ← fgets buf1 stdin
  let (sub, stdin) ← fgets buf1 stdin
  let sub ← cutLast sub
  let inhalt := collect [] (LineInput.pieces (buf1 - 1) stdin)
  some (inhalt, sendmail to_ from_ sub inhalt)

/-- What is typed: three lines that fit their arrays, and the body. -/
structure Typed where
  recipient : List Byte
  sender : List Byte
  subject : List Byte
  body : List Byte
  lines : ∀ line ∈ [recipient, sender, subject],
    line ≠ [] ∧ 10 ∉ line ∧ line.length < buf1 - 1

/-- The standard input. -/
def Typed.stdin (typed : Typed) : List Byte :=
  typed.recipient ++ 10 :: (typed.sender ++ 10 :: (typed.subject ++ 10 :: typed.body))

/-- By the mail rules, what is written says what has been typed. -/
def Faithful (typed : Typed) : Prop :=
  ∃ inhalt written, main typed.stdin = some (inhalt, written) ∧
    value (ascii "From") written = some typed.sender ∧
    value (ascii "To") written = some typed.recipient ∧
    value (ascii "Subject") written = some typed.subject ∧
    body written = inhalt

variable {typed : Typed} {line rest : List Byte}

/-- A line that fits its array is stored with its newline. -/
theorem fgets_line (clean : 10 ∉ line) (short : line.length < buf1 - 1) (rest : List Byte) :
    fgets buf1 (line ++ 10 :: rest) = some (line ++ [10] ++ [0], rest) := by
  have fits : line.length + 1 < buf1 := Nat.add_lt_of_lt_sub short
  rw [fgets, if_neg (line_ne_nil line rest), piece_of_short clean fits, drop_line]

theorem zero_not_mem_collect {inhalt : List Byte} (clean : 0 ∉ inhalt)
    (parts : List (List Byte)) : 0 ∉ collect inhalt parts := by
  induction parts generalizing inhalt with
  | nil => exact clean
  | cons puffer later ih =>
      rw [collect]
      split
      · refine ih fun member => ?_
        rcases List.mem_append.mp member with before | added
        · exact clean before
        · exact zero_not_mem_cstr puffer added
      · exact clean

/-- What `main` writes has the line of the sender in it, and no NUL in the body. -/
theorem sent_of_main {inhalt written : List Byte}
    (ran : main typed.stdin = some (inhalt, written)) :
    0 ∉ inhalt ∧ ∃ to_ sub, written = sendmail to_ (typed.sender ++ [10] ++ [0]) sub inhalt := by
  obtain ⟨recipient, sender, subject, body, lines⟩ := typed
  obtain ⟨⟨_, cleanR, shortR⟩, ⟨_, cleanS, shortS⟩, ⟨_, cleanU, shortU⟩⟩ := by
    simpa only [List.forall_mem_cons, List.not_mem_nil, false_implies, implies_true, and_true]
      using lines
  rw [main, Typed.stdin] at ran
  simp only [fgets_line cleanR shortR, fgets_line cleanS shortS, fgets_line cleanU shortU,
    Option.bind_eq_bind, Option.bind_some] at ran
  obtain ⟨sub, -, ended⟩ := Option.bind_eq_some_iff.mp ran
  cases ended
  exact ⟨zero_not_mem_collect List.not_mem_nil _, _, sub, rfl⟩

variable {to_ sender sub inhalt : List Byte}

/-- No NUL is written. -/
theorem zero_not_mem_sendmail (clean : 0 ∉ inhalt) (from_ : List Byte) :
    0 ∉ sendmail to_ from_ sub inhalt := by
  have literals : 0 ∉ ascii "From:" ∧ 0 ∉ ascii " To:" ∧ 0 ∉ ascii "Subject:" ∧ 0 ∉ ascii "\n" := by
    decide
  simp only [sendmail, List.mem_append, not_or]
  refine ⟨⟨⟨⟨⟨⟨⟨⟨literals.1, ?_⟩, literals.2.1⟩, ?_⟩, literals.2.2.1⟩, ?_⟩, literals.2.2.2⟩, clean⟩,
    literals.2.2.2⟩
  all_goals exact zero_not_mem_cstr _

/-- The line of the sender, and the blank that continues it. -/
theorem sendmail_eq (clean : 0 ∉ sender) : ∃ rest,
    sendmail to_ (sender ++ [10] ++ [0]) sub inhalt =
      ascii "From" ++ 58 :: sender ++ 10 :: 32 :: rest := by
  have stored : cstr (sender ++ [10] ++ [0]) = sender ++ [10] := by
    rw [List.append_assoc, cstr_append_of_clean clean]
    rfl
  rw [sendmail, stored]
  refine ⟨ascii "To:" ++ cstr to_ ++ ascii "Subject:" ++ cstr sub ++ ascii "\n" ++ inhalt ++
    ascii "\n", ?_⟩
  simp only [ascii, List.append_assoc]
  rfl

/-- The sender that is read from the mail is not the one that has been typed. -/
theorem value_from_ne (clean : 0 ∉ inhalt) (line : 10 ∉ sender) :
    value (ascii "From") (sendmail to_ (sender ++ [10] ++ [0]) sub inhalt) ≠ some sender := by
  intro read
  by_cases terminated : 0 ∈ sender
  · exact zero_not_mem_sendmail clean _ (value_subset read terminated)
  · obtain ⟨rest, written⟩ := @sendmail_eq to_ sender sub inhalt terminated
    rw [written] at read
    have whole : 10 ∉ ascii "From" ++ 58 :: sender := by
      intro member
      rcases List.mem_append.mp member with name | value
      · revert name
        decide
      · rcases List.mem_cons.mp value with colon | inside
        · revert colon
          decide
        · exact line inside
    obtain ⟨more, some_, found⟩ := value_of_continued (by decide) whole rfl rest
    have same := Option.some.inj (found.symm.trans read)
    exact some_ (List.append_right_eq_self.mp same)

/-- **The mail.** Whatever is typed, the mail that is written does not say it. -/
theorem not_faithful (typed : Typed) : ¬ Faithful typed := by
  rintro ⟨inhalt, written, ran, sender, -⟩
  obtain ⟨clean, to_, sub, rfl⟩ := sent_of_main ran
  have line := typed.lines typed.sender (List.mem_cons_of_mem _ List.mem_cons_self)
  exact value_from_ne clean line.2.1 sender

/-- One letter in each line, and a greeting. -/
def greeting : Typed where
  recipient := ascii "b"
  sender := ascii "a"
  subject := ascii "s"
  body := ascii "hi\n"
  lines := by decide

theorem main_greeting : main greeting.stdin =
    some (ascii "hi\n", ascii "From:a\n To:b\nSubject:s\nhi\n\n") := by
  decide +kernel

/-- The recipient is read as a part of the sender. -/
theorem not_faithful_greeting : ¬ ∀ typed, Faithful typed := by
  intro claim
  obtain ⟨inhalt, written, ran, sender, -⟩ := claim greeting
  cases main_greeting.symm.trans ran
  have read : value (ascii "From") (ascii "From:a\n To:b\nSubject:s\nhi\n\n") =
      some (ascii "a To:b") := by decide
  rw [read] at sender
  revert sender
  decide

end LinuxUnix.MailEncoder

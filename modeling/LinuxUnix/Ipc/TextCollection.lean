import LinuxUnix.Foundation.Iteration
import LinuxUnix.Foundation.Prefixes
import LinuxUnix.Ipc.MailEncoder
import LinuxUnix.Ipc.PollingFifo
import LinuxUnix.Ipc.PrintService

/-! # The loops that collect a text

client.c, sender.c, printme.c and popen2.c call `fgets` until the input ends or the text that they
collect has no room for what has been read. Their array always holds a string that is shorter than
the array, and in the end that string is the longest one that could be collected
(`LinuxUnix.TextCollection.collects_text`).

In client.c, sender.c and popen2.c this is the text that the models of these programs start from
(`LinuxUnix.TextCollection.client_text`, `LinuxUnix.TextCollection.sender_text`,
`LinuxUnix.TextCollection.popen2_text`).

The prompts on the terminal are left out, and the array of the subject in popen2.c.
-/

namespace LinuxUnix.TextCollection

open CMemory LineInput Prefixes

/-- What distinguishes the programs: the size of the array `inhalt`, the size that `fgets` gets
for `puffer`, the size of `puffer`, and the text in `inhalt` before the loop. -/
structure Program where
  size : ℕ
  chunk : ℕ
  room : ℕ
  initial : List Byte
  reads : 1 < chunk
  inside : chunk ≤ room
  clean : 0 ∉ initial
  short : initial.length < size

/-- Where a program stands. -/
inductive At
  /-- before `fgets` -/
  | reading
  /-- before the comparison of the lengths -/
  | testing
  /-- behind the loop -/
  | ended
  /-- after a string without a NUL, or a store outside an array -/
  | undefined
  deriving DecidableEq

/-- Where a program stands, the input that is left, and its arrays. -/
structure State where
  place : At
  stdin : List Byte
  puffer : List Byte
  inhalt : List Byte
  deriving DecidableEq

/-- `strcat`: it stores a NUL behind the two strings. -/
def strcat (inhalt puffer : List Byte) : Option (List Byte) :=
  if (cstr inhalt).length + (cstr puffer).length < inhalt.length then
    some (PrintJob.strcat inhalt puffer)
  else none

/-- The condition of the loop: `fgets` stores what it has read with a NUL. -/
def Program.fgets (program : Program) (state : State) : State :=
  if state.stdin = [] then { state with place := .ended }
  else if (piece program.chunk state.stdin).length < state.puffer.length then
    { state with
      place := .testing
      stdin := state.stdin.drop (piece program.chunk state.stdin).length
      puffer := overwrite state.puffer 0 (piece program.chunk state.stdin ++ [0]) }
  else { state with place := .undefined }

/-- The body of the loop. -/
def Program.append (program : Program) (state : State) : State :=
  if 0 ∈ state.inhalt ∧ 0 ∈ state.puffer then
    if (cstr state.inhalt).length + (cstr state.puffer).length < program.size then
      match strcat state.inhalt state.puffer with
      | some inhalt => { state with place := .reading, inhalt }
      | none => { state with place := .undefined }
    else { state with place := .ended }
  else { state with place := .undefined }

/-- A step of the loop. -/
def Program.step (program : Program) (state : State) : State :=
  match state.place with
  | .reading => program.fgets state
  | .testing => program.append state
  | .ended | .undefined => state

/-- What the arrays of a program hold at first. -/
structure Memory (program : Program) where
  inhalt : List Byte
  puffer : List Byte
  inhalt_size : inhalt.length = program.size
  puffer_size : puffer.length = program.room

/-- A program before its loop: a NUL has been stored in `inhalt`, and then the first text. -/
def start {program : Program} (memory : Memory program) (stdin : List Byte) : State where
  place := .reading
  stdin := stdin
  puffer := memory.puffer
  inhalt := overwrite (memory.inhalt.set 0 0) 0 (program.initial ++ [0])

/-- The loop of client.c: the text begins with the line of the process id. -/
def client (process : PrintService.Client) : Program where
  size := PrintJob.buf
  chunk := PrintJob.buf
  room := PrintJob.buf
  initial := process.line
  reads := by decide
  inside := Nat.le_refl _
  clean := PrintService.zero_not_mem_line process
  short := Nat.lt_of_le_of_lt (PrintService.length_line process) (by decide)

/-- The loop of sender.c. -/
def sender : Program where
  size := PrintJob.buf
  chunk := PrintJob.buf
  room := PrintJob.buf
  initial := []
  reads := by decide
  inside := Nat.le_refl _
  clean := List.not_mem_nil
  short := by decide

/-- `BUF` in printme.c. -/
def printmeBuf : ℕ := 8192

/-- The loop of printme.c. -/
def printme : Program where
  size := printmeBuf
  chunk := printmeBuf
  room := printmeBuf
  initial := []
  reads := by decide
  inside := Nat.le_refl _
  clean := List.not_mem_nil
  short := by decide

/-- The loop of popen2.c: `fgets` does not use the last byte of `puffer`. -/
def popen2 : Program where
  size := MailEncoder.buf2
  chunk := MailEncoder.buf1 - 1
  room := MailEncoder.buf1
  initial := []
  reads := by decide
  inside := by decide
  clean := List.not_mem_nil
  short := by decide

/-- The input behind what a call of `fgets` with `BUF1` reads, which is nothing at its end. -/
def behind (stdin : List Byte) : List Byte :=
  stdin.drop (piece MailEncoder.buf1 stdin).length

/-- The input that the loop of popen2.c finds, behind the recipient, the sender and the
subject. -/
def body (stdin : List Byte) : List Byte :=
  behind (behind (behind stdin))

/-- The text is a string that is shorter than its array, and nothing has been stored outside. -/
structure Bounded (program : Program) (state : State) : Prop where
  defined : state.place ≠ .undefined
  size : state.inhalt.length = program.size
  terminated : 0 ∈ state.inhalt
  short : (cstr state.inhalt).length < program.size

/-- What `fgets` delivers, each time up to the first NUL. -/
def Program.texts (program : Program) (stdin : List Byte) : List (List Byte) :=
  (pieces program.chunk stdin).map cstr

/-- The array holds the first text, and behind it the longest prefix of the texts that has room. -/
def Collected (program : Program) (stdin : List Byte) (state : State) : Prop :=
  ∃ texts, Longest (Fits program.size program.initial.length) (program.texts stdin) texts ∧
    cstr state.inhalt = program.initial ++ texts.flatten

/-- The loop ends; up to then the text is bounded, and in the end it is collected. -/
def Collects (program : Program) (memory : Memory program) (stdin : List Byte) : Prop :=
  Completes program.step (fun state => state.place = .ended)
    (fun state => Bounded program state ∧
      (state.place = .ended → Collected program stdin state)) (start memory stdin)

/-- The texts that are still to come. -/
def Program.coming (program : Program) (state : State) : List (List Byte) :=
  match state.place with
  | .reading => program.texts state.stdin
  | .testing => cstr state.puffer :: program.texts state.stdin
  | .ended | .undefined => []

/-- The text once the loop has ended. -/
def Program.text (program : Program) (state : State) : List Byte :=
  cstr state.inhalt ++
    (taken program.size (cstr state.inhalt).length (program.coming state)).flatten

/-- The text that a program collects. -/
def Program.whole (program : Program) (stdin : List Byte) : List Byte :=
  program.initial ++ (taken program.size program.initial.length (program.texts stdin)).flatten

/-- What a program holds to: its arrays are in order, and the text that is going to be collected
stays the same. -/
structure Sound (program : Program) (whole : List Byte) (state : State) : Prop where
  bounded : Bounded program state
  room : state.puffer.length = program.room
  read : state.place = .testing → 0 ∈ state.puffer
  text : program.text state = whole

variable {program : Program} {memory : Memory program} {stdin whole : List Byte} {state : State}

theorem bounded_of_terminated (defined : state.place ≠ .undefined)
    (size : state.inhalt.length = program.size) (terminated : 0 ∈ state.inhalt) :
    Bounded program state where
  defined
  size
  terminated
  short := size ▸ length_cstr_lt terminated

theorem Program.texts_nil (program : Program) : program.texts [] = [] := by
  rw [Program.texts, pieces_nil, List.map_nil]

theorem Program.texts_of_ne_nil (program : Program) (nonempty : stdin ≠ []) :
    program.texts stdin = cstr (piece program.chunk stdin) ::
      program.texts (stdin.drop (piece program.chunk stdin).length) := by
  rw [Program.texts, pieces_of_ne_nil program.reads nonempty, List.map_cons]
  rfl

theorem Program.text_of_reading (program : Program) (here : state.place = .reading) :
    program.text state = cstr state.inhalt ++
      (taken program.size (cstr state.inhalt).length (program.texts state.stdin)).flatten := by
  simp only [Program.text, Program.coming, here]

theorem Program.text_of_testing (program : Program) (here : state.place = .testing) :
    program.text state = cstr state.inhalt ++ (taken program.size (cstr state.inhalt).length
      (cstr state.puffer :: program.texts state.stdin)).flatten := by
  simp only [Program.text, Program.coming, here]

theorem Program.text_of_ended (program : Program) (here : state.place = .ended) :
    program.text state = cstr state.inhalt := by
  simp only [Program.text, Program.coming, here, taken, List.flatten_nil, List.append_nil]

/-- A piece has room in `puffer` with its NUL. -/
theorem Sound.fits (sound : Sound program whole state) :
    (piece program.chunk state.stdin).length < state.puffer.length := by
  have short := length_piece_le program.chunk state.stdin
  have reads := program.reads
  have inside := program.inside
  rw [sound.room]
  omega

/-- `fgets` makes the next text out of the input, or the loop ends with it. -/
theorem Sound.fgets (sound : Sound program whole state) (here : state.place = .reading) :
    Sound program whole (program.fgets state) := by
  obtain ⟨_, size, terminated, _⟩ := sound.bounded
  have same := sound.text
  rw [program.text_of_reading here] at same
  rw [Program.fgets]
  split
  · rename_i finished
    rw [finished, program.texts_nil] at same
    refine ⟨bounded_of_terminated At.noConfusion size terminated, sound.room, nofun, ?_⟩
    rw [program.text_of_ended rfl, ← same]
    exact (List.append_nil _).symm
  · rename_i nonempty
    rw [program.texts_of_ne_nil nonempty] at same
    have fits := sound.fits
    rw [if_pos fits]
    refine ⟨bounded_of_terminated At.noConfusion size terminated, ?_, ?_, ?_⟩
    · rw [length_overwrite, sound.room]
      rw [List.length_append, List.length_singleton, Nat.zero_add]
      exact fits
    · exact fun _ => zero_mem_overwrite ..
    · rw [program.text_of_testing rfl, cstr_overwrite, same]

/-- The loop appends a text that has room, or it ends with the first one that has none. -/
theorem Sound.append (sound : Sound program whole state) (here : state.place = .testing) :
    Sound program whole (program.append state) := by
  obtain ⟨_, size, terminated, _⟩ := sound.bounded
  have same := sound.text
  rw [program.text_of_testing here] at same
  rw [Program.append, if_pos ⟨terminated, sound.read here⟩]
  split
  · rename_i room
    rw [taken_of_room room, List.flatten_cons, ← List.append_assoc] at same
    have inside := size.symm ▸ room
    rw [strcat, if_pos inside]
    refine ⟨bounded_of_terminated At.noConfusion ?_ ?_, sound.room, nofun, ?_⟩
    · exact (PrintJob.length_strcat inside).trans size
    · exact PrintJob.zero_mem_strcat ..
    · rw [program.text_of_reading rfl, PrintJob.cstr_strcat, List.length_append, same]
  · rename_i full
    rw [taken_of_full full, List.flatten_nil, List.append_nil] at same
    refine ⟨bounded_of_terminated At.noConfusion size terminated, sound.room, nofun, ?_⟩
    rw [program.text_of_ended rfl, same]

theorem Sound.step (sound : Sound program whole state) : Sound program whole (program.step state) := by
  rw [Program.step]
  split
  · rename_i here
    exact sound.fgets here
  · rename_i here
    exact sound.append here
  · exact sound
  · exact sound

/-- How long a program can go on: a step uses up a piece of the input or what has been read. -/
def measure (state : State) : ℕ :=
  match state.place with
  | .reading => 2 * state.stdin.length + 1
  | .testing => 2 * state.stdin.length + 2
  | .ended | .undefined => 0

theorem measure_fgets (here : state.place = .reading) :
    measure (program.fgets state) < measure state := by
  have before : measure state = 2 * state.stdin.length + 1 := by simp only [measure, here]
  rw [before, Program.fgets]
  split
  · exact Nat.succ_pos _
  · rename_i nonempty
    split
    · have moved := length_piece_pos program.reads nonempty
      have long := List.length_pos_iff.mpr nonempty
      dsimp only [measure]
      rw [List.length_drop]
      omega
    · exact Nat.succ_pos _

theorem measure_append (here : state.place = .testing) :
    measure (program.append state) < measure state := by
  have before : measure state = 2 * state.stdin.length + 2 := by simp only [measure, here]
  rw [before, Program.append]
  split
  · split
    · split
      · exact Nat.lt_succ_self _
      · exact Nat.succ_pos _
    · exact Nat.succ_pos _
  · exact Nat.succ_pos _

theorem Sound.measure_lt (sound : Sound program whole state) (running : state.place ≠ .ended) :
    measure (program.step state) < measure state := by
  rw [Program.step]
  split
  · rename_i here
    exact measure_fgets here
  · rename_i here
    exact measure_append here
  · rename_i here
    exact absurd here running
  · rename_i here
    exact absurd here sound.bounded.defined

/-- Before the loop the arrays are in order. -/
theorem sound_start (memory : Memory program) (stdin : List Byte) :
    Sound program (program.whole stdin) (start memory stdin) := by
  have string : cstr (start memory stdin).inhalt = program.initial := by
    rw [start, cstr_overwrite, cstr_eq_self program.clean]
  have length : (start memory stdin).inhalt.length = program.size := by
    have short := program.short
    rw [start, length_overwrite, List.length_set, memory.inhalt_size]
    rw [List.length_set, memory.inhalt_size, List.length_append, List.length_singleton]
    omega
  refine ⟨bounded_of_terminated At.noConfusion length (zero_mem_overwrite ..),
    memory.puffer_size, nofun, ?_⟩
  rw [program.text_of_reading rfl, string]
  rfl

/-- **The loop.** It ends, and up to then the program is in order. -/
theorem completes (memory : Memory program) (stdin : List Byte) :
    Completes program.step (fun state => state.place = .ended)
      (Sound program (program.whole stdin)) (start memory stdin) :=
  completes_of_measure measure (fun _ => Sound.step) (fun _ => Sound.measure_lt)
    (sound_start memory stdin)

theorem Sound.collected (sound : Sound program (program.whole stdin) state)
    (ended : state.place = .ended) : Collected program stdin state := by
  refine ⟨_, longest_taken program.short _, ?_⟩
  rw [← program.text_of_ended ended, sound.text, Program.whole]

theorem collects (memory : Memory program) (stdin : List Byte) :
    Collects program memory stdin :=
  (completes memory stdin).mono fun _ sound => ⟨sound.bounded, sound.collected⟩

/-- **Bounded text collection.** Whatever is typed and whatever the arrays hold at first, the loops
of client.c, sender.c, printme.c and popen2.c end; up to then the text is a string shorter than its
array, and in the end it is the first text and the longest prefix of what `fgets` delivers that has
room. -/
theorem collects_text :
    (∀ (process : PrintService.Client) (memory : Memory (client process)) (stdin : List Byte),
      Collects (client process) memory stdin) ∧
    (∀ (memory : Memory sender) (stdin : List Byte), Collects sender memory stdin) ∧
    (∀ (memory : Memory printme) (stdin : List Byte), Collects printme memory stdin) ∧
    ∀ (memory : Memory popen2) (stdin : List Byte), Collects popen2 memory (body stdin) :=
  ⟨fun _ => collects, collects, collects, fun memory stdin => collects memory (body stdin)⟩

/-- In the end the text is there. -/
theorem exists_ended (memory : Memory program) (stdin : List Byte) : ∃ after,
    Reaches program.step (start memory stdin) after ∧ after.place = .ended ∧
      cstr after.inhalt = program.whole stdin := by
  obtain ⟨⟨after, run, ended⟩, sounds⟩ := completes memory stdin
  refine ⟨after, run, ended, ?_⟩
  rw [← program.text_of_ended ended, (sounds after run).text]

/-- The lines that are accepted are those for which there is room. -/
theorem accepted_eq (used : ℕ) (lines : List (List Byte)) :
    PrintJob.accepted used lines = taken PrintJob.buf used (lines.map cstr) := by
  induction lines generalizing used with
  | nil => rfl
  | cons puffer lines ih =>
      rw [PrintJob.accepted, List.map_cons, taken, ih]

theorem collect_eq (inhalt : List Byte) (parts : List (List Byte)) :
    MailEncoder.collect inhalt parts =
      inhalt ++ (taken MailEncoder.buf2 inhalt.length (parts.map cstr)).flatten := by
  induction parts generalizing inhalt with
  | nil => exact (List.append_nil _).symm
  | cons puffer parts ih =>
      rw [MailEncoder.collect, List.map_cons]
      split
      · rename_i room
        rw [ih, taken_of_room room, List.flatten_cons, List.length_append, List.append_assoc]
      · rename_i full
        rw [taken_of_full full, List.flatten_nil, List.append_nil]

/-- The text of a sender, if its lines are what `fgets` delivers. -/
theorem sender_text (memory : Memory sender) (stdin : List Byte) : ∃ after,
    Reaches sender.step (start memory stdin) after ∧ after.place = .ended ∧
      cstr after.inhalt = PollingFifo.text
        ⟨memory.inhalt, memory.inhalt_size, pieces PrintJob.buf stdin⟩ := by
  rw [PollingFifo.text, accepted_eq]
  exact exists_ended memory stdin

/-- The text of a client, if its lines are what `fgets` delivers. -/
theorem client_text {process : PrintService.Client} (memory : Memory (client process))
    {stdin : List Byte} (types : process.typed.lines = pieces PrintJob.buf stdin) : ∃ after,
    Reaches (client process).step (start memory stdin) after ∧ after.place = .ended ∧
      cstr after.inhalt = process.text := by
  rw [PrintService.Client.text, accepted_eq, types]
  exact exists_ended memory stdin

theorem behind_of_fgets {array rest : List Byte}
    (read : MailEncoder.fgets MailEncoder.buf1 stdin = some (array, rest)) :
    rest = behind stdin := by
  rw [MailEncoder.fgets, Option.ite_none_left_eq_some] at read
  cases read.2
  rfl

/-- The text of a mail, if `main` of popen2.c comes to its loop. -/
theorem popen2_text (memory : Memory popen2) {stdin inhalt written : List Byte}
    (ran : MailEncoder.main stdin = some (inhalt, written)) : ∃ after,
    Reaches popen2.step (start memory (body stdin)) after ∧ after.place = .ended ∧
      cstr after.inhalt = inhalt := by
  obtain ⟨⟨to_, first⟩, recipient, ran⟩ := Option.bind_eq_some_iff.mp ran
  obtain ⟨⟨from_, second⟩, sender_, ran⟩ := Option.bind_eq_some_iff.mp ran
  obtain ⟨⟨sub, third⟩, subject, ran⟩ := Option.bind_eq_some_iff.mp ran
  obtain ⟨_, _, ended⟩ := Option.bind_eq_some_iff.mp ran
  have left : third = body stdin := by
    rw [behind_of_fgets subject, behind_of_fgets sender_, behind_of_fgets recipient, body]
  cases ended
  rw [collect_eq, left]
  exact exists_ended memory (body stdin)

end LinuxUnix.TextCollection

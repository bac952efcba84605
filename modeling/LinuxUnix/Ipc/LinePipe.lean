import LinuxUnix.Foundation.LineInput
import LinuxUnix.Ipc.BlockPipe

/-! # pipe2.c

The parent puts a line from its standard input into a pipe, and the child appends the line that it
finds there to a file. Neither looks at what `fgets` returns, so that without a line they write
what the array `puffer` happens to hold. Whatever the order of the steps, both end, and the file
gets the text that has been typed, up to a NUL, unless there is none
(`LinuxUnix.LinePipe.appends_iff`).

The calls of `fopen`, `pipe`, `fork` and `fdopen` are taken to succeed, and the writes too.
-/

namespace LinuxUnix.LinePipe

open BlockPipe CMemory FilterPipes LineInput TransitionSystem

/-- The array `puffer` when the program starts; the child gets a copy of it. -/
structure Memory where
  bytes : List Byte
  size : bytes.length = pipeBuf

/-- Where the parent is. -/
inductive ParentAt
  /-- before `close(fd[0])` -/
  | closing
  /-- before `fgets` -/
  | reading
  /-- before `fputs` -/
  | putting (puffer : List Byte)
  /-- in `exit`, with what the stream keeps for the pipe -/
  | exiting (kept : List Byte)
  | ended
  /-- ended by `SIGPIPE` -/
  | killed
  /-- after `fputs` has read past the array -/
  | undefined
  deriving DecidableEq

/-- Where the child is. -/
inductive ChildAt
  /-- before `close(fd[1])` -/
  | closing
  /-- in `fgets`, with what has been read from the pipe -/
  | reading (got : List Byte)
  /-- before `fputs` -/
  | putting (puffer : List Byte)
  /-- in `exit`, with what the stream keeps for the file -/
  | exiting (kept : List Byte)
  | ended
  /-- after `fputs` has read past the array -/
  | undefined
  deriving DecidableEq

/-- The processes, the pipe, and the file that is appended to. -/
structure State where
  parent : ParentAt
  child : ChildAt
  pipe : Pipe Party Byte
  newfile : List Byte

/-- `fgets`, given what it finds: at the end of the input the array stays as it is. -/
def fgets (puffer input : List Byte) : List Byte :=
  if input = [] then puffer else overwrite puffer 0 (piece pipeBuf input ++ [0])

/-- A step of the parent. -/
def State.goParent (memory : Memory) (stdin : List Byte) (state : State) : Option State :=
  match state.parent with
  | .closing => some { state with parent := .reading, pipe := state.pipe.closeRead .parent }
  | .reading => some { state with parent := .putting (fgets memory.bytes stdin) }
  | .putting puffer => match fputs puffer with
    | some kept => some { state with parent := .exiting kept }
    | none => some { state with parent := .undefined }
  | .exiting kept =>
      if kept = [] then some { state with parent := .ended, pipe := state.pipe.leave .parent }
      else if state.pipe.readers = ∅ then
        some { state with parent := .killed, pipe := state.pipe.leave .parent }
      else (state.pipe.write kept).map fun pipe =>
        { state with parent := .ended, pipe := pipe.leave .parent }
  | .ended | .killed | .undefined => none

/-- `fgets` reads on without a newline, as long as there is room. -/
def Incomplete (got : List Byte) : Prop := 10 ∉ got ∧ got.length < pipeBuf - 1

instance (got : List Byte) : Decidable (Incomplete got) :=
  inferInstanceAs (Decidable (_ ∧ _))

/-- A step of the child. -/
def State.goChild (memory : Memory) (state : State) : Option State :=
  match state.child with
  | .closing => some { state with child := .reading [], pipe := state.pipe.closeWrite .child }
  | .reading got =>
      if Incomplete got then
        (state.pipe.read pipeBuf).map fun found => { state with
          child := if found.1 = [] then .putting (fgets memory.bytes got)
            else .reading (got ++ found.1)
          pipe := found.2 }
      else some { state with child := .putting (fgets memory.bytes got) }
  | .putting puffer => match fputs puffer with
    | some kept => some { state with child := .exiting kept }
    | none => some { state with child := .undefined }
  | .exiting kept => some { state with
      child := .ended
      pipe := state.pipe.leave .child
      newfile := state.newfile ++ kept }
  | .ended | .undefined => none

/-- The effect of a step of one of the processes. -/
def next (memory : Memory) (stdin : List Byte) (state : State) : Party → Option State
  | .parent => state.goParent memory stdin
  | .child => state.goChild memory

/-- Both processes after `fork`. -/
def start (capacity : Capacity) (file : List Byte) : State where
  parent := .closing
  child := .closing
  pipe := ⟨[], capacity.size, {.parent, .child}, {.parent, .child}⟩
  newfile := file

def pipe2 (capacity : Capacity) (memory : Memory) (stdin file : List Byte) :
    TransitionSystem State Party :=
  .ofFunction (· = start capacity file) (next memory stdin)

/-- The line that has been typed, up to a NUL. -/
def typed (stdin : List Byte) : List Byte := cstr (piece pipeBuf stdin)

/-- What the parent puts into the pipe, if it comes to that. -/
def sent (memory : Memory) (stdin : List Byte) : Option (List Byte) :=
  fputs (fgets memory.bytes stdin)

/-- What the child appends, if it comes to that. -/
def appended (memory : Memory) (stdin : List Byte) : Option (List Byte) :=
  (sent memory stdin).bind fun line => fputs (fgets memory.bytes line)

/-- No process can go on. -/
def Stuck (memory : Memory) (stdin : List Byte) (state : State) : Prop :=
  ∀ party, next memory stdin state party = none

/-- In every run, whatever the array holds, both processes end, and the file gets the line. -/
def Appends (capacity : Capacity) (stdin file : List Byte) : Prop :=
  ∀ memory state, (pipe2 capacity memory stdin file).Reachable state →
    (pipe2 capacity memory stdin file).Terminates state ∧
      (Stuck memory stdin state →
        state.parent = .ended ∧ state.child = .ended ∧ state.newfile = file ++ typed stdin)

variable {capacity : Capacity} {memory : Memory} {stdin file : List Byte} {before after state : State}
  {line text : List Byte}

theorem length_fgets {puffer : List Byte} (size : puffer.length = pipeBuf) (input : List Byte) :
    (fgets puffer input).length = pipeBuf := by
  have short := length_piece_le pipeBuf input
  rw [pipeBuf] at size short
  rw [fgets, pipeBuf]
  split
  · exact size
  · rw [length_overwrite, size]
    rw [List.length_append, List.length_singleton]
    omega

/-- A line has room in the array, and in the pipe. -/
theorem length_lt_of_sent (sends : sent memory stdin = some line) : line.length < pipeBuf := by
  rw [sent, fputs, Option.ite_none_right_eq_some, Option.some.injEq] at sends
  obtain ⟨terminated, rfl⟩ := sends
  exact (length_cstr_lt terminated).trans_eq (length_fgets memory.size stdin)

theorem zero_not_mem_of_sent (sends : sent memory stdin = some line) : 0 ∉ line := by
  rw [sent, fputs, Option.ite_none_right_eq_some, Option.some.injEq] at sends
  obtain ⟨-, rfl⟩ := sends
  exact zero_not_mem_cstr _

/-- The parent has not ended. -/
def ParentAt.Runs : ParentAt → Prop
  | .closing | .reading | .putting _ | .exiting _ | .undefined => True
  | .ended | .killed => False

/-- The child has not read anything yet. -/
def ChildAt.Early : ChildAt → Prop
  | .closing => True
  | .reading got => got = []
  | .putting _ | .exiting _ | .ended | .undefined => False

/-- Who has the ends of the pipe open. -/
structure Ends (capacity : Capacity) (state : State) : Prop where
  capacity : state.pipe.capacity = capacity.size
  reader : state.child.Early → .child ∈ state.pipe.readers
  parentWrites : .parent ∈ state.pipe.writers ↔ state.parent.Runs
  childWrites : .child ∈ state.pipe.writers ↔ state.child = .closing

/-- How far the line has come: the processes, what is in the pipe, and the file. -/
inductive Flow (memory : Memory) (stdin file : List Byte) :
    ParentAt → ChildAt → List Byte → List Byte → Prop
  | closing {child : ChildAt} (early : child.Early) : Flow memory stdin file .closing child [] file
  | reading {child : ChildAt} (early : child.Early) : Flow memory stdin file .reading child [] file
  | putting {child : ChildAt} (early : child.Early) :
      Flow memory stdin file (.putting (fgets memory.bytes stdin)) child [] file
  | unsent {child : ChildAt} (early : child.Early) (undefined : sent memory stdin = none) :
      Flow memory stdin file .undefined child [] file
  | exiting {child : ChildAt} {line : List Byte} (early : child.Early)
      (sends : sent memory stdin = some line) : Flow memory stdin file (.exiting line) child [] file
  | inside {child : ChildAt} {line : List Byte} (early : child.Early)
      (sends : sent memory stdin = some line) : Flow memory stdin file .ended child line file
  | got {line : List Byte} (sends : sent memory stdin = some line) (some_ : line ≠ []) :
      Flow memory stdin file .ended (.reading line) [] file
  | copied {line : List Byte} (sends : sent memory stdin = some line) :
      Flow memory stdin file .ended (.putting (fgets memory.bytes line)) [] file
  | lost (undefined : appended memory stdin = none) :
      Flow memory stdin file .ended .undefined [] file
  | kept {text : List Byte} (appends : appended memory stdin = some text) :
      Flow memory stdin file .ended (.exiting text) [] file
  | ended {text : List Byte} (appends : appended memory stdin = some text) :
      Flow memory stdin file .ended .ended [] (file ++ text)

/-- What holds in every run. -/
structure Sound (capacity : Capacity) (memory : Memory) (stdin file : List Byte) (state : State) :
    Prop where
  ends : Ends capacity state
  flow : Flow memory stdin file state.parent state.child state.pipe.inside state.newfile

theorem sound_start (capacity : Capacity) (memory : Memory) (stdin file : List Byte) :
    Sound capacity memory stdin file (start capacity file) where
  ends :=
    { capacity := rfl
      reader := fun _ => Finset.mem_insert_of_mem (Finset.mem_singleton_self _)
      parentWrites := iff_of_true (Finset.mem_insert_self ..) trivial
      childWrites :=
        iff_of_true (Finset.mem_insert_of_mem (Finset.mem_singleton_self _)) rfl }
  flow := .closing trivial

/-- The steps that a process still has to make. -/
def ParentAt.left : ParentAt → ℕ
  | .closing => 4
  | .reading => 3
  | .putting _ => 2
  | .exiting _ => 1
  | .ended | .killed | .undefined => 0

def ChildAt.left : ChildAt → ℕ
  | .closing => 5
  | .reading got => if got = [] then 4 else 3
  | .putting _ => 2
  | .exiting _ => 1
  | .ended | .undefined => 0

def State.left (state : State) : ℕ := state.parent.left + state.child.left

/-- An ended parent has closed the pipe. -/
theorem ends_of_leave {parent : ParentAt} {child : ChildAt} {pipe : Pipe Party Byte}
    {newfile : List Byte} (ends : Ends capacity ⟨parent, child, pipe, newfile⟩) :
    Ends capacity ⟨.ended, child, pipe.leave .parent, newfile⟩ where
  capacity := ends.capacity
  reader early := mem_erase_parent.mpr (ends.reader early)
  parentWrites := iff_of_false (Finset.notMem_erase _ _) id
  childWrites := mem_erase_parent.trans ends.childWrites

theorem Sound.parentStep (sound : Sound capacity memory stdin file before)
    (moved : before.goParent memory stdin = some after) :
    Sound capacity memory stdin file after ∧ after.left < before.left := by
  obtain ⟨parent, child, pipe, newfile⟩ := before
  obtain ⟨ends, flow⟩ := sound
  obtain ⟨inside, size, readers, writers⟩ := pipe
  dsimp only at flow
  cases flow with
  | closing early =>
      cases moved
      refine ⟨⟨⟨ends.capacity, fun early => mem_erase_parent.mpr (ends.reader early),
        ends.parentWrites, ends.childWrites⟩, .reading early⟩, ?_⟩
      exact Nat.add_lt_add_right (Nat.lt_succ_self _) _
  | reading early =>
      cases moved
      refine ⟨⟨⟨ends.capacity, ends.reader, ends.parentWrites, ends.childWrites⟩,
        .putting early⟩, ?_⟩
      exact Nat.add_lt_add_right (Nat.lt_succ_self _) _
  | putting early =>
      simp only [State.goParent] at moved
      split at moved
      · rename_i line sends
        cases moved
        refine ⟨⟨⟨ends.capacity, ends.reader, ends.parentWrites, ends.childWrites⟩,
          .exiting early sends⟩, ?_⟩
        exact Nat.add_lt_add_right (Nat.lt_succ_self _) _
      · rename_i undefined
        cases moved
        refine ⟨⟨⟨ends.capacity, ends.reader, ends.parentWrites, ends.childWrites⟩,
          .unsent early undefined⟩, ?_⟩
        exact Nat.add_lt_add_right Nat.zero_lt_two _
  | @exiting _ line early sends =>
      simp only [State.goParent] at moved
      split at moved
      · rename_i empty
        cases moved
        subst empty
        exact ⟨⟨ends_of_leave ends, .inside early sends⟩,
          Nat.add_lt_add_right (Nat.lt_succ_self _) _⟩
      · split at moved
        · rename_i nobody
          have alive := ends.reader early
          rw [nobody] at alive
          exact absurd alive (Finset.notMem_empty _)
        · obtain ⟨pipe, wrote, rfl⟩ := Option.map_eq_some_iff.mp moved
          obtain ⟨-, rfl⟩ := Pipe.write_eq_some_iff.mp wrote
          refine ⟨⟨?_, .inside early sends⟩, Nat.add_lt_add_right (Nat.lt_succ_self _) _⟩
          exact @ends_of_leave capacity (.exiting line) child ⟨[] ++ line, size, readers, writers⟩
            file ⟨ends.capacity, ends.reader, ends.parentWrites, ends.childWrites⟩
  | unsent early undefined => cases moved
  | inside early sends => cases moved
  | got sends some_ => cases moved
  | copied sends => cases moved
  | lost undefined => cases moved
  | kept appends => cases moved
  | ended appends => cases moved

/-- A child that has not read, and whose parent has not ended, does not find the end of the
pipe. -/
theorem Ends.not_empty {parent : ParentAt} {child : ChildAt} {pipe : Pipe Party Byte}
    {newfile : List Byte} (ends : Ends capacity ⟨parent, child, pipe, newfile⟩)
    (runs : parent.Runs) : pipe.writers ≠ ∅ :=
  Finset.nonempty_iff_ne_empty.mp ⟨_, ends.parentWrites.mpr runs⟩

/-- The child closes its end for writing. -/
theorem Flow.childCloses {parent : ParentAt} {inside newfile : List Byte}
    (flow : Flow memory stdin file parent .closing inside newfile) :
    Flow memory stdin file parent (.reading []) inside newfile := by
  cases flow with
  | closing early => exact .closing rfl
  | reading early => exact .reading rfl
  | putting early => exact .putting rfl
  | unsent early undefined => exact .unsent rfl undefined
  | exiting early sends => exact .exiting rfl sends
  | inside early sends => exact .inside rfl sends

/-- The child reads on. -/
theorem Sound.childReads {got found : List Byte} {pipe pipe' : Pipe Party Byte} {parent : ParentAt}
    {newfile : List Byte}
    (sound : Sound capacity memory stdin file ⟨parent, .reading got, pipe, newfile⟩)
    (reads : pipe.read pipeBuf = some (found, pipe')) :
    Flow memory stdin file parent
        (if found = [] then .putting (fgets memory.bytes got) else .reading (got ++ found))
        pipe'.inside newfile ∧ (found ≠ [] → got = []) := by
  obtain ⟨ends, flow⟩ := sound
  obtain ⟨inside, size, readers, writers⟩ := pipe
  dsimp only at flow
  rcases Pipe.read_eq_some_iff.mp reads with ⟨nothing, nobody, rfl, rfl⟩ | ⟨there, rfl, rfl⟩
  · dsimp only at nothing nobody
    subst nothing nobody
    rw [if_pos rfl]
    refine ⟨?_, fun some_ => absurd rfl some_⟩
    cases flow with
    | closing early | reading early | putting early | unsent early undefined
    | exiting early sends => exact absurd rfl (ends.not_empty trivial)
    | inside early sends =>
        cases early
        exact .copied sends
    | got sends some_ => exact .copied sends
  · cases flow with
    | closing early | reading early | putting early | unsent early undefined
    | exiting early sends | got sends some_ => exact absurd rfl there
    | inside early sends =>
        cases early
        have short := Nat.le_of_lt (length_lt_of_sent sends)
        have whole : inside.take pipeBuf = inside := List.take_of_length_le short
        have empty : inside.drop pipeBuf = [] := List.drop_eq_nil_of_le short
        dsimp only
        rw [whole, empty, if_neg there, List.nil_append]
        exact ⟨.got sends there, fun _ => rfl⟩

theorem Sound.childStep (sound : Sound capacity memory stdin file before)
    (moved : before.goChild memory = some after) :
    Sound capacity memory stdin file after ∧ after.left < before.left := by
  obtain ⟨parent, child, pipe, newfile⟩ := before
  obtain ⟨inside, size, readers, writers⟩ := pipe
  have sound_ := sound
  obtain ⟨ends, flow⟩ := sound
  dsimp only at flow
  cases child with
  | closing =>
      cases moved
      refine ⟨⟨⟨ends.capacity, fun _ => ends.reader trivial,
        mem_erase_child.trans ends.parentWrites, iff_of_false (Finset.notMem_erase _ _) nofun⟩,
        flow.childCloses⟩, ?_⟩
      exact Nat.add_lt_add_left (Nat.lt_succ_self _) _
  | reading got =>
      have gone : .child ∉ writers := fun member =>
        ChildAt.noConfusion (ends.childWrites.mp member)
      simp only [State.goChild] at moved
      split at moved
      · obtain ⟨⟨found, pipe'⟩, reads, rfl⟩ := Option.map_eq_some_iff.mp moved
        obtain ⟨flow', first⟩ := sound_.childReads reads
        have kept : pipe'.capacity = size ∧ pipe'.readers = readers ∧ pipe'.writers = writers := by
          rcases Pipe.read_eq_some_iff.mp reads with ⟨_, _, _, rfl⟩ | ⟨_, _, rfl⟩
          · exact ⟨rfl, rfl, rfl⟩
          · exact ⟨rfl, rfl, rfl⟩
        obtain ⟨capacity_, readers_, writers_⟩ := kept
        refine ⟨⟨⟨capacity_.trans ends.capacity, ?_, writers_ ▸ ends.parentWrites,
          iff_of_false (writers_ ▸ gone) ?_⟩, flow'⟩, Nat.add_lt_add_left ?_ _⟩
        · dsimp only
          split
          · exact nofun
          · rename_i some_
            intro early
            exact absurd (List.append_eq_nil_iff.mp early).2 some_
        · dsimp only
          split <;> exact nofun
        · dsimp only
          split
          · simp only [ChildAt.left]
            split <;> omega
          · rename_i some_
            rw [first some_, List.nil_append, ChildAt.left, ChildAt.left, if_pos rfl, if_neg some_]
            exact Nat.lt_succ_self _
      · rename_i complete
        cases moved
        refine ⟨⟨⟨ends.capacity, nofun, ends.parentWrites, iff_of_false gone nofun⟩, ?_⟩, ?_⟩
        · cases flow with
          | closing early | reading early | putting early | unsent early undefined
          | exiting early sends | inside early sends =>
              cases early
              exact absurd ⟨List.not_mem_nil, by decide⟩ complete
          | got sends some_ => exact .copied sends
        · apply Nat.add_lt_add_left
          simp only [ChildAt.left]
          split <;> omega
  | putting puffer =>
      cases flow with
      | closing early | reading early | putting early | unsent early undefined
      | exiting early sends | inside early sends => cases early
      | @copied line sends =>
          have gone : ∀ late : ChildAt, late ≠ .closing →
              (.child ∈ writers ↔ late = .closing) := fun late open_ =>
            iff_of_false (fun member => ChildAt.noConfusion (ends.childWrites.mp member)) open_
          have appends : appended memory stdin = fputs (fgets memory.bytes line) := by
            rw [appended, sends]
            rfl
          simp only [State.goChild] at moved
          split at moved
          · rename_i text puts
            cases moved
            exact ⟨⟨⟨ends.capacity, nofun, ends.parentWrites, gone _ nofun⟩,
              .kept (appends.trans puts)⟩, Nat.add_lt_add_left (Nat.lt_succ_self _) _⟩
          · rename_i undefined
            cases moved
            exact ⟨⟨⟨ends.capacity, nofun, ends.parentWrites, gone _ nofun⟩,
              .lost (appends.trans undefined)⟩, Nat.add_lt_add_left Nat.zero_lt_two _⟩
  | exiting kept =>
      cases moved
      cases flow with
      | closing early | reading early | putting early | unsent early undefined
      | exiting early sends | inside early sends => cases early
      | kept appends =>
          exact ⟨⟨⟨ends.capacity, nofun, mem_erase_child.trans ends.parentWrites,
            iff_of_false (Finset.notMem_erase _ _) nofun⟩, .ended appends⟩,
            Nat.add_lt_add_left (Nat.lt_succ_self _) _⟩
  | ended | undefined => cases moved

theorem sound_invariant (capacity : Capacity) (memory : Memory) (stdin file : List Byte) :
    (pipe2 capacity memory stdin file).Invariant (Sound capacity memory stdin file) where
  initial := by
    rintro _ rfl
    exact sound_start capacity memory stdin file
  step before party after sound moved := by
    cases party with
    | parent => exact (sound.parentStep moved).1
    | child => exact (sound.childStep moved).1

theorem Sound.terminates (sound : Sound capacity memory stdin file state) :
    (pipe2 capacity memory stdin file).Terminates state := by
  refine (sound_invariant capacity memory stdin file).terminates State.left ?_ sound
  intro before party after sound moved
  cases party with
  | parent => exact (sound.parentStep moved).2
  | child => exact (sound.childStep moved).2

/-- A child that has not read can go on once the parent has ended. -/
theorem Ends.childGoes {child : ChildAt} {pipe : Pipe Party Byte} {newfile : List Byte}
    (ends : Ends capacity ⟨.ended, child, pipe, newfile⟩)
    (reads : child = .closing ∨ ∃ got, child = .reading got) :
    State.goChild memory ⟨.ended, child, pipe, newfile⟩ ≠ none := by
  rcases reads with rfl | ⟨got, rfl⟩
  · exact nofun
  · simp only [State.goChild]
    split
    · rw [ne_eq, Option.map_eq_none_iff, Pipe.read_eq_none_iff]
      rintro ⟨-, open_⟩
      apply open_
      ext party
      cases party with
      | parent => exact iff_of_false ends.parentWrites.mp (Finset.notMem_empty _)
      | child =>
          exact iff_of_false (fun member => ChildAt.noConfusion (ends.childWrites.mp member))
            (Finset.notMem_empty _)
    · exact nofun

/-- Where no process can go on, both have ended, or one has read past the array. -/
theorem Sound.outcome (sound : Sound capacity memory stdin file state)
    (stuck : Stuck memory stdin state) :
    (∃ text, appended memory stdin = some text ∧ state.parent = .ended ∧ state.child = .ended ∧
        state.newfile = file ++ text) ∨
      appended memory stdin = none ∧ ¬ (state.parent = .ended ∧ state.child = .ended) := by
  have parent_ : state.goParent memory stdin = none := stuck .parent
  have child_ : state.goChild memory = none := stuck .child
  obtain ⟨parent, child, ⟨inside, size, readers, writers⟩, newfile⟩ := state
  obtain ⟨ends, flow⟩ := sound
  dsimp only at flow
  cases flow with
  | closing early | reading early => cases parent_
  | putting early =>
      simp only [State.goParent] at parent_
      split at parent_ <;> cases parent_
  | unsent early undefined =>
      refine .inr ⟨?_, nofun⟩
      rw [appended, undefined]
      rfl
  | @exiting _ line early sends =>
      have room : ([] : List Byte).length + line.length ≤ size := by
        have short := length_lt_of_sent sends
        have atomic := capacity.atomic
        have roomy : size = capacity.size := ends.capacity
        rw [List.length_nil]
        omega
      simp only [State.goParent] at parent_
      split at parent_
      · cases parent_
      · split at parent_
        · cases parent_
        · rw [Pipe.write, if_pos room] at parent_
          cases parent_
  | inside early sends =>
      cases child with
      | closing => exact absurd child_ (ends.childGoes (.inl rfl))
      | reading got => exact absurd child_ (ends.childGoes (.inr ⟨got, rfl⟩))
      | putting _ | exiting _ | ended | undefined => cases early
  | got sends some_ => exact absurd child_ (ends.childGoes (.inr ⟨_, rfl⟩))
  | copied sends =>
      simp only [State.goChild] at child_
      split at child_ <;> cases child_
  | lost undefined => exact .inr ⟨undefined, fun ended => ChildAt.noConfusion ended.2⟩
  | kept appends => cases child_
  | ended appends => exact .inl ⟨_, appends, rfl, rfl, rfl⟩

/-- A line that is there is sent and appended, whatever the array holds. -/
theorem appended_of_typed (memory : Memory) (some_ : typed stdin ≠ []) :
    appended memory stdin = some (typed stdin) := by
  have input : stdin ≠ [] := by
    rintro rfl
    exact some_ rfl
  have sends : sent memory stdin = some (typed stdin) := by
    rw [sent, fgets, if_neg input, fputs, if_pos (zero_mem_overwrite ..), cstr_overwrite, typed]
  have whole : piece pipeBuf (typed stdin) = typed stdin :=
    piece_of_initial (List.takeWhile_prefix _)
  rw [appended, sends, Option.bind_some, fgets, if_neg some_, fputs,
    if_pos (zero_mem_overwrite ..), cstr_overwrite, whole,
    cstr_eq_self (zero_not_mem_of_sent sends)]

/-- An array without a NUL. -/
def ones : Memory where
  bytes := List.replicate pipeBuf 1
  size := List.length_replicate

theorem fputs_ones : fputs ones.bytes = none := by
  apply if_neg
  intro zero
  exact absurd (List.eq_of_mem_replicate zero) (by decide)

/-- Without a line one of the processes reads past such an array. -/
theorem appended_ones (none_ : typed stdin = []) : appended ones stdin = none := by
  by_cases input : stdin = []
  · rw [appended, sent, fgets, if_pos input, fputs_ones]
    rfl
  · rw [appended, sent, fgets, if_neg input, fputs, if_pos (zero_mem_overwrite ..), cstr_overwrite,
      ← typed, none_, Option.bind_some, fgets, if_pos rfl, fputs_ones]

/-- **The line arrives.** In every run, whatever the array `puffer` holds, both processes end and
the file gets the line that has been typed, if and only if there is a line, and it does not begin
with a NUL. -/
theorem appends_iff (capacity : Capacity) (stdin file : List Byte) :
    Appends capacity stdin file ↔ typed stdin ≠ [] := by
  constructor
  · intro appends none_
    have started : (pipe2 capacity ones stdin file).Reachable (start capacity file) := .initial rfl
    obtain ⟨final, reached, stopped⟩ := (appends ones _ started).1.exists_final started
    have stuck : Stuck ones stdin final := fun party =>
      Option.eq_none_iff_forall_ne_some.mpr fun after => stopped party after
    obtain ⟨parent, child, -⟩ := (appends ones final reached).2 stuck
    have sound := (sound_invariant capacity ones stdin file).reachable reached
    rcases sound.outcome stuck with ⟨text, appends, -⟩ | ⟨-, running⟩
    · cases (appended_ones none_).symm.trans appends
    · exact running ⟨parent, child⟩
  · intro some_ memory state reached
    have sound := (sound_invariant capacity memory stdin file).reachable reached
    refine ⟨sound.terminates, fun stuck => ?_⟩
    rcases sound.outcome stuck with ⟨text, appends, parent, child, newfile⟩ | ⟨undefined, -⟩
    · cases (appended_of_typed memory some_).symm.trans appends
      exact ⟨parent, child, newfile⟩
    · cases (appended_of_typed memory some_).symm.trans undefined

end LinuxUnix.LinePipe

import LinuxUnix.Foundation.Pipe
import LinuxUnix.Foundation.TransitionSystem
import LinuxUnix.Ipc.FilterPipes

/-! # pipe1.c

The parent reads one block of a file and writes it to a pipe, and the child reads the pipe and
writes to its standard output. The parent has the pipe open for writing while it waits for the
child. If the `read` of the file has delivered something, both end, and the child has got all of
it. If it has delivered nothing, the child waits for ever, and so does the parent
(`LinuxUnix.BlockPipe.outcome_of_reachable`).

The calls of `open`, `pipe` and `fork` are taken to succeed.
-/

namespace LinuxUnix.BlockPipe

open FilterPipes TransitionSystem

inductive Party
  | parent
  | child
  deriving DecidableEq

/-- `EXIT_SUCCESS` and `EXIT_FAILURE`. -/
inductive Status
  | exitSuccess
  | exitFailure
  deriving DecidableEq

/-- Where the parent is. -/
inductive ParentAt
  /-- before `close(fd[0])` -/
  | closing
  /-- before `read(fd1, puffer, PIPE_BUF)` -/
  | reading
  /-- before `write(fd[1], puffer, n)` -/
  | writing (n : ℤ)
  /-- in `waitpid` -/
  | waiting
  | ended (status : Status)
  /-- ended by `SIGPIPE` -/
  | killed
  deriving DecidableEq

/-- Where the child is. -/
inductive ChildAt
  /-- before `close(fd[1])` -/
  | closing
  /-- before `read(fd[0], puffer, PIPE_BUF)` -/
  | reading
  /-- before `write(STDOUT_FILENO, puffer, n)` -/
  | writing (bytes : List Byte)
  | ended (status : Status)
  deriving DecidableEq

/-- How many bytes a pipe has room for: `PIPE_BUF` at least. -/
structure Capacity where
  size : ℕ
  atomic : pipeBuf ≤ size

/-- The processes, the pipe, what the parent has read, and what the child has written to its
standard output. -/
structure State where
  parent : ParentAt
  child : ChildAt
  pipe : Pipe Party Byte
  block : List Byte
  stdout : List Byte

inductive Action
  /-- a step of the parent other than the following one -/
  | parent
  /-- the `read` of the file returns this number -/
  | parentReads (n : ℤ)
  /-- a step of the child other than the following one -/
  | child
  /-- the `write` of the child returns this number -/
  | childWrites (n : ℤ)

/-- A step of the parent. A `write` of no bytes, or of `-1`, leaves the pipe alone and returns what
it has been given for a number. -/
def State.goParent (state : State) : Option State :=
  match state.parent with
  | .closing => some { state with parent := .reading, pipe := state.pipe.closeRead .parent }
  | .writing n =>
      if n ≤ 0 then some { state with parent := .waiting }
      else if state.pipe.readers = ∅ then
        some { state with parent := .killed, pipe := state.pipe.leave .parent }
      else (state.pipe.write (state.block.take n.toNat)).map fun pipe =>
        { state with parent := .waiting, pipe }
  | .waiting => match state.child with
    | .ended _ =>
        some { state with parent := .ended .exitSuccess, pipe := state.pipe.leave .parent }
    | _ => none
  | .reading | .ended _ | .killed => none

/-- A step of the child. -/
def State.goChild (state : State) : Option State :=
  match state.child with
  | .closing => some { state with child := .reading, pipe := state.pipe.closeWrite .child }
  | .reading => (state.pipe.read pipeBuf).map fun found =>
      { state with child := .writing found.1, pipe := found.2 }
  | .writing _ | .ended _ => none

/-- The effect of an action, with the bytes of the file. A `read` fails, or delivers some bytes;
at the end of the file it delivers none. -/
def next (file : List Byte) (state : State) : Action → Option State
  | .parent => state.goParent
  | .parentReads n =>
      if state.parent = .reading ∧
          (n = -1 ∨ 0 ≤ n ∧ n.toNat ≤ min pipeBuf file.length ∧ (n = 0 → file = [])) then
        some { state with parent := .writing n, block := file.take n.toNat }
      else none
  | .child => state.goChild
  | .childWrites n => match state.child with
    | .writing bytes =>
        if n = -1 ∨ 0 ≤ n ∧ n.toNat ≤ bytes.length then
          some { state with
            child := .ended (if n = bytes.length then .exitSuccess else .exitFailure)
            pipe := state.pipe.leave .child
            stdout := state.stdout ++ bytes.take n.toNat }
        else none
    | _ => none

/-- Both processes after `fork`. -/
def start (capacity : Capacity) : State where
  parent := .closing
  child := .closing
  pipe := ⟨[], capacity.size, {.parent, .child}, {.parent, .child}⟩
  block := []
  stdout := []

def pipe1 (capacity : Capacity) (file : List Byte) : TransitionSystem State Action :=
  .ofFunction (· = start capacity) (next file)

/-- No process can go on. -/
def Stuck (file : List Byte) (state : State) : Prop :=
  ∀ action, next file state action = none

/-- Both processes have ended; the child has written the block, or a part of it and has
reported that. -/
structure Copied (state : State) : Prop where
  parent : state.parent = .ended .exitSuccess
  child : state.child = .ended .exitSuccess ∧ state.stdout = state.block ∨
    state.child = .ended .exitFailure ∧ state.stdout <+: state.block ∧ state.stdout ≠ state.block

/-- The parent waits for the child, and the child waits for bytes that only the parent could
write. -/
structure Hangs (state : State) : Prop where
  parent : state.parent = .waiting
  child : state.child = .reading
  empty : state.pipe.inside = []
  writers : state.pipe.writers = {.parent}

/-- The parent has not ended. -/
def ParentAt.Runs : ParentAt → Prop
  | .closing | .reading | .writing _ | .waiting => True
  | .ended _ | .killed => False

/-- The child has not read yet. -/
def ChildAt.Early : ChildAt → Prop
  | .closing | .reading => True
  | .writing _ | .ended _ => False

/-- Who has the ends of the pipe open, as far as it matters. -/
structure Ends (capacity : Capacity) (state : State) : Prop where
  capacity : state.pipe.capacity = capacity.size
  reader : state.child.Early → .child ∈ state.pipe.readers
  writer : state.parent.Runs → .parent ∈ state.pipe.writers
  other : state.child ≠ .closing → .child ∉ state.pipe.writers

/-- How the child ends, given the block and what it has written. -/
def Finish (block stdout : List Byte) : Status → Prop
  | .exitSuccess => stdout = block
  | .exitFailure => stdout <+: block ∧ stdout ≠ block

/-- How far the block has come: the processes, the block, what is in the pipe, and the standard
output of the child. -/
inductive Flow : ParentAt → ChildAt → List Byte → List Byte → List Byte → Prop
  | closing {child : ChildAt} (early : child.Early) : Flow .closing child [] [] []
  | reading {child : ChildAt} (early : child.Early) : Flow .reading child [] [] []
  | writing {child : ChildAt} {n : ℤ} {block : List Byte} (early : child.Early)
      (size : block.length = n.toNat) (fits : block.length ≤ pipeBuf) :
      Flow (.writing n) child block [] []
  | nothing {child : ChildAt} (early : child.Early) : Flow .waiting child [] [] []
  | inside {child : ChildAt} {block : List Byte} (early : child.Early) (some_ : block ≠ [])
      (fits : block.length ≤ pipeBuf) : Flow .waiting child block block []
  | arrived {block : List Byte} (some_ : block ≠ []) : Flow .waiting (.writing block) block [] []
  | written {block stdout : List Byte} {status : Status} (some_ : block ≠ [])
      (finish : Finish block stdout status) : Flow .waiting (.ended status) block [] stdout
  | ended {block stdout : List Byte} {status : Status} (some_ : block ≠ [])
      (finish : Finish block stdout status) :
      Flow (.ended .exitSuccess) (.ended status) block [] stdout

/-- What holds in every run. -/
structure Sound (capacity : Capacity) (file : List Byte) (state : State) : Prop where
  ends : Ends capacity state
  flow : Flow state.parent state.child state.block state.pipe.inside state.stdout
  block : ∃ count ≤ pipeBuf, state.block = file.take count

variable {capacity : Capacity} {file : List Byte} {before after state : State}

theorem sound_start (capacity : Capacity) (file : List Byte) :
    Sound capacity file (start capacity) where
  ends := by
    refine ⟨rfl, fun _ => ?_, fun _ => ?_, fun other => absurd rfl other⟩
    · exact Finset.mem_insert_of_mem (Finset.mem_singleton_self _)
    · exact Finset.mem_insert_self ..
  flow := .closing trivial
  block := ⟨0, Nat.zero_le _, rfl⟩

/-- The ends that one process has open are no concern of the other one. -/
theorem mem_erase_parent {holders : Finset Party} :
    .child ∈ holders.erase .parent ↔ .child ∈ holders :=
  Finset.mem_erase.trans (and_iff_right Party.noConfusion)

theorem mem_erase_child {holders : Finset Party} :
    .parent ∈ holders.erase .child ↔ .parent ∈ holders :=
  Finset.mem_erase.trans (and_iff_right Party.noConfusion)

theorem Sound.parentStep (sound : Sound capacity file before)
    (moved : before.goParent = some after) : Sound capacity file after := by
  obtain ⟨parent, child, ⟨inside, size, readers, writers⟩, block, stdout⟩ := before
  obtain ⟨⟨roomy, reader, writer, other⟩, flow, taken⟩ := sound
  dsimp only at roomy reader writer other flow taken
  cases flow with
  | closing early =>
      cases moved
      exact ⟨⟨roomy, fun early => mem_erase_parent.mpr (reader early), writer, other⟩,
        .reading early, taken⟩
  | reading early => cases moved
  | @writing _ n _ early length fits =>
      simp only [State.goParent] at moved
      split at moved
      · rename_i none_
        cases moved
        have empty : block = [] := List.eq_nil_of_length_eq_zero (by omega)
        subst empty
        exact ⟨⟨roomy, reader, writer, other⟩, .nothing early, taken⟩
      · rename_i positive
        split at moved
        · rename_i nobody
          have alive := reader early
          rw [nobody] at alive
          exact absurd alive (Finset.notMem_empty _)
        · obtain ⟨pipe, wrote, rfl⟩ := Option.map_eq_some_iff.mp moved
          obtain ⟨-, rfl⟩ := Pipe.write_eq_some_iff.mp wrote
          have whole : block.take n.toNat = block := List.take_of_length_le (Nat.le_of_eq length)
          have some_ : block ≠ [] := List.ne_nil_of_length_pos (by omega)
          refine ⟨⟨roomy, reader, writer, other⟩, ?_, taken⟩
          rw [whole]
          exact .inside early some_ fits
  | nothing early =>
      cases child with
      | closing | reading => cases moved
      | writing _ | ended _ => cases early
  | inside early some_ fits =>
      cases child with
      | closing | reading => cases moved
      | writing _ | ended _ => cases early
  | arrived some_ => cases moved
  | written some_ finish =>
      cases moved
      refine ⟨⟨roomy, nofun, nofun, fun ended => ?_⟩, .ended some_ finish, taken⟩
      exact fun member => other ended (mem_erase_parent.mp member)
  | ended some_ finish => cases moved

theorem Sound.parentReads (sound : Sound capacity file before) {n : ℤ}
    (moved : next file before (.parentReads n) = some after) : Sound capacity file after := by
  simp only [next, Option.ite_none_right_eq_some, Option.some.injEq] at moved
  obtain ⟨⟨here, possible⟩, rfl⟩ := moved
  obtain ⟨parent, child, ⟨inside, size, readers, writers⟩, block, stdout⟩ := before
  obtain ⟨⟨roomy, reader, writer, other⟩, flow, taken⟩ := sound
  dsimp only at here
  subst here
  cases flow with
  | reading early =>
      have few : n.toNat ≤ pipeBuf ∧ n.toNat ≤ file.length := by omega
      have length : (file.take n.toNat).length = n.toNat := List.length_take_of_le few.2
      refine ⟨⟨roomy, reader, fun _ => writer trivial, other⟩, ?_, n.toNat, few.1, rfl⟩
      exact .writing early length (length.trans_le few.1)

theorem Sound.childStep (sound : Sound capacity file before)
    (moved : before.goChild = some after) : Sound capacity file after := by
  obtain ⟨parent, child, ⟨inside, size, readers, writers⟩, block, stdout⟩ := before
  obtain ⟨⟨roomy, reader, writer, other⟩, flow, taken⟩ := sound
  dsimp only at roomy reader writer other flow taken
  cases child with
  | closing =>
      cases moved
      refine ⟨⟨roomy, fun _ => reader trivial, fun runs => mem_erase_child.mpr (writer runs),
        fun _ => Finset.notMem_erase _ _⟩, ?_, taken⟩
      cases flow with
      | closing _ => exact .closing trivial
      | reading _ => exact .reading trivial
      | writing _ length fits => exact .writing trivial length fits
      | nothing _ => exact .nothing trivial
      | inside _ some_ fits => exact .inside trivial some_ fits
  | reading =>
      obtain ⟨⟨bytes, pipe⟩, reads, rfl⟩ := Option.map_eq_some_iff.mp moved
      have writable : parent.Runs → writers ≠ ∅ := fun runs =>
        Finset.nonempty_iff_ne_empty.mp ⟨_, writer runs⟩
      rcases Pipe.read_eq_some_iff.mp reads with ⟨nothing, nobody, rfl, rfl⟩ | ⟨there, rfl, rfl⟩
      · refine absurd nobody (writable ?_)
        cases flow <;> trivial
      · cases flow with
        | closing _ | reading _ | writing _ _ _ | nothing _ => exact absurd rfl there
        | inside _ some_ fits =>
            refine ⟨⟨roomy, nofun, writer, fun _ => other ChildAt.noConfusion⟩, ?_, taken⟩
            have whole : block.take pipeBuf = block := List.take_of_length_le fits
            have empty : block.drop pipeBuf = [] := List.drop_eq_nil_of_le fits
            dsimp only
            rw [whole, empty]
            exact .arrived some_
  | writing _ | ended _ => cases moved

/-- The child has written everything just if it ends well. -/
theorem finish_take {block : List Byte} {n : ℤ} (possible : n = -1 ∨ 0 ≤ n ∧ n.toNat ≤ block.length)
    (some_ : block ≠ []) : Finish block (block.take n.toNat)
      (if n = block.length then .exitSuccess else .exitFailure) := by
  have positive := List.length_pos_iff.mpr some_
  split
  · rename_i all
    rw [all]
    exact List.take_length
  · rename_i part
    refine ⟨List.take_prefix .., fun whole => ?_⟩
    have length := congrArg List.length whole
    rw [List.length_take] at length
    omega

theorem Sound.childWrites (sound : Sound capacity file before) {n : ℤ}
    (moved : next file before (.childWrites n) = some after) : Sound capacity file after := by
  obtain ⟨parent, child, ⟨inside, size, readers, writers⟩, block, stdout⟩ := before
  obtain ⟨⟨roomy, reader, writer, other⟩, flow, taken⟩ := sound
  dsimp only at roomy reader writer other flow taken
  cases child with
  | closing | reading | ended _ => cases moved
  | writing bytes =>
      simp only [next, Option.ite_none_right_eq_some, Option.some.injEq] at moved
      obtain ⟨possible, rfl⟩ := moved
      cases flow with
      | closing early | reading early | writing early | nothing early | inside early => cases early
      | arrived some_ =>
          refine ⟨⟨roomy, nofun, fun _ => mem_erase_child.mpr (writer trivial),
            fun _ => Finset.notMem_erase _ _⟩, ?_, taken⟩
          exact .written some_ (finish_take possible some_)

theorem sound_invariant (capacity : Capacity) (file : List Byte) :
    (pipe1 capacity file).Invariant (Sound capacity file) where
  initial := by
    rintro _ rfl
    exact sound_start capacity file
  step before action after sound moved := by
    cases action with
    | parent => exact sound.parentStep moved
    | parentReads n => exact sound.parentReads moved
    | child => exact sound.childStep moved
    | childWrites n => exact sound.childWrites moved

/-- The steps that a process still has to make. -/
def ParentAt.left : ParentAt → ℕ
  | .closing => 4
  | .reading => 3
  | .writing _ => 2
  | .waiting => 1
  | .ended _ | .killed => 0

def ChildAt.left : ChildAt → ℕ
  | .closing => 3
  | .reading => 2
  | .writing _ => 1
  | .ended _ => 0

/-- Every step brings one of the processes closer to its end. -/
theorem left_lt {action : Action} (moved : next file before action = some after) :
    after.parent.left + after.child.left < before.parent.left + before.child.left := by
  obtain ⟨parent, child, pipe, block, stdout⟩ := before
  cases action with
  | parent =>
      cases parent with
      | closing =>
          cases moved
          exact Nat.add_lt_add_right (Nat.lt_succ_self _) _
      | writing n =>
          simp only [next, State.goParent] at moved
          split at moved
          · cases moved
            exact Nat.add_lt_add_right (Nat.lt_succ_self _) _
          · split at moved
            · cases moved
              exact Nat.add_lt_add_right Nat.zero_lt_two _
            · obtain ⟨pipe, -, rfl⟩ := Option.map_eq_some_iff.mp moved
              exact Nat.add_lt_add_right (Nat.lt_succ_self _) _
      | waiting =>
          cases child with
          | ended status =>
              cases moved
              exact Nat.add_lt_add_right (Nat.lt_succ_self _) _
          | closing | reading | writing _ => cases moved
      | reading | ended _ | killed => cases moved
  | parentReads n =>
      simp only [next, Option.ite_none_right_eq_some, Option.some.injEq] at moved
      obtain ⟨⟨rfl, -⟩, rfl⟩ := moved
      exact Nat.add_lt_add_right (Nat.lt_succ_self _) _
  | child =>
      cases child with
      | closing =>
          cases moved
          exact Nat.add_lt_add_left (Nat.lt_succ_self _) _
      | reading =>
          obtain ⟨found, -, rfl⟩ := Option.map_eq_some_iff.mp moved
          exact Nat.add_lt_add_left (Nat.lt_succ_self _) _
      | writing _ | ended _ => cases moved
  | childWrites n =>
      cases child with
      | writing bytes =>
          simp only [next, Option.ite_none_right_eq_some, Option.some.injEq] at moved
          obtain ⟨-, rfl⟩ := moved
          exact Nat.add_lt_add_left Nat.zero_lt_one _
      | closing | reading | ended _ => cases moved

/-- A child that has not read yet can go on, unless the pipe is empty. -/
theorem Stuck.child (stuck : Stuck file state)
    (early : state.child.Early) : state.child = .reading ∧ state.pipe.inside = [] := by
  have still : state.goChild = none := stuck .child
  rw [State.goChild] at still
  cases child : state.child with
  | closing =>
      rw [child] at still
      cases still
  | reading =>
      rw [child] at still
      exact ⟨rfl, (Pipe.read_eq_none_iff.mp (Option.map_eq_none_iff.mp still)).1⟩
  | writing _ | ended _ =>
      rw [child] at early
      cases early

/-- A state in which no process can go on is one of two kinds. -/
theorem Sound.outcome (sound : Sound capacity file state) (stuck : Stuck file state) :
    state.block ≠ [] ∧ Copied state ∨ state.block = [] ∧ Hangs state := by
  have waits := stuck.child
  obtain ⟨parent, child, ⟨inside, size, readers, writers⟩, block, stdout⟩ := state
  obtain ⟨⟨roomy, reader, writer, other⟩, flow, taken⟩ := sound
  dsimp only at roomy reader writer other flow taken waits
  cases flow with
  | closing early => cases stuck .parent
  | reading early =>
      have reads := stuck (.parentReads (-1))
      rw [next, if_pos ⟨rfl, .inl rfl⟩] at reads
      cases reads
  | @writing _ n _ early length fits =>
      have writes := stuck .parent
      have enough : ([] : List Byte).length + (block.take n.toNat).length ≤ size := by
        rw [List.length_nil, List.length_take, roomy]
        exact Nat.le_trans (by omega) capacity.atomic
      simp only [next, State.goParent] at writes
      split at writes
      · cases writes
      · split at writes
        · cases writes
        · rw [Pipe.write, if_pos enough] at writes
          cases writes
  | nothing early =>
      obtain ⟨rfl, -⟩ := waits early
      refine .inr ⟨rfl, rfl, rfl, rfl, ?_⟩
      ext party
      rw [Finset.mem_singleton]
      cases party with
      | parent => exact iff_of_true (writer trivial) rfl
      | child => exact iff_of_false (other (by rintro ⟨⟩)) (by rintro ⟨⟩)
  | inside early some_ fits => exact absurd (waits early).2 some_
  | arrived some_ =>
      have writes := stuck (.childWrites (-1))
      simp only [next] at writes
      rw [if_pos (.inl trivial)] at writes
      cases writes
  | written some_ finish => cases stuck .parent
  | @ended _ _ status some_ finish =>
      refine .inl ⟨some_, rfl, ?_⟩
      cases status with
      | exitSuccess => exact .inl ⟨rfl, finish⟩
      | exitFailure => exact .inr ⟨rfl, finish⟩

/-- **One block comes through, or nothing does.** Every run comes to its end. If the parent has read
something, which is the beginning of the file, both processes end, and the child has written it, or
has reported a failure; and if it has read nothing, the two wait for each other. -/
theorem outcome_of_reachable (reached : (pipe1 capacity file).Reachable state) :
    (pipe1 capacity file).Terminates state ∧
      (∃ count ≤ pipeBuf, state.block = file.take count) ∧
      (Stuck file state →
        state.block ≠ [] ∧ Copied state ∨ state.block = [] ∧ Hangs state) := by
  have sound := (sound_invariant capacity file).reachable reached
  refine ⟨?_, sound.block, sound.outcome⟩
  exact (sound_invariant capacity file).terminates (fun state => state.parent.left + state.child.left)
    (fun _ _ _ _ moved => left_lt moved) sound

/-- A pipe with room for one block. -/
def oneBlock : Capacity := ⟨pipeBuf, Nat.le_refl _⟩

/-- The child is first; the file is empty. -/
def childFirst : List Action := [.child, .parent, .parentReads 0, .parent]

theorem hangs_of_childFirst : ∃ state, run (next []) (start oneBlock) childFirst = some state ∧
    Hangs state := by
  obtain ⟨state, executed⟩ :=
    Option.isSome_iff_exists.mp (show (run (next []) (start oneBlock) childFirst).isSome by decide)
  have reached : (pipe1 oneBlock []).Reachable state := .of_execution (.initial rfl) executed
  obtain ⟨-, ⟨count, -, block⟩, outcome⟩ := outcome_of_reachable reached
  have stuck : Stuck [] state := by
    cases executed
    intro action
    cases action <;> rfl
  rcases outcome stuck with ⟨some_, -⟩ | ⟨-, hangs⟩
  · exact absurd (block.trans List.take_nil) some_
  · exact ⟨state, executed, hangs⟩

end LinuxUnix.BlockPipe

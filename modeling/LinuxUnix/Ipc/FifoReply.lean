import LinuxUnix.Ipc.FifoEcho

/-! # fifo4.c

The child writes a text to the FIFO `fifo0001.4`, and the parent reads it when the child has ended.
Each `open` waits for the other one. The parent keeps the text in the FIFO by having it open, so
that it gets all of it in every run in which no `open` fails; if one fails, the other process waits
for ever (`LinuxUnix.FifoReply.reply_of_reachable`).

The calls of `mkfifo` and `fork` are taken to succeed.
-/

namespace LinuxUnix.FifoReply

open BlockPipe TransitionSystem

/-- The string in `puffer`. -/
def text : List Byte := "Dieser Text ist für die FIFO an den Elternprozess\n".toUTF8.toList

/-- Where the parent is. -/
inductive ParentAt
  /-- before `open(FIFO, O_RDONLY)` -/
  | starting
  /-- in `open` -/
  | opening
  /-- in `wait` -/
  | waiting
  /-- before `read` -/
  | reading
  /-- before the `printf` with the bytes that have been read -/
  | printing (bytes : List Byte)
  | ended (status : Status)
  deriving DecidableEq

/-- Where the child is. -/
inductive ChildAt
  /-- before `open(FIFO, O_WRONLY)` -/
  | starting
  /-- in `open` -/
  | opening
  /-- before `write` -/
  | writing
  /-- before `close` and `exit` -/
  | closing
  | ended (status : Status)
  deriving DecidableEq

/-- The processes, the FIFO, whether it has been opened for reading and for writing, and what the
parent has printed. -/
structure State where
  parent : ParentAt
  child : ChildAt
  fifo : Pipe Party Byte
  readerCame : Bool
  writerCame : Bool
  printed : List (List Byte)

inductive Action
  | step (party : Party)
  /-- `open` fails -/
  | fails (party : Party)

/-- A step of the parent. It has the FIFO open from the start of its `open`, which returns when a
writer has come. -/
def State.goParent (state : State) : Option State :=
  match state.parent with
  | .starting => some { state with
      parent := .opening, fifo := state.fifo.openRead .parent, readerCame := true }
  | .opening => if state.writerCame then some { state with parent := .waiting } else none
  | .waiting => match state.child with
    | .ended _ => some { state with parent := .reading }
    | _ => none
  | .reading => (state.fifo.read text.length).map fun found =>
      { state with parent := .printing found.1, fifo := found.2 }
  | .printing bytes => some { state with
      parent := .ended .exitSuccess
      fifo := state.fifo.closeRead .parent
      printed := state.printed ++ [bytes] }
  | .ended _ => none

/-- A step of the child. -/
def State.goChild (state : State) : Option State :=
  match state.child with
  | .starting => some { state with
      child := .opening, fifo := state.fifo.openWrite .child, writerCame := true }
  | .opening => if state.readerCame then some { state with child := .writing } else none
  | .writing => (state.fifo.write text).map fun fifo => { state with child := .closing, fifo }
  | .closing => some { state with
      child := .ended .exitSuccess, fifo := state.fifo.closeWrite .child }
  | .ended _ => none

/-- The effect of an action. -/
def next (state : State) : Action → Option State
  | .step .parent => state.goParent
  | .step .child => state.goChild
  | .fails .parent =>
      if state.parent = .starting then some { state with parent := .ended .exitFailure } else none
  | .fails .child =>
      if state.child = .starting then some { state with child := .ended .exitFailure } else none

/-- Both processes after `fork`. -/
def start (capacity : Capacity) : State where
  parent := .starting
  child := .starting
  fifo := ⟨[], capacity.size, ∅, ∅⟩
  readerCame := false
  writerCame := false
  printed := []

def fifo4 (capacity : Capacity) : TransitionSystem State Action :=
  .ofFunction (· = start capacity) next

/-- No process can go on. -/
def Stuck (state : State) : Prop := ∀ action, next state action = none

/-- The parent has printed the text, and both processes have ended. -/
structure Replied (state : State) : Prop where
  parent : state.parent = .ended .exitSuccess
  child : state.child = .ended .exitSuccess
  printed : state.printed = [text]

/-- The `open` of a process has failed, and the other one waits in its `open`, or has failed as
well. -/
structure Failed (state : State) : Prop where
  failed : state.parent = .ended .exitFailure ∨ state.child = .ended .exitFailure
  parent : state.parent = .opening ∨ state.parent = .ended .exitFailure
  child : state.child = .opening ∨ state.child = .ended .exitFailure

/-- How far the text has come: the processes, whether they have come to their `open`, what is in
the FIFO, and what has been printed. -/
inductive Flow : ParentAt → ChildAt → Bool → Bool → List Byte → List (List Byte) → Prop
  | apart : Flow .starting .starting false false [] []
  | reader : Flow .opening .starting true false [] []
  | writer : Flow .starting .opening false true [] []
  | noReader {child : ChildAt} {came : Bool} (waits : child = .starting ∧ came = false ∨
      child = .opening ∧ came = true ∨ child = .ended .exitFailure ∧ came = false) :
      Flow (.ended .exitFailure) child false came [] []
  | noWriter {parent : ParentAt} {came : Bool} (waits : parent = .starting ∧ came = false ∨
      parent = .opening ∧ came = true) :
      Flow parent (.ended .exitFailure) came false [] []
  | together {parent : ParentAt} {child : ChildAt} (here : parent = .opening ∨ parent = .waiting)
      (there : child = .opening ∨ child = .writing) : Flow parent child true true [] []
  | sent {parent : ParentAt} {child : ChildAt} (here : parent = .opening ∨ parent = .waiting)
      (there : child = .closing ∨ child = .ended .exitSuccess) : Flow parent child true true text []
  | joined : Flow .reading (.ended .exitSuccess) true true text []
  | got : Flow (.printing text) (.ended .exitSuccess) true true [] []
  | done : Flow (.ended .exitSuccess) (.ended .exitSuccess) true true [] [text]

/-- What holds in every run. -/
structure Sound (capacity : Capacity) (state : State) : Prop where
  capacity : state.fifo.capacity = capacity.size
  flow : Flow state.parent state.child state.readerCame state.writerCame state.fifo.inside
    state.printed

variable {capacity : Capacity} {before after state : State}

theorem text_ne_nil : text ≠ [] := by
  decide +kernel

theorem length_text_le : text.length ≤ FilterPipes.pipeBuf := by
  decide +kernel

theorem Sound.parentStep (sound : Sound capacity before) (moved : before.goParent = some after) :
    Sound capacity after := by
  obtain ⟨parent, child, ⟨inside, size, readers, writers⟩, reader, writer, printed⟩ := before
  obtain ⟨roomy, flow⟩ := sound
  dsimp only at roomy flow
  cases flow with
  | apart =>
      cases moved
      exact ⟨roomy, .reader⟩
  | reader => cases moved
  | writer =>
      cases moved
      exact ⟨roomy, .together (.inl rfl) (.inl rfl)⟩
  | noReader waits => cases moved
  | noWriter waits =>
      rcases waits with ⟨rfl, rfl⟩ | ⟨rfl, rfl⟩
      · cases moved
        exact ⟨roomy, .noWriter (.inr ⟨rfl, rfl⟩)⟩
      · cases moved
  | together here there =>
      rcases here with rfl | rfl
      · cases moved
        exact ⟨roomy, .together (.inr rfl) there⟩
      · rcases there with rfl | rfl <;> cases moved
  | sent here there =>
      rcases here with rfl | rfl
      · cases moved
        exact ⟨roomy, .sent (.inr rfl) there⟩
      · rcases there with rfl | rfl
        · cases moved
        · cases moved
          exact ⟨roomy, .joined⟩
  | joined =>
      obtain ⟨⟨bytes, fifo⟩, reads, rfl⟩ := Option.map_eq_some_iff.mp moved
      rw [Pipe.read_whole text_ne_nil (Nat.le_refl _)] at reads
      cases reads
      exact ⟨roomy, .got⟩
  | got =>
      cases moved
      exact ⟨roomy, .done⟩
  | done => cases moved

theorem Sound.childStep (sound : Sound capacity before) (moved : before.goChild = some after) :
    Sound capacity after := by
  obtain ⟨parent, child, ⟨inside, size, readers, writers⟩, reader, writer, printed⟩ := before
  obtain ⟨roomy, flow⟩ := sound
  dsimp only at roomy flow
  cases flow with
  | apart =>
      cases moved
      exact ⟨roomy, .writer⟩
  | reader =>
      cases moved
      exact ⟨roomy, .together (.inl rfl) (.inl rfl)⟩
  | writer => cases moved
  | noReader waits =>
      rcases waits with ⟨rfl, rfl⟩ | ⟨rfl, rfl⟩ | ⟨rfl, rfl⟩
      · cases moved
        exact ⟨roomy, .noReader (.inr (.inl ⟨rfl, rfl⟩))⟩
      · cases moved
      · cases moved
  | noWriter waits => cases moved
  | together here there =>
      rcases there with rfl | rfl
      · cases moved
        exact ⟨roomy, .together here (.inr rfl)⟩
      · obtain ⟨fifo, wrote, rfl⟩ := Option.map_eq_some_iff.mp moved
        obtain ⟨-, rfl⟩ := Pipe.write_eq_some_iff.mp wrote
        exact ⟨roomy, .sent here (.inl rfl)⟩
  | sent here there =>
      rcases there with rfl | rfl
      · cases moved
        exact ⟨roomy, .sent here (.inr rfl)⟩
      · cases moved
  | joined | got | done => cases moved

theorem Sound.fails (sound : Sound capacity before) {party : Party}
    (moved : next before (.fails party) = some after) : Sound capacity after := by
  obtain ⟨parent, child, ⟨inside, size, readers, writers⟩, reader, writer, printed⟩ := before
  obtain ⟨roomy, flow⟩ := sound
  dsimp only at roomy flow
  cases party with
  | parent =>
      simp only [next, Option.ite_none_right_eq_some, Option.some.injEq] at moved
      obtain ⟨rfl, rfl⟩ := moved
      cases flow with
      | apart => exact ⟨roomy, .noReader (.inl ⟨rfl, rfl⟩)⟩
      | writer => exact ⟨roomy, .noReader (.inr (.inl ⟨rfl, rfl⟩))⟩
      | noWriter waits =>
          rcases waits with ⟨_, rfl⟩ | ⟨here, _⟩
          · exact ⟨roomy, .noReader (.inr (.inr ⟨rfl, rfl⟩))⟩
          · cases here
      | together here _ | sent here _ => rcases here with here | here <;> cases here
  | child =>
      simp only [next, Option.ite_none_right_eq_some, Option.some.injEq] at moved
      obtain ⟨rfl, rfl⟩ := moved
      cases flow with
      | apart => exact ⟨roomy, .noWriter (.inl ⟨rfl, rfl⟩)⟩
      | reader => exact ⟨roomy, .noWriter (.inr ⟨rfl, rfl⟩)⟩
      | noReader waits =>
          rcases waits with ⟨_, rfl⟩ | ⟨there, _⟩ | ⟨there, _⟩
          · exact ⟨roomy, .noReader (.inr (.inr ⟨rfl, rfl⟩))⟩
          · cases there
          · cases there
      | together _ there | sent _ there => rcases there with there | there <;> cases there

theorem sound_invariant (capacity : Capacity) : (fifo4 capacity).Invariant (Sound capacity) where
  initial := by
    rintro _ rfl
    exact ⟨rfl, .apart⟩
  step before action after sound moved := by
    cases action with
    | step party =>
        cases party with
        | parent => exact sound.parentStep moved
        | child => exact sound.childStep moved
    | fails party => exact sound.fails moved

/-- The steps that a process still has to make. -/
def ParentAt.left : ParentAt → ℕ
  | .starting => 5
  | .opening => 4
  | .waiting => 3
  | .reading => 2
  | .printing _ => 1
  | .ended _ => 0

def ChildAt.left : ChildAt → ℕ
  | .starting => 4
  | .opening => 3
  | .writing => 2
  | .closing => 1
  | .ended _ => 0

/-- A step of the parent brings it closer to its end. -/
theorem parentLeft_lt (moved : before.goParent = some after) :
    after.parent.left < before.parent.left ∧ after.child = before.child := by
  rw [State.goParent] at moved
  split at moved
  · rename_i place
    cases moved
    exact ⟨by rw [place]; exact Nat.lt_succ_self _, rfl⟩
  · rename_i place
    obtain ⟨-, moved⟩ := Option.ite_none_right_eq_some.mp moved
    cases moved
    exact ⟨by rw [place]; exact Nat.lt_succ_self _, rfl⟩
  · rename_i place
    split at moved
    · cases moved
      exact ⟨by rw [place]; exact Nat.lt_succ_self _, rfl⟩
    · cases moved
  · rename_i place
    obtain ⟨found, -, rfl⟩ := Option.map_eq_some_iff.mp moved
    exact ⟨by rw [place]; exact Nat.lt_succ_self _, rfl⟩
  · rename_i bytes place
    cases moved
    exact ⟨by rw [place]; exact Nat.lt_succ_self _, rfl⟩
  · cases moved

theorem childLeft_lt (moved : before.goChild = some after) :
    after.child.left < before.child.left ∧ after.parent = before.parent := by
  rw [State.goChild] at moved
  split at moved
  · rename_i place
    cases moved
    exact ⟨by rw [place]; exact Nat.lt_succ_self _, rfl⟩
  · rename_i place
    obtain ⟨-, moved⟩ := Option.ite_none_right_eq_some.mp moved
    cases moved
    exact ⟨by rw [place]; exact Nat.lt_succ_self _, rfl⟩
  · rename_i place
    obtain ⟨fifo, -, rfl⟩ := Option.map_eq_some_iff.mp moved
    exact ⟨by rw [place]; exact Nat.lt_succ_self _, rfl⟩
  · rename_i place
    cases moved
    exact ⟨by rw [place]; exact Nat.lt_succ_self _, rfl⟩
  · cases moved

theorem left_lt {action : Action} (moved : next before action = some after) :
    after.parent.left + after.child.left < before.parent.left + before.child.left := by
  cases action with
  | step party =>
      cases party with
      | parent =>
          obtain ⟨lower, same⟩ := parentLeft_lt moved
          rw [same]
          exact Nat.add_lt_add_right lower _
      | child =>
          obtain ⟨lower, same⟩ := childLeft_lt moved
          rw [same]
          exact Nat.add_lt_add_left lower _
  | fails party =>
      cases party with
      | parent =>
          simp only [next, Option.ite_none_right_eq_some, Option.some.injEq] at moved
          obtain ⟨place, rfl⟩ := moved
          rw [place]
          exact Nat.add_lt_add_right (Nat.succ_pos _) _
      | child =>
          simp only [next, Option.ite_none_right_eq_some, Option.some.injEq] at moved
          obtain ⟨place, rfl⟩ := moved
          rw [place]
          exact Nat.add_lt_add_left (Nat.succ_pos _) _

/-- Where no process can go on, the text has been printed, or an `open` has failed. -/
theorem Sound.outcome (sound : Sound capacity state) (stuck : Stuck state) :
    Replied state ∨ Failed state := by
  have parent_ : state.goParent = none := stuck (.step .parent)
  have child_ : state.goChild = none := stuck (.step .child)
  obtain ⟨parent, child, ⟨inside, size, readers, writers⟩, reader, writer, printed⟩ := state
  obtain ⟨roomy, flow⟩ := sound
  dsimp only at roomy flow
  cases flow with
  | apart => cases parent_
  | reader => cases child_
  | writer => cases parent_
  | noReader waits =>
      rcases waits with ⟨rfl, rfl⟩ | ⟨rfl, rfl⟩ | ⟨rfl, rfl⟩
      · cases child_
      · exact .inr ⟨.inl rfl, .inr rfl, .inl rfl⟩
      · exact .inr ⟨.inl rfl, .inr rfl, .inr rfl⟩
  | noWriter waits =>
      rcases waits with ⟨rfl, rfl⟩ | ⟨rfl, rfl⟩
      · cases parent_
      · exact .inr ⟨.inr rfl, .inl rfl, .inr rfl⟩
  | together here there =>
      rcases there with rfl | rfl
      · cases child_
      · have room : ([] : List Byte).length + text.length ≤ size := by
          rw [roomy, List.length_nil, Nat.zero_add]
          exact Nat.le_trans length_text_le capacity.atomic
        simp only [State.goChild] at child_
        rw [Pipe.write, if_pos room] at child_
        cases child_
  | sent here there =>
      rcases here with rfl | rfl
      · cases parent_
      · rcases there with rfl | rfl
        · cases child_
        · cases parent_
  | joined =>
      simp only [State.goParent] at parent_
      rw [Pipe.read_whole text_ne_nil (Nat.le_refl _)] at parent_
      cases parent_
  | got => cases parent_
  | done => exact .inl ⟨rfl, rfl, rfl⟩

/-- **The text is there when the child is gone.** Every run comes to its end: the parent has printed
the whole text and both processes have ended, or an `open` has failed. -/
theorem reply_of_reachable (reached : (fifo4 capacity).Reachable state) :
    (fifo4 capacity).Terminates state ∧ (Stuck state → Replied state ∨ Failed state) := by
  have sound := (sound_invariant capacity).reachable reached
  refine ⟨?_, sound.outcome⟩
  exact (sound_invariant capacity).terminates
    (fun state => state.parent.left + state.child.left) (fun _ _ _ _ moved => left_lt moved) sound

/-- The child has ended before the `open` of the parent returns. -/
def childFirst : List Action :=
  [.step .child, .step .parent, .step .child, .step .child, .step .child, .step .parent,
    .step .parent, .step .parent, .step .parent]

theorem reply_of_childFirst : ∃ state, run next (start oneBlock) childFirst = some state ∧
    Replied state := by
  obtain ⟨state, executed⟩ := Option.isSome_iff_exists.mp
    (show (run next (start oneBlock) childFirst).isSome by decide +kernel)
  have finished : ((run next (start oneBlock) childFirst).map fun state =>
      decide (state.parent = .ended .exitSuccess ∧ state.child = .ended .exitSuccess)) =
        some true := by
    decide +kernel
  rw [executed, Option.map_some, Option.some.injEq, decide_eq_true_eq] at finished
  obtain ⟨parent, child⟩ := finished
  have reached : (fifo4 oneBlock).Reachable state := .of_execution (.initial rfl) executed
  have stuck : Stuck state := by
    rintro (_ | _)
    all_goals rename_i party; cases party
    · simp only [next, State.goParent, parent]
    · simp only [next, State.goChild, child]
    · simp only [next, parent, reduceCtorEq, if_false]
    · simp only [next, child, reduceCtorEq, if_false]
  rcases (reply_of_reachable reached).2 stuck with replied | failed
  · exact ⟨state, executed, replied⟩
  · rcases failed.failed with failed | failed
    · cases parent.symm.trans failed
    · cases child.symm.trans failed

end LinuxUnix.FifoReply

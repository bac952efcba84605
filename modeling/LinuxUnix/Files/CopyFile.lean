import LinuxUnix.Foundation.CMemory
import LinuxUnix.Foundation.TransitionSystem

/-! # cpy_file.c

`main` copies a file in blocks. `write2` repeats `write` until a block is out and returns `-1`
when a call fails, and `main` tests whether it has returned more than zero: no failed write is
ever reported. A failed `read` ends the loop like the end of the file. A copy without a message
is complete in exactly those runs in which no `write` fails and no `read` fails before the end
of the file (`LinuxUnix.CopyFile.honest_iff_faultless`).

The number of arguments and `umask` are left out.
-/

namespace LinuxUnix.CopyFile

open TransitionSystem

/-- `BLOCK_SIZE` -/
def blockSize : ℕ := 64

/-- `EXIT_SUCCESS` and `EXIT_FAILURE`. -/
inductive Status
  | exitSuccess
  | exitFailure
  deriving DecidableEq

/-- Where the program stands. -/
inductive At
  /-- before the calls of `open` -/
  | opening
  /-- before `read` in the condition of the loop -/
  | reading
  /-- before `write` in `write2`, with the bytes that are still to be written -/
  | writing (buffer : List Byte)
  | returned (status : Status)
  deriving DecidableEq

/-- Where the program stands, the bytes of the source behind its offset, those of the
destination, and what `perror` has printed. -/
structure State where
  place : At
  source : List Byte
  destination : List Byte
  stderr : List String
  deriving DecidableEq

/-- The source holds some bytes; the destination does not exist. -/
def start (bytes : List Byte) : State where
  place := .opening
  source := bytes
  destination := []
  stderr := []

/-- How the calls turn out: both `open` calls together, and one `read` or `write` that moves
so many bytes or fails. -/
inductive Reply
  | opened (source destination : Bool)
  | moved (count : ℕ)
  | failed
  deriving DecidableEq

/-- `main` after `open`. -/
def afterOpen (state : State) (source destination : Bool) : State :=
  if source && destination then { state with place := .reading }
  else { state with
    place := .returned .exitFailure, stderr := state.stderr ++ ["Fehler bei open()"] }

/-- `main` after `write2` has returned. -/
def afterWrite2 (state : State) (result : ℤ) : State :=
  if 0 < result then
    { state with place := .reading, stderr := state.stderr ++ ["Fehler bei write()"] }
  else { state with place := .reading }

/-- `main` after `read`: with no bytes the loop ends. -/
def afterRead (state : State) (count : ℕ) : State :=
  if count = 0 then { state with place := .returned .exitSuccess }
  else { state with
    place := .writing (state.source.take count), source := state.source.drop count }

/-- `write2` after `write` has moved so many bytes of the buffer. -/
def afterWrite (state : State) (buffer : List Byte) (count : ℕ) : State :=
  if buffer.drop count = [] then
    afterWrite2 { state with destination := state.destination ++ buffer.take count } 0
  else { state with
    place := .writing (buffer.drop count), destination := state.destination ++ buffer.take count }

/-- One call, and what follows up to the next one. `read` returns zero at the end of the file
only. -/
def next (state : State) (reply : Reply) : Option State :=
  match state.place, reply with
  | .opening, .opened source destination => some (afterOpen state source destination)
  | .reading, .moved count =>
      if count ≤ blockSize ∧ count ≤ state.source.length ∧ (count = 0 → state.source = []) then
        some (afterRead state count)
      else none
  | .reading, .failed => some { state with place := .returned .exitSuccess }
  | .writing buffer, .moved count =>
      if count ≤ buffer.length then some (afterWrite state buffer count) else none
  | .writing _, .failed => some (afterWrite2 state (-1))
  | _, _ => none

/-- The reply is no fault: no `write` fails, and a `read` fails at the end of the file at
most. -/
def Faultless (state : State) (reply : Reply) : Prop :=
  reply = .failed → state.place = .reading ∧ state.source = []

instance (state : State) (reply : Reply) : Decidable (Faultless state reply) :=
  inferInstanceAs (Decidable (_ → _))

/-- If the program has returned `EXIT_SUCCESS` without a message, the destination holds
exactly the bytes of the source. -/
def Honest (bytes : List Byte) (state : State) : Prop :=
  state.place = .returned .exitSuccess → state.stderr = [] → state.destination = bytes

/-- What a step can do. -/
inductive Moves (state : State) : Reply → State → Prop
  | refused (here : state.place = .opening) {source destination : Bool} :
      Moves state (.opened source destination) { state with
        place := .returned .exitFailure, stderr := state.stderr ++ ["Fehler bei open()"] }
  | opened (here : state.place = .opening) :
      Moves state (.opened true true) { state with place := .reading }
  | read (here : state.place = .reading) {count : ℕ} (positive : count ≠ 0)
      (inside : count ≤ state.source.length) :
      Moves state (.moved count) { state with
        place := .writing (state.source.take count), source := state.source.drop count }
  | ended (here : state.place = .reading) (finished : state.source = []) :
      Moves state (.moved 0) { state with place := .returned .exitSuccess }
  | readFailed (here : state.place = .reading) :
      Moves state .failed { state with place := .returned .exitSuccess }
  | wrote {buffer : List Byte} (here : state.place = .writing buffer) {count : ℕ}
      (more : buffer.drop count ≠ []) :
      Moves state (.moved count) { state with
        place := .writing (buffer.drop count),
        destination := state.destination ++ buffer.take count }
  | wroteAll {buffer : List Byte} (here : state.place = .writing buffer) {count : ℕ} :
      Moves state (.moved count) { state with
        place := .reading, destination := state.destination ++ buffer }
  | writeFailed {buffer : List Byte} (here : state.place = .writing buffer) :
      Moves state .failed { state with place := .reading }

variable {bytes : List Byte} {before after : State} {reply : Reply}

/-- A `write` that has not failed empties the buffer, or the loop in `write2` goes on. -/
theorem moves_of_write {buffer : List Byte} (here : before.place = .writing buffer) (count : ℕ) :
    Moves before (.moved count) (afterWrite before buffer count) := by
  rw [afterWrite]
  split
  · rename_i empty
    have whole : buffer.take count = buffer :=
      List.take_of_length_le (List.drop_eq_nil_iff.mp empty)
    rw [whole]
    exact .wroteAll here
  · rename_i more
    exact .wrote here more

theorem moves_of_next (moved : next before reply = some after) : Moves before reply after := by
  unfold next at moved
  split at moved
  · rename_i source destination here
    cases moved
    rw [afterOpen]
    split
    · rename_i both
      obtain ⟨rfl, rfl⟩ := Bool.and_eq_true_iff.mp both
      exact .opened here
    · exact .refused here
  · rename_i count here
    split at moved
    · rename_i possible
      cases moved
      rw [afterRead]
      split
      · rename_i zero
        subst zero
        exact .ended here (possible.2.2 rfl)
      · rename_i positive
        exact .read here positive possible.2.1
    · cases moved
  · rename_i here
    cases moved
    exact .readFailed here
  · rename_i buffer count here
    split at moved
    · cases moved
      exact moves_of_write here count
    · cases moved
  · rename_i buffer here
    cases moved
    exact .writeFailed here
  · cases moved

/-- The bytes that are still to come into the destination. -/
def State.coming (state : State) : List Byte :=
  match state.place with
  | .opening | .reading => state.source
  | .writing buffer => buffer ++ state.source
  | .returned _ => []

/-- The bytes that the destination is to hold in the end. -/
def State.total (state : State) : List Byte := state.destination ++ state.coming

/-- `open` has failed, or nothing is lost and nothing has been printed; `write2` always has
something to write. -/
structure Intact (bytes : List Byte) (state : State) : Prop where
  accounted : state.place = .returned .exitFailure ∨ state.stderr = [] ∧ state.total = bytes
  filled : state.place ≠ .writing []

/-- Bytes are lost, and nothing has been printed. -/
structure Short (bytes : List Byte) (state : State) : Prop where
  goes : state.place ≠ .opening ∧ state.place ≠ .returned .exitFailure
  silent : state.stderr = []
  short : state.total.length < bytes.length

theorem success_ne_failure : At.returned .exitSuccess ≠ .returned .exitFailure := by decide

theorem intact_start (bytes : List Byte) : Intact bytes (start bytes) :=
  ⟨.inr ⟨rfl, rfl⟩, At.noConfusion⟩

/-- A `read` moves bytes from the source to the buffer. -/
theorem total_read (here : before.place = .reading) (count : ℕ) :
    { before with
      place := .writing (before.source.take count), source := before.source.drop count }.total =
      before.total := by
  simp only [State.total, State.coming, here, List.take_append_drop]

/-- A `write` moves bytes from the buffer to the destination. -/
theorem total_wrote {buffer : List Byte} (here : before.place = .writing buffer) (count : ℕ) :
    { before with
      place := .writing (buffer.drop count),
      destination := before.destination ++ buffer.take count }.total = before.total := by
  simp only [State.total, State.coming, here, List.append_assoc]
  rw [← List.append_assoc (buffer.take count), List.take_append_drop]

theorem total_wroteAll {buffer : List Byte} (here : before.place = .writing buffer) :
    { before with place := .reading, destination := before.destination ++ buffer }.total =
      before.total := by
  simp only [State.total, State.coming, here, List.append_assoc]

/-- At the end what has not been read is lost. -/
theorem length_total_returned (here : before.place = .reading) (status : Status) :
    { before with place := .returned status }.total.length + before.source.length =
      before.total.length := by
  simp only [State.total, State.coming, here, List.append_nil, List.length_append]

/-- With a failed `write` the buffer is lost. -/
theorem length_total_failed {buffer : List Byte} (here : before.place = .writing buffer) :
    { before with place := .reading }.total.length + buffer.length = before.total.length := by
  simp only [State.total, State.coming, here, List.length_append]
  omega

theorem Intact.total_eq (intact : Intact bytes before)
    (goes : before.place ≠ .returned .exitFailure) :
    before.stderr = [] ∧ before.total = bytes :=
  intact.accounted.resolve_left goes

/-- A step without a fault loses nothing. -/
theorem Intact.moves (intact : Intact bytes before) (faultless : Faultless before reply)
    (moved : Moves before reply after) : Intact bytes after := by
  cases moved with
  | refused here => exact ⟨.inl rfl, At.noConfusion⟩
  | opened here =>
      obtain ⟨silent, rfl⟩ := intact.total_eq (by rw [here]; exact At.noConfusion)
      refine ⟨.inr ⟨silent, ?_⟩, At.noConfusion⟩
      simp only [State.total, State.coming, here]
  | read here positive inside =>
      obtain ⟨silent, rfl⟩ := intact.total_eq (by rw [here]; exact At.noConfusion)
      refine ⟨.inr ⟨silent, total_read here _⟩, fun empty => ?_⟩
      have none_ := List.length_eq_zero_iff.mpr (At.writing.inj empty)
      rw [List.length_take_of_le inside] at none_
      exact positive none_
  | ended here finished =>
      obtain ⟨silent, rfl⟩ := intact.total_eq (by rw [here]; exact At.noConfusion)
      refine ⟨.inr ⟨silent, ?_⟩, At.noConfusion⟩
      simp only [State.total, State.coming, here, finished]
  | readFailed here =>
      obtain ⟨silent, rfl⟩ := intact.total_eq (by rw [here]; exact At.noConfusion)
      refine ⟨.inr ⟨silent, ?_⟩, At.noConfusion⟩
      simp only [State.total, State.coming, here, (faultless rfl).2]
  | wrote here more =>
      obtain ⟨silent, rfl⟩ := intact.total_eq (by rw [here]; exact At.noConfusion)
      exact ⟨.inr ⟨silent, total_wrote here _⟩, fun empty => more (At.writing.inj empty)⟩
  | wroteAll here =>
      obtain ⟨silent, rfl⟩ := intact.total_eq (by rw [here]; exact At.noConfusion)
      exact ⟨.inr ⟨silent, total_wroteAll here⟩, At.noConfusion⟩
  | writeFailed here =>
      have at_ := (faultless rfl).1
      rw [here] at at_
      cases at_

/-- A fault loses bytes. -/
theorem Intact.short_of_fault (intact : Intact bytes before) (fault : ¬ Faultless before reply)
    (moved : Moves before reply after) : Short bytes after := by
  cases moved with
  | refused | opened | read | ended | wrote | wroteAll =>
      exact absurd (fun failed => by cases failed) fault
  | readFailed here =>
      obtain ⟨silent, rfl⟩ := intact.total_eq (by rw [here]; exact At.noConfusion)
      have left : before.source ≠ [] := fun finished => fault fun _ => ⟨here, finished⟩
      have lost := length_total_returned here .exitSuccess
      have some_ := List.length_pos_iff.mpr left
      exact ⟨⟨At.noConfusion, success_ne_failure⟩, silent, by omega⟩
  | @writeFailed buffer here =>
      obtain ⟨silent, rfl⟩ := intact.total_eq (by rw [here]; exact At.noConfusion)
      have left : buffer ≠ [] := fun empty => intact.filled (by rw [here, empty])
      have lost := length_total_failed here
      have some_ := List.length_pos_iff.mpr left
      exact ⟨⟨At.noConfusion, At.noConfusion⟩, silent, by omega⟩

/-- What is lost stays lost, and nothing is said about it. -/
theorem Short.moves (short : Short bytes before) (moved : Moves before reply after) :
    Short bytes after := by
  have lost := short.short
  cases moved with
  | refused here => exact absurd here short.goes.1
  | opened here => exact absurd here short.goes.1
  | read here positive inside =>
      rw [← total_read here] at lost
      exact ⟨⟨At.noConfusion, At.noConfusion⟩, short.silent, lost⟩
  | ended here | readFailed here =>
      have less := length_total_returned here .exitSuccess
      exact ⟨⟨At.noConfusion, success_ne_failure⟩, short.silent, by omega⟩
  | wrote here more =>
      rw [← total_wrote here] at lost
      exact ⟨⟨At.noConfusion, At.noConfusion⟩, short.silent, lost⟩
  | wroteAll here =>
      rw [← total_wroteAll here] at lost
      exact ⟨⟨At.noConfusion, At.noConfusion⟩, short.silent, lost⟩
  | writeFailed here =>
      have less := length_total_failed here
      exact ⟨⟨At.noConfusion, At.noConfusion⟩, short.silent, by omega⟩

/-- Once the program has returned, nothing more comes into the destination. -/
theorem total_of_returned {status : Status} (ended : after.place = .returned status) :
    after.total = after.destination := by
  simp only [State.total, State.coming, ended, List.append_nil]

theorem Intact.honest (intact : Intact bytes after) {status : Status}
    (ended : after.place = .returned status) : Honest bytes after := by
  intro success silent
  rw [← total_of_returned ended]
  exact (intact.total_eq (success ▸ success_ne_failure)).2

theorem Short.not_honest (short : Short bytes after)
    (ended : after.place = .returned .exitSuccess) : ¬ Honest bytes after := by
  intro honest
  have lost := short.short
  rw [total_of_returned ended, honest ended short.silent] at lost
  exact Nat.lt_irrefl _ lost

/-- A run that has returned keeps the promise if and only if all its replies were faultless. -/
theorem honest_iff_faultless {replies : List Reply} {status : Status}
    (executed : run next (start bytes) replies = some after)
    (ended : after.place = .returned status) :
    Honest bytes after ↔ Along Faultless next (start bytes) replies := by
  rcases run_decides (fun _ _ _ intact met moved => intact.moves met (moves_of_next moved))
    (fun _ _ _ intact fault moved => intact.short_of_fault fault (moves_of_next moved))
    (fun _ _ _ short moved => short.moves (moves_of_next moved)) (intact_start bytes) executed with
    ⟨along, intact⟩ | ⟨strayed, short⟩
  · exact iff_of_true (intact.honest ended) along
  · refine iff_of_false ?_ strayed
    cases status with
    | exitSuccess => exact short.not_honest ended
    | exitFailure => exact absurd ended short.goes.2

/-- Two bytes copied in two pieces, each of them written in one. -/
theorem honest_of_shortReads :
    Honest [104, 105] ⟨.returned .exitSuccess, [], [104, 105], []⟩ := by
  refine (@honest_iff_faultless [104, 105] _ [.opened true true, .moved 1, .moved 1, .moved 1,
    .moved 1, .moved 0] .exitSuccess rfl rfl).mpr ?_
  simp only [Along, Faultless, reduceCtorEq, false_implies, true_and, implies_true]

/-- A disk is full: the only byte is lost without a word. -/
theorem not_honest_of_fullDisk : ¬ ∀ bytes replies after,
    run next (start bytes) replies = some after → Honest bytes after := by
  intro claim
  have empty := claim [104] [.opened true true, .moved 1, .failed, .moved 0] _ rfl rfl rfl
  exact List.cons_ne_nil _ _ empty.symm

end LinuxUnix.CopyFile

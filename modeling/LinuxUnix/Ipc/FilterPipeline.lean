import LinuxUnix.Foundation.Pipe
import LinuxUnix.Foundation.TransitionSystem
import LinuxUnix.Ipc.BlockPipe
import LinuxUnix.Ipc.WordFilter

/-! # popen1.c and filter.c together

popen1.c copies a file to a pipe, from which filter.c reads. Both keep bytes back in the buffers of
their streams, and each `write` and `read` may take as many as it likes. Whatever they take, the
filter prints what it would print for the whole file at once, and both programs end
(`LinuxUnix.FilterPipeline.filtered_of_reachable`).

The calls of `fopen` and `popen` are taken to succeed, and the writes too.
-/

namespace LinuxUnix.FilterPipeline

open BlockPipe CMemory TransitionSystem

inductive Program
  | popen1
  | filter
  deriving DecidableEq

/-- Where popen1.c is. -/
inductive WriterAt
  /-- in the loop with `fgets` and `fputs` -/
  | copying
  /-- in `pclose`, before the end of the pipe is closed -/
  | closing
  /-- in `pclose`, before the filter has ended -/
  | waiting
  | ended (status : Status)
  deriving DecidableEq

/-- Where filter.c is. -/
inductive FilterAt
  | filtering
  /-- a `read` has found the end of the input -/
  | drained
  | ended (status : Status)
  deriving DecidableEq

/-- The programs, with what is left of the file, the bytes in the buffer of `pipe_writer`, those in
the pipe and in the buffer of `stdin`, and what the filter has printed. -/
structure State where
  writer : WriterAt
  unread : List Byte
  pending : List Byte
  pipe : Pipe Program Byte
  filter : FilterAt
  input : List Byte
  printed : List Byte

inductive Action
  /-- a step of popen1.c without a `write` -/
  | popen1
  /-- so many bytes of the buffer of `pipe_writer` are written -/
  | writes (count : ℕ)
  /-- a step of filter.c without a `read` -/
  | filter
  /-- a `read` of so many bytes -/
  | reads (count : ℕ)

/-- What `fgets` and `fputs` make of the next piece of a file. -/
def fputs (unread : List Byte) : List Byte :=
  cstr (LineInput.piece FilterPipes.max unread ++ [0])

/-- A step of popen1.c without a `write`. -/
def State.goWriter (state : State) : Option State :=
  match state.writer with
  | .copying =>
      if state.unread = [] then some { state with writer := .closing }
      else some { state with
        unread := state.unread.drop (LineInput.piece FilterPipes.max state.unread).length
        pending := state.pending ++ fputs state.unread }
  | .closing =>
      if state.pending = [] then some { state with
        writer := .waiting
        pipe := state.pipe.closeWrite .popen1 }
      else none
  | .waiting => match state.filter with
    | .ended _ => some { state with writer := .ended .exitSuccess }
    | _ => none
  | .ended _ => none

/-- `fgets` has a whole piece in the buffer of `stdin`: a line, as much as fits, or the last one. -/
def State.Complete (state : State) : Prop :=
  10 ∈ LineInput.piece WordFilter.max state.input ∨
    (LineInput.piece WordFilter.max state.input).length = WordFilter.max - 1 ∨
      state.filter = .drained ∧ state.input ≠ []

instance (state : State) : Decidable state.Complete :=
  inferInstanceAs (Decidable (_ ∨ _ ∨ _ ∧ _))

/-- The loop of filter.c, with a piece, and without one at the end of the input. -/
def State.filterPiece (state : State) : State :=
  { state with
    input := state.input.drop (LineInput.piece WordFilter.max state.input).length
    printed := state.printed ++
      WordFilter.output (LineInput.piece WordFilter.max state.input ++ [0]) }

def State.endFilter (state : State) : State :=
  { state with
    filter := .ended .exitSuccess
    pipe := state.pipe.leave .filter }

/-- A step of filter.c without a `read`. -/
def State.goFilter (state : State) : Option State :=
  match state.filter with
  | .filtering => if state.Complete then some state.filterPiece else none
  | .drained => some (if state.Complete then state.filterPiece else state.endFilter)
  | .ended _ => none

/-- The effect of an action; a `read` waits for bytes, or for the end. -/
def next (state : State) : Action → Option State
  | .popen1 => state.goWriter
  | .writes count =>
      if 1 ≤ count ∧ count ≤ state.pending.length then
        (state.pipe.write (state.pending.take count)).map fun pipe =>
          { state with pipe, pending := state.pending.drop count }
      else none
  | .filter => state.goFilter
  | .reads count =>
      if state.filter = .filtering ∧ ¬ state.Complete ∧ 1 ≤ count then
        (state.pipe.read count).map fun found => { state with
          pipe := found.2
          filter := if found.1 = [] then .drained else .filtering
          input := state.input ++ found.1 }
      else none

/-- Both programs, with a pipe that has room for a byte at least. -/
def start (capacity : Capacity) (file : List Byte) : State where
  writer := .copying
  unread := file
  pending := []
  pipe := ⟨[], capacity.size, {.filter}, {.popen1}⟩
  filter := .filtering
  input := []
  printed := []

def pipeline (capacity : Capacity) (file : List Byte) : TransitionSystem State Action :=
  .ofFunction (· = start capacity file) next

/-- What popen1.c makes of a file: pieces with a NUL are cut. -/
def fed (file : List Byte) : List Byte :=
  (LineInput.pieces FilterPipes.max file).flatMap fun piece => cstr (piece ++ [0])

/-- What is promised for a state. -/
structure Filtered (capacity : Capacity) (file : List Byte) (state : State) : Prop where
  /-- when the filter has ended, it has printed what it prints for the whole file -/
  whole : ∀ status, state.filter = .ended status → state.printed = WordFilter.main (fed file)
  /-- if the file has no NUL, none of it has been cut -/
  clean : 0 ∉ file → fed file = file
  /-- before it has printed the beginning of that -/
  part : state.printed <+: WordFilter.main (fed file)
  /-- one of the programs can go on, or both have ended well -/
  goesOn : (∃ action after, next state action = some after) ∨
    state.writer = .ended .exitSuccess ∧ state.filter = .ended .exitSuccess
  ends : (pipeline capacity file).Terminates state

/-- Where the programs are, and what is left on the way. -/
inductive Flow : WriterAt → List Byte → List Byte → Pipe Program Byte → FilterAt → List Byte → Prop
  | copying {unread pending : List Byte} {pipe : Pipe Program Byte} (input : List Byte)
      (writers : pipe.writers = {.popen1}) :
      Flow .copying unread pending pipe .filtering input
  | closing {pending : List Byte} {pipe : Pipe Program Byte} (input : List Byte)
      (writers : pipe.writers = {.popen1}) : Flow .closing [] pending pipe .filtering input
  | waiting {pipe : Pipe Program Byte} (input : List Byte) (writers : pipe.writers = ∅) :
      Flow .waiting [] [] pipe .filtering input
  | drained {pipe : Pipe Program Byte} (input : List Byte) (empty : pipe.inside = [])
      (writers : pipe.writers = ∅) : Flow .waiting [] [] pipe .drained input
  | left {pipe : Pipe Program Byte} (empty : pipe.inside = []) :
      Flow .waiting [] [] pipe (.ended .exitSuccess) []
  | ended {pipe : Pipe Program Byte} (empty : pipe.inside = []) :
      Flow (.ended .exitSuccess) [] [] pipe (.ended .exitSuccess) []

/-- What is on the way to the filter. -/
def State.coming (state : State) : List Byte :=
  state.input ++ (state.pipe.inside ++ (state.pending ++ fed state.unread))

/-- What holds in every run. -/
structure Sound (capacity : Capacity) (file : List Byte) (state : State) : Prop where
  flow : Flow state.writer state.unread state.pending state.pipe state.filter state.input
  capacity : state.pipe.capacity = capacity.size
  whole : state.printed ++ WordFilter.main state.coming = WordFilter.main (fed file)

variable {capacity : Capacity} {file : List Byte} {before after state : State}

theorem fed_nil : fed [] = [] := by
  rw [fed, LineInput.pieces_nil]
  rfl

theorem fed_eq {unread : List Byte} (nonempty : unread ≠ []) : fed unread = fputs unread ++
    fed (unread.drop (LineInput.piece FilterPipes.max unread).length) := by
  rw [fed, LineInput.pieces_of_ne_nil (by decide) nonempty, List.flatMap_cons]
  rfl

/-- A file without NUL is copied as it is. -/
theorem fed_of_clean (clean : 0 ∉ file) : fed file = file := by
  have whole : (LineInput.pieces FilterPipes.max file).flatten = file :=
    LineInput.flatten_pieces (by decide) file
  have same : fed file = (LineInput.pieces FilterPipes.max file).flatMap id := by
    refine List.flatMap_congr fun piece member => ?_
    have part : 0 ∉ piece := fun zero =>
      clean (whole ▸ List.mem_flatten_of_mem member zero)
    rw [cstr_append_zero, cstr_eq_self part]
    rfl
  rw [same, List.flatMap_id, whole]

/-- The filter takes what comes piece by piece. -/
theorem main_append {input rest : List Byte} (nonempty : input ++ rest ≠ [])
    (done : 10 ∈ LineInput.piece WordFilter.max input ∨
      (LineInput.piece WordFilter.max input).length = WordFilter.max - 1 ∨ rest = []) :
    WordFilter.main (input ++ rest) =
      WordFilter.output (LineInput.piece WordFilter.max input ++ [0]) ++ WordFilter.main
        (input.drop (LineInput.piece WordFilter.max input).length ++ rest) := by
  have same : LineInput.piece WordFilter.max (input ++ rest) =
      LineInput.piece WordFilter.max input := by
    rcases done with newline | full | rfl
    · exact LineInput.piece_append (.inl newline) rest
    · exact LineInput.piece_append (.inr full) rest
    · rw [List.append_nil]
  rw [WordFilter.main, LineInput.pieces_of_ne_nil (by decide) nonempty, List.flatMap_cons, same,
    List.drop_append_of_le_length (LineInput.piece_prefix ..).length_le]
  rfl

theorem sound_start (capacity : Capacity) (file : List Byte) :
    Sound capacity file (start capacity file) where
  flow := .copying [] rfl
  capacity := rfl
  whole := rfl

theorem Sound.goWriter (sound : Sound capacity file before)
    (moved : before.goWriter = some after) : Sound capacity file after := by
  obtain ⟨writer, unread, pending, pipe, filter, input, printed⟩ := before
  obtain ⟨flow, room, whole⟩ := sound
  dsimp only [State.coming] at flow room whole
  cases flow with
  | copying input writers =>
      simp only [State.goWriter] at moved
      split at moved
      · rename_i finished
        cases moved
        rw [finished] at whole
        rw [finished]
        exact ⟨.closing input writers, room, whole⟩
      · rename_i more
        cases moved
        refine ⟨.copying input writers, room, ?_⟩
        rw [fed_eq more] at whole
        simp only [State.coming, List.append_assoc]
        exact whole
  | closing input writers =>
      simp only [State.goWriter, Option.ite_none_right_eq_some, Option.some.injEq] at moved
      obtain ⟨rfl, rfl⟩ := moved
      refine ⟨.waiting input ?_, room, whole⟩
      rw [Pipe.closeWrite, writers]
      rfl
  | waiting input writers => cases moved
  | drained input empty writers => cases moved
  | left empty =>
      cases moved
      exact ⟨.ended empty, room, whole⟩
  | ended empty => cases moved

theorem Sound.writes (sound : Sound capacity file before) {count : ℕ}
    (moved : next before (.writes count) = some after) : Sound capacity file after := by
  obtain ⟨writer, unread, pending, pipe, filter, input, printed⟩ := before
  obtain ⟨flow, room, whole⟩ := sound
  simp only [next, Option.ite_none_right_eq_some, Option.map_eq_some_iff] at moved
  obtain ⟨⟨positive, there⟩, pipe', wrote, rfl⟩ := moved
  obtain ⟨-, rfl⟩ := Pipe.write_eq_some_iff.mp wrote
  dsimp only [State.coming] at flow room whole there
  have some_ : pending ≠ [] := by
    rintro rfl
    exact absurd (Nat.le_trans positive there) (Nat.not_succ_le_zero _)
  have whole' : printed ++ WordFilter.main (input ++ (pipe.inside ++ pending.take count ++
      (pending.drop count ++ fed unread))) = WordFilter.main (fed file) := by
    rw [← whole, List.append_assoc, ← List.append_assoc (pending.take count),
      List.take_append_drop]
  cases flow with
  | copying input writers => exact ⟨.copying input writers, room, whole'⟩
  | closing input writers => exact ⟨.closing input writers, room, whole'⟩
  | waiting _ _ | drained _ _ _ | left _ | ended _ => exact absurd rfl some_

theorem Sound.reads (sound : Sound capacity file before) {count : ℕ}
    (moved : next before (.reads count) = some after) : Sound capacity file after := by
  obtain ⟨writer, unread, pending, pipe, filter, input, printed⟩ := before
  obtain ⟨flow, room, whole⟩ := sound
  simp only [next, Option.ite_none_right_eq_some, Option.map_eq_some_iff] at moved
  obtain ⟨⟨rfl, -, positive⟩, ⟨bytes, pipe'⟩, reads, rfl⟩ := moved
  dsimp only [State.coming] at flow room whole
  have all := Pipe.append_of_read reads
  rcases Pipe.read_eq_some_iff.mp reads with ⟨empty, nobody, rfl, rfl⟩ | ⟨there, rfl, rfl⟩
  · rw [← List.append_nil input] at whole
    cases flow with
    | copying input writers | closing input writers =>
        rw [writers] at nobody
        exact absurd nobody (Finset.singleton_ne_empty _)
    | waiting input writers => exact ⟨.drained _ empty nobody, room, whole⟩
  · have some_ : pipe.inside.take count ≠ [] := by
      rw [ne_eq, List.take_eq_nil_iff]
      exact not_or.mpr ⟨Nat.ne_of_gt positive, there⟩
    have whole' : printed ++ WordFilter.main (input ++ pipe.inside.take count ++
        (pipe.inside.drop count ++ (pending ++ fed unread))) = WordFilter.main (fed file) := by
      rw [← whole, List.append_assoc, ← List.append_assoc (pipe.inside.take count), all]
    simp only [if_neg some_]
    cases flow with
    | copying input writers => exact ⟨.copying _ writers, room, whole'⟩
    | closing input writers => exact ⟨.closing _ writers, room, whole'⟩
    | waiting input writers => exact ⟨.waiting _ writers, room, whole'⟩

/-- Where a whole piece is in the buffer, there is something. -/
theorem input_ne_nil (complete : state.Complete) : state.input ≠ [] := by
  rcases complete with newline | full | last
  · intro empty
    rw [empty] at newline
    cases newline
  · intro empty
    rw [empty] at full
    cases full
  · exact last.2

/-- The filter prints a piece. -/
theorem Sound.piece (sound : Sound capacity file before) (complete : before.Complete) :
    Sound capacity file before.filterPiece := by
  have some_ := input_ne_nil complete
  obtain ⟨writer, unread, pending, pipe, filter, input, printed⟩ := before
  obtain ⟨flow, room, whole⟩ := sound
  dsimp only [State.coming] at flow room whole some_
  have takes (done : 10 ∈ LineInput.piece WordFilter.max input ∨
      (LineInput.piece WordFilter.max input).length = WordFilter.max - 1 ∨
        pipe.inside ++ (pending ++ fed unread) = []) :
      printed ++ WordFilter.output (LineInput.piece WordFilter.max input ++ [0]) ++
        WordFilter.main (input.drop (LineInput.piece WordFilter.max input).length ++
          (pipe.inside ++ (pending ++ fed unread))) = WordFilter.main (fed file) := by
    rw [← whole, main_append (fun none_ => some_ (List.append_eq_nil_iff.mp none_).1) done,
      List.append_assoc]
  have early (filtering : filter = .filtering) : 10 ∈ LineInput.piece WordFilter.max input ∨
      (LineInput.piece WordFilter.max input).length = WordFilter.max - 1 ∨
        pipe.inside ++ (pending ++ fed unread) = [] := by
    rcases complete with newline | full | last
    · exact .inl newline
    · exact .inr (.inl full)
    · exact absurd (filtering.symm.trans last.1) nofun
  cases flow with
  | copying input writers => exact ⟨.copying _ writers, room, takes (early rfl)⟩
  | closing input writers => exact ⟨.closing _ writers, room, takes (early rfl)⟩
  | waiting input writers => exact ⟨.waiting _ writers, room, takes (early rfl)⟩
  | drained input empty writers =>
      exact ⟨.drained _ empty writers, room, takes (.inr (.inr (by rw [empty, fed_nil]; rfl)))⟩
  | left _ | ended _ => exact absurd rfl some_

/-- The filter comes to the end of its input. -/
theorem Sound.leave (sound : Sound capacity file before) (drained : before.filter = .drained)
    (finished : before.input = []) : Sound capacity file before.endFilter := by
  obtain ⟨writer, unread, pending, pipe, filter, input, printed⟩ := before
  obtain ⟨flow, room, whole⟩ := sound
  dsimp only at flow room whole drained finished
  subst drained finished
  cases flow with
  | drained input empty writers => exact ⟨.left empty, room, whole⟩

/-- A step of the filter takes a piece, or is its last. -/
theorem goFilter_cases (moved : before.goFilter = some after) :
    before.Complete ∧ after = before.filterPiece ∨
      before.filter = .drained ∧ before.input = [] ∧ after = before.endFilter := by
  rw [State.goFilter] at moved
  cases place : before.filter with
  | filtering =>
      rw [place] at moved
      simp only [Option.ite_none_right_eq_some, Option.some.injEq] at moved
      exact .inl ⟨moved.1, moved.2.symm⟩
  | drained =>
      rw [place] at moved
      by_cases complete : before.Complete
      · cases moved
        exact .inl ⟨complete, if_pos complete⟩
      · cases moved
        refine .inr ⟨rfl, ?_, if_neg complete⟩
        by_contra some_
        exact complete (.inr (.inr ⟨place, some_⟩))
  | ended status =>
      rw [place] at moved
      cases moved

theorem Sound.goFilter (sound : Sound capacity file before)
    (moved : before.goFilter = some after) : Sound capacity file after := by
  rcases goFilter_cases moved with ⟨complete, rfl⟩ | ⟨drained, finished, rfl⟩
  · exact sound.piece complete
  · exact sound.leave drained finished

theorem sound_invariant (capacity : Capacity) (file : List Byte) :
    (pipeline capacity file).Invariant (Sound capacity file) where
  initial := by
    rintro _ rfl
    exact sound_start capacity file
  step before action after sound moved := by
    cases action with
    | popen1 => exact sound.goWriter moved
    | writes count => exact sound.writes moved
    | filter => exact sound.goFilter moved
    | reads count => exact sound.reads moved

def WriterAt.left : WriterAt → ℕ
  | .copying => 3
  | .closing => 2
  | .waiting => 1
  | .ended _ => 0

def FilterAt.left : FilterAt → ℕ
  | .filtering => 2
  | .drained => 1
  | .ended _ => 0

/-- The work that is left: a byte is copied, written, read and printed. -/
def State.left (state : State) : ℕ :=
  4 * state.unread.length + 3 * state.pending.length + 2 * state.pipe.inside.length +
    state.input.length + state.writer.left + state.filter.left

theorem length_fputs_le (unread : List Byte) :
    (fputs unread).length ≤ (LineInput.piece FilterPipes.max unread).length := by
  rw [fputs, cstr_append_zero, cstr]
  exact (List.takeWhile_prefix _).length_le

theorem goWriter_left_lt (moved : before.goWriter = some after) : after.left < before.left := by
  rw [State.goWriter] at moved
  cases place : before.writer with
  | copying =>
      rw [place] at moved
      simp only at moved
      split at moved
      · cases moved
        simp only [State.left, place, WriterAt.left]
        omega
      · rename_i more
        cases moved
        have some_ := LineInput.length_piece_pos (show 1 < FilterPipes.max by decide) more
        have part := (LineInput.piece_prefix FilterPipes.max before.unread).length_le
        have cut := length_fputs_le before.unread
        simp only [State.left, place, List.length_drop, List.length_append]
        omega
  | closing =>
      rw [place] at moved
      simp only [Option.ite_none_right_eq_some, Option.some.injEq] at moved
      obtain ⟨_, rfl⟩ := moved
      simp only [State.left, place, WriterAt.left, Pipe.closeWrite]
      omega
  | waiting =>
      rw [place] at moved
      simp only at moved
      split at moved
      · cases moved
        simp only [State.left, place, WriterAt.left]
        omega
      · cases moved
  | ended status =>
      rw [place] at moved
      cases moved

theorem goFilter_left_lt (moved : before.goFilter = some after) : after.left < before.left := by
  rcases goFilter_cases moved with ⟨complete, rfl⟩ | ⟨drained, finished, rfl⟩
  · have some_ := LineInput.length_piece_pos (show 1 < WordFilter.max by decide)
      (input_ne_nil complete)
    have part := (LineInput.piece_prefix WordFilter.max before.input).length_le
    simp only [State.left, State.filterPiece, List.length_drop]
    omega
  · simp only [State.left, State.endFilter, drained, FilterAt.left, Pipe.leave, Pipe.closeRead,
      Pipe.closeWrite]
    omega

/-- A step leaves less work. -/
theorem left_lt {action : Action} (moved : next before action = some after) :
    after.left < before.left := by
  cases action with
  | popen1 => exact goWriter_left_lt moved
  | writes count =>
      simp only [next, Option.ite_none_right_eq_some, Option.map_eq_some_iff] at moved
      obtain ⟨⟨positive, there⟩, pipe, wrote, rfl⟩ := moved
      obtain ⟨-, rfl⟩ := Pipe.write_eq_some_iff.mp wrote
      simp only [State.left, List.length_append, List.length_take, List.length_drop]
      omega
  | filter => exact goFilter_left_lt moved
  | reads count =>
      simp only [next, Option.ite_none_right_eq_some, Option.map_eq_some_iff] at moved
      obtain ⟨⟨filtering, -, positive⟩, ⟨bytes, pipe⟩, reads, rfl⟩ := moved
      rcases Pipe.read_eq_some_iff.mp reads with ⟨empty, nobody, rfl, rfl⟩ | ⟨there, rfl, rfl⟩
      · simp only [State.left, filtering, if_true, FilterAt.left, List.append_nil]
        omega
      · have some_ := List.length_pos_iff.mpr there
        have taken : before.pipe.inside.take count ≠ [] := by
          rw [ne_eq, List.take_eq_nil_iff]
          exact not_or.mpr ⟨Nat.ne_of_gt positive, there⟩
        simp only [State.left, filtering, if_neg taken, List.length_append, List.length_take,
          List.length_drop]
        omega

/-- The filter goes on with a piece, or at the end. -/
theorem exists_goFilter (lives : ∀ status, state.filter ≠ .ended status)
    (ready : state.Complete ∨ state.filter = .drained) :
    ∃ after, next state .filter = some after := by
  simp only [next, State.goFilter]
  cases place : state.filter with
  | filtering =>
      have complete := ready.resolve_right (by rw [place]; exact nofun)
      exact ⟨_, if_pos complete⟩
  | drained => exact ⟨_, rfl⟩
  | ended status => exact absurd place (lives status)

/-- Where nothing is ready for the filter, popen1.c can go on, or the filter can read. -/
theorem Sound.goesOn (sound : Sound capacity file state) :
    (∃ action after, next state action = some after) ∨
      state.writer = .ended .exitSuccess ∧ state.filter = .ended .exitSuccess := by
  obtain ⟨writer, unread, pending, pipe, filter, input, printed⟩ := state
  obtain ⟨flow, room, -⟩ := sound
  dsimp only at flow room
  -- the buffer of `pipe_writer` can be emptied, or the pipe is full and can be read
  have either (writer_ : WriterAt) (some_ : pending ≠ [] ∨ pipe.inside ≠ []) :
      ∃ action after, next ⟨writer_, unread, pending, pipe, .filtering, input, printed⟩ action =
        some after := by
    by_cases complete :
        State.Complete ⟨writer_, unread, pending, pipe, .filtering, input, printed⟩
    · exact ⟨.filter, exists_goFilter (by rintro _ ⟨⟩) (.inl complete)⟩
    · by_cases empty : pipe.inside = []
      · have one := List.length_pos_iff.mpr (some_.resolve_right fun more => more empty)
        have fits : pipe.inside.length + (pending.take 1).length ≤ pipe.capacity := by
          have atomic := capacity.atomic
          rw [empty, room, List.length_take]
          have block : FilterPipes.pipeBuf = 4096 := rfl
          simp only [List.length_nil]
          omega
        refine ⟨.writes 1, ?_⟩
        simp only [next]
        rw [if_pos ⟨Nat.le_refl 1, one⟩, Pipe.write, if_pos fits]
        exact ⟨_, rfl⟩
      · refine ⟨.reads pipe.inside.length, ?_⟩
        simp only [next]
        rw [if_pos ⟨trivial, complete, List.length_pos_iff.mpr empty⟩,
          Pipe.read_whole empty (Nat.le_refl _)]
        exact ⟨_, rfl⟩
  cases flow with
  | copying input writers =>
      by_cases finished : unread = []
      · exact .inl ⟨.popen1, _, if_pos finished⟩
      · exact .inl ⟨.popen1, _, if_neg finished⟩
  | closing input writers =>
      by_cases written : pending = []
      · exact .inl ⟨.popen1, _, if_pos written⟩
      · exact .inl (either _ (.inl written))
  | waiting input writers =>
      by_cases empty : pipe.inside = []
      · by_cases complete :
            State.Complete ⟨.waiting, [], [], pipe, .filtering, input, printed⟩
        · exact .inl ⟨.filter, exists_goFilter (by rintro _ ⟨⟩) (.inl complete)⟩
        · have end_ : pipe.read 1 = some ([], pipe) :=
            Pipe.read_eq_some_iff.mpr (.inl ⟨empty, writers, rfl, rfl⟩)
          refine .inl ⟨.reads 1, ?_⟩
          simp only [next]
          rw [if_pos ⟨trivial, complete, Nat.le_refl 1⟩, end_]
          exact ⟨_, rfl⟩
      · exact .inl (either _ (.inr empty))
  | drained input empty writers => exact .inl ⟨.filter, exists_goFilter (by rintro _ ⟨⟩) (.inr rfl)⟩
  | left empty => exact .inl ⟨.popen1, _, rfl⟩
  | ended empty => exact .inr ⟨rfl, rfl⟩

/-- **The pipeline is the filter.** Whatever bytes each `write` and `read` takes, and in whatever
order, the filter prints what it prints for the file at once; no run goes on for ever, and none
comes to a halt before both programs have ended. -/
theorem filtered_of_reachable (reached : (pipeline capacity file).Reachable state) :
    Filtered capacity file state := by
  have sound := (sound_invariant capacity file).reachable reached
  refine ⟨fun status ended => ?_, fed_of_clean, ⟨_, sound.whole⟩, sound.goesOn,
    (sound_invariant capacity file).terminates State.left (fun _ _ _ _ moved => left_lt moved)
      sound⟩
  have whole := sound.whole
  have flow := sound.flow
  rw [ended] at flow
  have none_ : state.coming = [] := by
    rw [State.coming]
    generalize state.writer = writer at flow
    generalize state.unread = unread at flow ⊢
    generalize state.pending = pending at flow ⊢
    generalize state.input = input at flow ⊢
    cases flow with
    | left empty | ended empty =>
        rw [empty, fed_nil]
        rfl
  rw [none_] at whole
  rw [← whole, WordFilter.main, LineInput.pieces_nil]
  exact (List.append_nil _).symm

/-- A file with one line, which is written and read in two parts. -/
def inParts : List Action :=
  [.popen1, .writes 3, .reads 2, .writes 4, .popen1, .popen1, .reads 9, .filter, .reads 1, .filter,
    .popen1]

theorem filtered_inParts : ∃ state,
    run next (start oneBlock [111, 100, 101, 114, 32, 97, 10]) inParts = some state ∧
      state.printed = [120, 120, 120, 120, 32, 97, 10, 32] := by
  have finished : (run next (start oneBlock [111, 100, 101, 114, 32, 97, 10]) inParts).map
      (fun state => decide (state.filter = .ended .exitSuccess)) = some true := by
    decide +kernel
  obtain ⟨state, executed, ended⟩ := Option.map_eq_some_iff.mp finished
  have filtered := filtered_of_reachable (.of_execution (.initial rfl) executed)
  refine ⟨state, executed, ?_⟩
  rw [filtered.whole _ (of_decide_eq_true ended), filtered.clean (by decide)]
  decide +kernel

end LinuxUnix.FilterPipeline

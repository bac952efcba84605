import LinuxUnix.Foundation.Cells
import LinuxUnix.Foundation.Framing
import LinuxUnix.Foundation.Pipe
import LinuxUnix.Foundation.ProcessCount
import LinuxUnix.Foundation.TransitionSystem
import LinuxUnix.Ipc.BlockPipe

/-! # fifo2.c

A process writes a text to the FIFO `fifo0001.1` and reads as many bytes from it. Any number of
processes may do so at the same time, and each may get what another one has written. As they all
write the same text, and write before they read, each gets the whole text, and none waits for ever
(`LinuxUnix.FifoEcho.echo_of_reachable`).

What is printed goes on behind the text with what the array `buf` happens to hold.
-/

namespace LinuxUnix.FifoEcho

open BlockPipe Cells TransitionSystem

/-- The string in `puffer`. -/
def text : List Byte := "Dieser Text ist für die FIFO\n".toUTF8.toList

/-- Where a process is. -/
inductive At
  /-- before `mkfifo` -/
  | making
  /-- before `open` -/
  | opening
  /-- before `write` -/
  | writing
  /-- before `read(fd_fifo, &buf, n)` -/
  | reading (n : ℕ)
  /-- before the `printf` with the bytes that have been read -/
  | printing (bytes : List Byte)
  | ended (status : Status)
  deriving DecidableEq

/-- The file system has the FIFO; where the processes are, the FIFO, and what has been printed.
What is printed is not determined if no NUL is found in `buf`. -/
structure State (Process : Type*) where
  made : Bool
  place : Process → At
  fifo : Pipe Process Byte
  printed : Process → List (Option (List Byte))

inductive Action (Process : Type*)
  | step (process : Process)
  /-- `mkfifo` or `open` fails, and not because the FIFO is there already -/
  | fails (process : Process)

variable {Process : Type*} [DecidableEq Process]

/-- The FIFO after a process has closed it; nothing is kept when nobody has it open. -/
def close (fifo : Pipe Process Byte) (process : Process) : Pipe Process Byte :=
  let left := fifo.leave process
  if left.readers = ∅ ∧ left.writers = ∅ then { left with inside := [] } else left

/-- A process goes to another place. -/
def State.move (state : State Process) (process : Process) (place : At) : State Process :=
  { state with place := Function.update state.place process place }

/-- A step of a process, given what its array `buf` holds. -/
def State.go (buf : Process → List Cell) (state : State Process) (process : Process) :
    Option (State Process) :=
  match state.place process with
  | .making => some { state.move process .opening with made := true }
  | .opening => if state.made then some { state.move process .writing with
      fifo := (state.fifo.openRead process).openWrite process } else none
  | .writing => (state.fifo.write text).map fun fifo =>
      { state.move process (.reading text.length) with fifo }
  | .reading n => (state.fifo.read n).map fun found =>
      { state.move process (.printing found.1) with fifo := found.2 }
  | .printing bytes => some { state.move process (.ended .exitSuccess) with
      fifo := close state.fifo process
      printed := Function.update state.printed process
        (state.printed process ++ [string (store (buf process) bytes)]) }
  | .ended _ => none

/-- The effect of an action. -/
def next (buf : Process → List Cell) (state : State Process) :
    Action Process → Option (State Process)
  | .step process => state.go buf process
  | .fails process =>
      if state.place process = .making ∨ state.place process = .opening then
        some (state.move process (.ended .exitFailure))
      else none

/-- No process has done anything yet. -/
def start (made : Bool) (capacity : Capacity) : State Process where
  made := made
  place _ := .making
  fifo := ⟨[], capacity.size, ∅, ∅⟩
  printed _ := []

/-- Any number of processes. -/
def fifo2 (capacity : Capacity) (buf : Process → List Cell) :
    TransitionSystem (State Process) (Action Process) :=
  .ofFunction (fun state => ∃ made, state = start made capacity) (next buf)

/-- What a process prints that has got the text. -/
def output (buf : List Cell) : Option (List Byte) :=
  (string (buf.drop text.length)).map (text ++ ·)

/-- What is promised for a state. -/
structure Echoes (capacity : Capacity) (buf : Process → List Cell) (state : State Process) :
    Prop where
  /-- a process that has ended well has printed the text, and nothing else if a NUL follows -/
  prints : ∀ process, state.place process = .ended .exitSuccess →
    state.printed process = [output (buf process)]
  /-- some process can go on, or all have ended -/
  goesOn : (∃ action after, next buf state action = some after) ∨
    ∀ process, ∃ status, state.place process = .ended status
  ends : (fifo2 capacity buf).Terminates state

/-- A process that has the FIFO open. -/
def At.holds : At → Bool
  | .writing | .reading _ | .printing _ => true
  | .making | .opening | .ended _ => false

/-- A process that has written and not read. -/
def At.owed : At → Bool
  | .reading _ => true
  | .making | .opening | .writing | .printing _ | .ended _ => false

/-- What a process knows and has printed at a place. -/
def Fits (made : Bool) (output : Option (List Byte)) (printed : List (Option (List Byte))) :
    At → Prop
  | .making | .writing => printed = []
  | .opening => made = true ∧ printed = []
  | .reading n => n = text.length ∧ printed = []
  | .printing bytes => bytes = text ∧ printed = []
  | .ended .exitSuccess => printed = [output]
  | .ended .exitFailure => True

variable [Fintype Process]

/-- What holds in every run: the FIFO holds one text for each process that has written and not
read. -/
structure Sound (capacity : Capacity) (buf : Process → List Cell) (state : State Process) :
    Prop where
  each : ∀ process, Fits state.made (output (buf process)) (state.printed process)
    (state.place process)
  capacity : state.fifo.capacity = capacity.size
  open_ : ∀ process, process ∈ state.fifo.writers ↔ (state.place process).holds = true
  inside : state.fifo.inside =
    (List.replicate (processCount At.owed state.place) text).flatten

variable {capacity : Capacity} {buf : Process → List Cell} {before after state : State Process}
  {process : Process}

theorem zero_not_mem_text : 0 ∉ text := by
  decide +kernel

theorem text_ne_nil : text ≠ [] := by
  decide +kernel

theorem length_text_le : text.length ≤ FilterPipes.pipeBuf := by
  decide +kernel

omit [DecidableEq Process] [Fintype Process] in
theorem string_store_text (memory : List Cell) : string (store memory text) = output memory := by
  rw [store, string_append, if_neg zero_not_mem_text, output]

omit [Fintype Process] [DecidableEq Process] in
/-- That the FIFO has been made is no loss for a process. -/
theorem Fits.made {made made' : Bool} {output : Option (List Byte)}
    {printed : List (Option (List Byte))} {place : At} (fits : Fits made output printed place)
    (keeps : made = true → made' = true) : Fits made' output printed place := by
  cases place with
  | opening => exact ⟨keeps fits.1, fits.2⟩
  | making | writing | reading _ | printing _ => exact fits
  | ended status => cases status <;> exact fits

omit [DecidableEq Process] in
theorem sound_start (made : Bool) (capacity : Capacity) (buf : Process → List Cell) :
    Sound capacity buf (start made capacity) where
  each _ := rfl
  capacity := rfl
  open_ _ := iff_of_false (Finset.notMem_empty _) Bool.false_ne_true
  inside := by
    have nobody : processCount At.owed (fun _ : Process => At.making) = 0 := processCount_const rfl
    exact (congrArg (fun count => (List.replicate count text).flatten) nobody).symm

/-- A process goes on: the others stay as they are, and the FIFO still has what is owed. -/
theorem Sound.update (sound : Sound capacity buf before) {place : At} {made : Bool}
    {fifo : Pipe Process Byte} {printed : Process → List (Option (List Byte))}
    (keeps : before.made = true → made = true)
    (fits : Fits made (output (buf process)) (printed process) place)
    (others : ∀ other ≠ process, printed other = before.printed other)
    (capacity_ : fifo.capacity = before.fifo.capacity)
    (self : process ∈ fifo.writers ↔ place.holds = true)
    (rest : ∀ other ≠ process, (other ∈ fifo.writers ↔ other ∈ before.fifo.writers))
    (inside : fifo.inside = (List.replicate
      (processCount At.owed (Function.update before.place process place)) text).flatten) :
    Sound capacity buf ⟨made, Function.update before.place process place, fifo, printed⟩ where
  each := by
    apply (Function.forall_update_iff _ fun other place =>
      Fits made (output (buf other)) (printed other) place).mpr
    refine ⟨fits, fun other different => ?_⟩
    rw [others other different]
    exact (sound.each other).made keeps
  capacity := capacity_.trans sound.capacity
  open_ := by
    apply (Function.forall_update_iff _ fun other place =>
      other ∈ fifo.writers ↔ At.holds place = true).mpr
    exact ⟨self, fun other different => (rest other different).trans (sound.open_ other)⟩
  inside := inside

/-- A process that neither writes nor reads leaves what is owed. -/
theorem Sound.kept (sound : Sound capacity buf before) {place : At}
    (same : place.owed = (before.place process).owed) : before.fifo.inside = (List.replicate
      (processCount At.owed (Function.update before.place process place)) text).flatten := by
  rw [processCount_update_same same]
  exact sound.inside

/-- The process that closes the FIFO as the last one leaves nothing in it. -/
theorem Sound.inside_close (sound : Sound capacity buf before) (process : Process)
    (settled : (before.place process).owed = false) :
    (close before.fifo process).inside = before.fifo.inside := by
  simp only [close]
  split
  · rename_i nobody
    have none_ : processCount At.owed before.place = 0 := by
      apply processCount_eq_zero_iff.mpr
      intro other
      by_cases same : other = process
      · rw [same]
        exact settled
      · cases place : before.place other with
        | reading n =>
            have holds : other ∈ before.fifo.writers := by
              rw [sound.open_, place]
              rfl
            have left : other ∈ (before.fifo.leave process).writers :=
              Finset.mem_erase.mpr ⟨same, holds⟩
            rw [nobody.2] at left
            exact absurd left (Finset.notMem_empty _)
        | making | opening | writing | printing _ | ended _ => rfl
    rw [sound.inside, none_]
    rfl
  · rfl

omit [Fintype Process] in
theorem close_eq (fifo : Pipe Process Byte) (process : Process) :
    (close fifo process).capacity = fifo.capacity ∧
      (close fifo process).writers = fifo.writers.erase process := by
  simp only [close]
  split
  · exact ⟨rfl, rfl⟩
  · exact ⟨rfl, rfl⟩

theorem Sound.go (sound : Sound capacity buf before) (moved : before.go buf process = some after) :
    Sound capacity buf after := by
  have fits := sound.each process
  have holds := sound.open_ process
  rw [State.go] at moved
  cases place : before.place process with
  | making =>
      rw [place] at moved fits holds
      cases moved
      exact sound.update (fun _ => rfl) ⟨rfl, fits⟩ (fun _ _ => rfl) rfl holds (fun _ _ => Iff.rfl)
        (sound.kept (by rw [place]; rfl))
  | opening =>
      rw [place] at moved fits
      simp only [fits.1, if_true] at moved
      cases moved
      refine sound.update id fits.2 (fun _ _ => rfl) rfl
        (iff_of_true (Finset.mem_insert_self ..) rfl) (fun other different => ?_)
        (sound.kept (by rw [place]; rfl))
      exact Finset.mem_insert.trans (or_iff_right different)
  | writing =>
      rw [place] at moved fits holds
      obtain ⟨fifo, wrote, rfl⟩ := Option.map_eq_some_iff.mp moved
      obtain ⟨-, rfl⟩ := Pipe.write_eq_some_iff.mp wrote
      refine sound.update id ⟨rfl, fits⟩ (fun _ _ => rfl) rfl holds (fun _ _ => Iff.rfl) ?_
      have more := processCount_update At.owed before.place process (.reading text.length)
      rw [place] at more
      change before.fifo.inside ++ text = _
      rw [sound.inside, show processCount At.owed _ = processCount At.owed before.place + 1 from more,
        List.replicate_succ', List.flatten_append, List.flatten_singleton]
  | reading n =>
      rw [place] at moved fits holds
      obtain ⟨rfl, silent⟩ := fits
      obtain ⟨⟨bytes, fifo⟩, reads, rfl⟩ := Option.map_eq_some_iff.mp moved
      have less := processCount_update At.owed before.place process (.printing bytes)
      rw [place] at less
      have inside := sound.inside
      rw [← show processCount At.owed _ + 1 = processCount At.owed before.place from less,
        List.replicate_succ] at inside
      rcases Pipe.read_eq_some_iff.mp reads with ⟨_, nobody, _⟩ | ⟨_, taken, rfl⟩
      · have member := holds.mpr rfl
        rw [nobody] at member
        exact absurd member (Finset.notMem_empty _)
      · have whole : bytes = text := by
          rw [taken, inside]
          exact Framing.take_of_length_eq rfl
        refine sound.update id ⟨whole, silent⟩ (fun _ _ => rfl) rfl holds (fun _ _ => Iff.rfl) ?_
        rw [inside]
        exact Framing.drop_of_take_eq (Framing.take_of_length_eq rfl)
  | printing bytes =>
      rw [place] at moved fits
      obtain ⟨rfl, silent⟩ := fits
      cases moved
      obtain ⟨capacity_, writers⟩ := close_eq before.fifo process
      have settled : (before.place process).owed = false := by rw [place]; rfl
      refine sound.update id ?_ (fun other different => Function.update_of_ne different _ _) capacity_
        ?_ (fun other different => ?_) ?_
      · rw [Fits, Function.update_self, silent, List.nil_append, string_store_text]
      · rw [writers]
        exact iff_of_false (Finset.notMem_erase _ _) Bool.false_ne_true
      · rw [writers, Finset.mem_erase, and_iff_right different]
      · rw [sound.inside_close process settled]
        exact sound.kept settled.symm
  | ended status =>
      rw [place] at moved
      cases moved

theorem Sound.fails (sound : Sound capacity buf before)
    (moved : next buf before (.fails process) = some after) : Sound capacity buf after := by
  simp only [next, Option.ite_none_right_eq_some, Option.some.injEq] at moved
  obtain ⟨early, rfl⟩ := moved
  have outside : (before.place process).holds = false ∧ (before.place process).owed = false := by
    rcases early with making | opening
    · rw [making]
      exact ⟨rfl, rfl⟩
    · rw [opening]
      exact ⟨rfl, rfl⟩
  have holds := sound.open_ process
  rw [outside.1] at holds
  exact sound.update id trivial (fun _ _ => rfl) rfl holds (fun _ _ => Iff.rfl)
    (sound.kept outside.2.symm)

theorem sound_invariant (capacity : Capacity) (buf : Process → List Cell) :
    (fifo2 capacity buf).Invariant (Sound capacity buf) where
  initial := by
    rintro _ ⟨made, rfl⟩
    exact sound_start made capacity buf
  step before action after sound moved := by
    cases action with
    | step process => exact sound.go moved
    | fails process => exact sound.fails moved

/-- The steps that a process still has to make. -/
def At.left : At → ℕ
  | .making => 5
  | .opening => 4
  | .writing => 3
  | .reading _ => 2
  | .printing _ => 1
  | .ended _ => 0

omit [Fintype Process] in
/-- A step brings the process closer to its end. -/
theorem exists_left_lt {action : Action Process} (moved : next buf before action = some after) :
    ∃ process place, after.place = Function.update before.place process place ∧
      place.left < (before.place process).left := by
  cases action with
  | step process =>
      simp only [next, State.go] at moved
      split at moved
      · rename_i place
        cases moved
        exact ⟨process, .opening, rfl, by rw [place]; exact Nat.lt_succ_self _⟩
      · rename_i place
        split at moved
        · cases moved
          exact ⟨process, .writing, rfl, by rw [place]; exact Nat.lt_succ_self _⟩
        · cases moved
      · rename_i place
        obtain ⟨fifo, -, rfl⟩ := Option.map_eq_some_iff.mp moved
        exact ⟨process, _, rfl, by rw [place]; exact Nat.lt_succ_self _⟩
      · rename_i n place
        obtain ⟨found, -, rfl⟩ := Option.map_eq_some_iff.mp moved
        exact ⟨process, _, rfl, by rw [place]; exact Nat.lt_succ_self _⟩
      · rename_i bytes place
        cases moved
        exact ⟨process, _, rfl, by rw [place]; exact Nat.lt_succ_self _⟩
      · cases moved
  | fails process =>
      simp only [next, Option.ite_none_right_eq_some, Option.some.injEq] at moved
      obtain ⟨early, rfl⟩ := moved
      refine ⟨process, _, rfl, ?_⟩
      rcases early with making | opening
      · rw [making]
        exact Nat.succ_pos _
      · rw [opening]
        exact Nat.succ_pos _

/-- A process that has written can read. -/
theorem Sound.reads (sound : Sound capacity buf state) {n : ℕ}
    (place : state.place process = .reading n) : ∃ after, state.go buf process = some after := by
  have some_ : state.fifo.inside ≠ [] := by
    have positive : 0 < processCount At.owed state.place :=
      processCount_pos (show At.owed (state.place process) = true by rw [place]; rfl)
    obtain ⟨count, split⟩ := Nat.exists_eq_succ_of_ne_zero (Nat.ne_of_gt positive)
    rw [sound.inside, split, List.replicate_succ, List.flatten_cons]
    exact fun empty => text_ne_nil (List.append_eq_nil_iff.mp empty).1
  cases reads : state.fifo.read n with
  | some found =>
      rw [State.go, place]
      simp only [reads]
      exact ⟨_, rfl⟩
  | none => exact absurd (Pipe.read_eq_none_iff.mp reads).1 some_

/-- As long as one has not ended, some process can go on: if the FIFO is full, one that has
written. -/
theorem Sound.goesOn (sound : Sound capacity buf state) :
    (∃ action after, next buf state action = some after) ∨
      ∀ process, ∃ status, state.place process = .ended status := by
  by_cases owed : ∃ process, (state.place process).owed = true
  · obtain ⟨process, owed⟩ := owed
    cases place : state.place process with
    | reading n =>
        obtain ⟨after, moved⟩ := sound.reads place
        exact .inl ⟨.step process, after, moved⟩
    | making | opening | writing | printing _ | ended _ =>
        rw [place] at owed
        cases owed
  · have none_ : processCount At.owed state.place = 0 :=
      processCount_eq_zero_iff.mpr fun process =>
        Bool.eq_false_iff.mpr fun there => owed ⟨process, there⟩
    have empty : state.fifo.inside = [] := by
      rw [sound.inside, none_]
      rfl
    refine or_iff_not_imp_left.mpr fun stuck process => ?_
    have still : state.go buf process = none := Option.eq_none_iff_forall_ne_some.mpr
      fun after moved => stuck ⟨.step process, after, moved⟩
    have fits := sound.each process
    rw [State.go] at still
    cases place : state.place process with
    | making =>
        rw [place] at still
        cases still
    | opening =>
        rw [place] at still fits
        simp only [fits.1, if_true] at still
        cases still
    | writing =>
        have room : state.fifo.inside.length + text.length ≤ state.fifo.capacity := by
          rw [empty, sound.capacity, List.length_nil, Nat.zero_add]
          exact Nat.le_trans length_text_le capacity.atomic
        rw [place, Pipe.write, if_pos room] at still
        cases still
    | reading n =>
        obtain ⟨after, moved⟩ := sound.reads place
        exact absurd ⟨.step process, after, moved⟩ stuck
    | printing bytes =>
        rw [place] at still
        cases still
    | ended status => exact ⟨status, rfl⟩

/-- **Everyone gets the text.** However many processes write and read at the same time, and in
whatever order, each that ends well has got the whole text; no run goes on for ever, and as long as
one has not ended, some process can go on. -/
theorem echo_of_reachable (reached : (fifo2 capacity buf).Reachable state) :
    Echoes capacity buf state := by
  have sound := (sound_invariant capacity buf).reachable reached
  refine ⟨fun process ended => ?_, sound.goesOn, ?_⟩
  · have fits := sound.each process
    rw [ended] at fits
    exact fits
  · refine (sound_invariant capacity buf).terminates (fun state => ∑ process, (state.place process).left)
      (fun before action after _ moved => ?_) sound
    obtain ⟨process, place, moves, lighter⟩ := exists_left_lt moved
    rw [moves]
    exact sum_update_lt lighter

/-- Two processes, and the first one reads what the second one has written. -/
def crossed : List (Action Bool) :=
  [.step true, .step false, .step true, .step false, .step true, .step false, .step true,
    .step true, .step false, .step false]

/-- Arrays with a NUL behind the text. -/
def cleared : Bool → List Cell := fun _ => List.replicate 100 (some 0)

theorem echo_of_crossed : ∃ state : State Bool,
    run (next cleared) (start false oneBlock) crossed = some state ∧
      ∀ process, state.printed process = [some text] := by
  have finished : ((run (next cleared) (start false oneBlock) crossed).map fun state =>
      decide (∀ process, state.place process = .ended .exitSuccess)) = some true := by
    decide +kernel
  obtain ⟨state, executed, ended⟩ := Option.map_eq_some_iff.mp finished
  have reached : (fifo2 oneBlock cleared).Reachable state :=
    .of_execution (.initial ⟨false, rfl⟩) executed
  refine ⟨state, executed, fun process => ?_⟩
  rw [(echo_of_reachable reached).prints process (of_decide_eq_true ended process)]
  change [output (List.replicate 100 (some 0))] = [some text]
  decide +kernel

end LinuxUnix.FifoEcho

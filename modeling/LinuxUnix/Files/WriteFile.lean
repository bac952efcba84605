import LinuxUnix.Foundation.CMemory
import LinuxUnix.Foundation.OpenFiles
import LinuxUnix.Foundation.TransitionSystem
import LinuxUnix.Ipc.BlockPipe

/-! # write_file.c

A process writes a text to the end of a file. Any number of them may do so at the same time, to
the same file or to others: no text is lost or cut through by another one, and a process that does
not report anything has written all of its text (`LinuxUnix.WriteFile.appended_of_reachable`).

Paths that differ are taken to name different files.
-/

namespace LinuxUnix.WriteFile

open BlockPipe CMemory OpenFiles TransitionSystem

/-- What a process reports on `stderr`. -/
inductive Message
  | usage
  | openFails
  | writeFails
  deriving DecidableEq

/-- Where a process is. -/
inductive At
  /-- at the start of `main` -/
  | starting
  /-- before `open` -/
  | opening
  /-- before `write` -/
  | writing
  | ended (status : Status)
  deriving DecidableEq

abbrev Path := List Byte

/-- The processes, the files, which of the calls of `write` have succeeded, and the reports. -/
structure State (Process : Type*) where
  place : Process → At
  files : OpenFiles Path Process Byte
  calls : List (Process × List Byte)
  messages : Process → List Message

inductive Action (Process : Type*)
  /-- a step other than the following ones -/
  | step (process : Process)
  | openFails (process : Process)
  /-- `write` returns this number -/
  | writes (process : Process) (n : ℤ)

/-- The text if there is no second argument. -/
def noText : List Byte := "Keine Angaben gemacht\n".toUTF8.toList

/-- `argv[1]`. -/
def path (argv : List (List Byte)) : Path := argv.getD 1 []

/-- `str`: `argv[2]`, if it is there. -/
def str (argv : List (List Byte)) : List Byte :=
  if argv.length < 3 then noText else argv.getD 2 []

variable {Process : Type*} [DecidableEq Process]

/-- Each process has opened its file with `O_APPEND`. -/
def opening (argv : Process → List (List Byte)) : Opening Path Process where
  file process := path (argv process)
  appends _ := true

/-- A process goes to another place. -/
def State.move (state : State Process) (process : Process) (place : At) : State Process :=
  { state with place := Function.update state.place process place }

def State.report (state : State Process) (process : Process) (message : Message) :
    State Process :=
  { state with
    messages := Function.update state.messages process (state.messages process ++ [message]) }

/-- `write` has put as many bytes into the file as it returns; `-1` is none. -/
def State.written (state : State Process) (argv : Process → List (List Byte)) (process : Process)
    (n : ℤ) : State Process :=
  if n = -1 then state
  else { state with
    files := state.files.write (opening argv) 0 process ((str (argv process)).take n.toNat)
    calls := state.calls ++ [(process, (str (argv process)).take n.toNat)] }

/-- The effect of an action. -/
def next (argv : Process → List (List Byte)) (state : State Process) :
    Action Process → Option (State Process)
  | .step process => match state.place process with
    | .starting =>
        if (argv process).length < 2 then
          some ((state.move process (.ended .exitFailure)).report process .usage)
        else some (state.move process .opening)
    | .opening => some (state.move process .writing)
    | .writing | .ended _ => none
  | .openFails process =>
      if state.place process = .opening then
        some ((state.move process (.ended .exitFailure)).report process .openFails)
      else none
  | .writes process n =>
      if state.place process = .writing ∧
          (n = -1 ∨ 0 ≤ n ∧ n.toNat ≤ (str (argv process)).length) then
        let state := (state.move process (.ended .exitSuccess)).written argv process n
        some (if n = (str (argv process)).length then state else state.report process .writeFails)
      else none

def start (old : OpenFiles Path Process Byte) : State Process where
  place _ := .starting
  files := old
  calls := []
  messages _ := []

/-- Any number of processes. -/
def writeFile (argv : Process → List (List Byte)) (old : OpenFiles Path Process Byte) :
    TransitionSystem (State Process) (Action Process) :=
  .ofFunction (· = start old) (next argv)

/-- What is promised for a state. -/
structure Appended (argv : Process → List (List Byte)) (old : OpenFiles Path Process Byte)
    (state : State Process) : Prop where
  /-- a file has its old content, and behind it what has been written, one piece after another -/
  content : ∀ path, state.files.content path =
    old.content path ++ into (opening argv) state.calls path
  /-- no process has written twice -/
  once : (state.calls.map (·.1)).Nodup
  /-- a piece is the text of its process, or a beginning of it -/
  pieces : ∀ process piece, (process, piece) ∈ state.calls → piece <+: str (argv process)
  /-- a process that has ended well and not reported anything has written its text -/
  silent : ∀ process, state.place process = .ended .exitSuccess → state.messages process = [] →
    ∃ front back, state.files.content (path (argv process)) =
      old.content (path (argv process)) ++ front ++ str (argv process) ++ back
  /-- one that has reported an error has not -/
  loud : ∀ process, state.messages process ≠ [] → (process, str (argv process)) ∉ state.calls

/-- What a process has reported and written at a place. -/
def Fits (calls : List (Process × List Byte)) (messages : List Message) (process : Process)
    (text : List Byte) : At → Prop
  | .starting | .opening | .writing => messages = [] ∧ process ∉ calls.map (·.1)
  | .ended .exitFailure => messages ≠ [] ∧ process ∉ calls.map (·.1)
  | .ended .exitSuccess => messages = [] ∧ (process, text) ∈ calls ∨
      messages ≠ [] ∧ ∀ piece, (process, piece) ∈ calls → piece ≠ text

/-- What holds in every run. -/
structure Sound (argv : Process → List (List Byte)) (old : OpenFiles Path Process Byte)
    (state : State Process) : Prop where
  files : state.files = old.writes (opening argv) 0 state.calls
  once : (state.calls.map (·.1)).Nodup
  pieces : ∀ process piece, (process, piece) ∈ state.calls → piece <+: str (argv process)
  each : ∀ process, Fits state.calls (state.messages process) process (str (argv process))
    (state.place process)

variable {argv : Process → List (List Byte)} {old : OpenFiles Path Process Byte}
  {before after state : State Process} {process : Process}

theorem sound_start (argv : Process → List (List Byte)) (old : OpenFiles Path Process Byte) :
    Sound argv old (start old) where
  files := rfl
  once := .nil
  pieces := nofun
  each _ := ⟨rfl, List.not_mem_nil⟩

/-- A process goes on without writing. -/
theorem Sound.update (sound : Sound argv old before) {place : At}
    {messages : Process → List Message}
    (others : ∀ other ≠ process, messages other = before.messages other)
    (fits : Fits before.calls (messages process) process (str (argv process)) place) :
    Sound argv old { before.move process place with messages } where
  files := sound.files
  once := sound.once
  pieces := sound.pieces
  each := by
    apply (Function.forall_update_iff _ fun other place =>
      Fits before.calls (messages other) other (str (argv other)) place).mpr
    refine ⟨fits, fun other different => ?_⟩
    rw [others other different]
    exact sound.each other

omit [DecidableEq Process] in
/-- What another process writes is no matter. -/
theorem Fits.concat {calls : List (Process × List Byte)} {messages : List Message}
    {other : Process} {text piece : List Byte} {place : At}
    (fits : Fits calls messages other text place) (different : other ≠ process) :
    Fits (calls ++ [(process, piece)]) messages other text place := by
  have absent (none_ : other ∉ calls.map (·.1)) :
      other ∉ (calls ++ [(process, piece)]).map (·.1) := by
    rw [List.map_append, List.mem_append]
    rintro (earlier | last)
    · exact none_ earlier
    · exact different (List.mem_singleton.mp last)
  cases place with
  | starting | opening | writing => exact ⟨fits.1, absent fits.2⟩
  | ended status =>
      cases status with
      | exitFailure => exact ⟨fits.1, absent fits.2⟩
      | exitSuccess =>
          rcases fits with ⟨silent, there⟩ | ⟨loud, none_⟩
          · exact .inl ⟨silent, List.mem_append_left _ there⟩
          · refine .inr ⟨loud, fun piece member => ?_⟩
            rcases List.mem_append.mp member with earlier | last
            · exact none_ piece earlier
            · exact absurd (congrArg Prod.fst (List.mem_singleton.mp last)) different

/-- A `write` returns. -/
theorem Sound.writes (sound : Sound argv old before) {n : ℤ} (place : before.place process = .writing)
    (inside : n = -1 ∨ 0 ≤ n ∧ n.toNat ≤ (str (argv process)).length) :
    Sound argv old
      (if n = (str (argv process)).length then
        (before.move process (.ended .exitSuccess)).written argv process n
      else ((before.move process (.ended .exitSuccess)).written argv process n).report process
        .writeFails) := by
  have fits := sound.each process
  rw [place] at fits
  obtain ⟨silent, absent⟩ := fits
  rcases inside with rfl | ⟨natural, short⟩
  · have differs : (-1 : ℤ) ≠ (str (argv process)).length := by omega
    rw [if_neg differs, State.written, if_pos rfl]
    refine sound.update (fun other different => Function.update_of_ne different _ _) (.inr ⟨?_, ?_⟩)
    · rw [Function.update_self]
      exact List.append_ne_nil_of_right_ne_nil _ (List.cons_ne_nil _ _)
    · intro piece member
      exact absurd (List.mem_map.mpr ⟨_, member, rfl⟩) absent
  · have positive : n ≠ -1 := by omega
    have whole (piece : List Byte) (member : (process, piece) ∈ before.calls ++
        [(process, (str (argv process)).take n.toNat)]) :
        piece = (str (argv process)).take n.toNat := by
      rcases List.mem_append.mp member with earlier | last
      · exact absurd (List.mem_map.mpr ⟨_, earlier, rfl⟩) absent
      · exact congrArg Prod.snd (List.mem_singleton.mp last)
    have written (messages : Process → List Message)
        (others : ∀ other ≠ process, messages other = before.messages other)
        (fits : Fits (before.calls ++ [(process, (str (argv process)).take n.toNat)])
          (messages process) process (str (argv process)) (.ended .exitSuccess)) :
        Sound argv old { (before.move process (.ended .exitSuccess)).written argv process n with
          messages } := by
      rw [State.written, if_neg positive]
      refine ⟨?_, ?_, ?_, ?_⟩
      · change before.files.write (opening argv) 0 process _ = _
        rw [sound.files, writes_append]
        rfl
      · change ((before.calls ++ [(process, (str (argv process)).take n.toNat)]).map
          Prod.fst).Nodup
        rw [List.map_append]
        exact sound.once.append (List.nodup_singleton _)
          (List.disjoint_singleton.mpr absent)
      · intro other piece member
        rcases List.mem_append.mp member with earlier | last
        · exact sound.pieces other piece earlier
        · cases List.mem_singleton.mp last
          exact List.take_prefix ..
      · apply (Function.forall_update_iff _ fun other place =>
          Fits (before.calls ++ [(process, (str (argv process)).take n.toNat)])
            (messages other) other (str (argv other)) place).mpr
        refine ⟨fits, fun other different => ?_⟩
        rw [others other different]
        exact (sound.each other).concat different
    have messages_ : ((before.move process (.ended .exitSuccess)).written argv process n).messages =
        before.messages := by
      rw [State.written, if_neg positive]
      rfl
    split
    · rename_i complete
      have text : (str (argv process)).take n.toNat = str (argv process) :=
        List.take_of_length_le (by omega)
      have sound_ := written before.messages (fun _ _ => rfl) <| .inl ⟨silent,
        List.mem_append_right _ (List.mem_singleton.mpr (by rw [text]))⟩
      rw [← messages_] at sound_
      exact sound_
    · rename_i part
      rw [State.report, messages_]
      refine written _ (fun other different => Function.update_of_ne different _ _) (.inr ⟨?_, ?_⟩)
      · rw [Function.update_self]
        exact List.append_ne_nil_of_right_ne_nil _ (List.cons_ne_nil _ _)
      · intro piece member same
        have length := congrArg List.length ((whole piece member).symm.trans same)
        rw [List.length_take] at length
        omega

theorem Sound.next (sound : Sound argv old before) {action : Action Process}
    (moved : next argv before action = some after) : Sound argv old after := by
  cases action with
  | step process =>
      have fits := sound.each process
      simp only [WriteFile.next] at moved
      cases place : before.place process with
      | starting =>
          rw [place] at moved fits
          simp only at moved
          split at moved
          · cases moved
            refine sound.update (fun other different => Function.update_of_ne different _ _)
              ⟨?_, fits.2⟩
            rw [Function.update_self]
            exact List.append_ne_nil_of_right_ne_nil _ (List.cons_ne_nil _ _)
          · cases moved
            exact sound.update (fun _ _ => rfl) fits
      | opening =>
          rw [place] at moved fits
          cases moved
          exact sound.update (fun _ _ => rfl) fits
      | writing | ended _ =>
          rw [place] at moved
          cases moved
  | openFails process =>
      have fits := sound.each process
      simp only [WriteFile.next, Option.ite_none_right_eq_some, Option.some.injEq] at moved
      obtain ⟨place, rfl⟩ := moved
      rw [place] at fits
      refine sound.update (fun other different => Function.update_of_ne different _ _) ⟨?_, fits.2⟩
      rw [Function.update_self]
      exact List.append_ne_nil_of_right_ne_nil _ (List.cons_ne_nil _ _)
  | writes process n =>
      simp only [WriteFile.next, Option.ite_none_right_eq_some, Option.some.injEq] at moved
      obtain ⟨⟨place, inside⟩, rfl⟩ := moved
      exact sound.writes place inside

theorem sound_invariant (argv : Process → List (List Byte)) (old : OpenFiles Path Process Byte) :
    (writeFile argv old).Invariant (Sound argv old) where
  initial := by
    rintro _ rfl
    exact sound_start argv old
  step _ _ _ sound moved := sound.next moved

theorem Sound.content (sound : Sound argv old state) (path : Path) :
    state.files.content path = old.content path ++ into (opening argv) state.calls path := by
  rw [sound.files]
  exact content_writes_of_appends fun _ _ _ => rfl

omit [DecidableEq Process] in
/-- What a process has written stands in its file in one piece. -/
theorem exists_into_eq (argv : Process → List (List Byte)) {calls : List (Process × List Byte)} {piece : List Byte}
    (there : (process, piece) ∈ calls) :
    ∃ front back, into (opening argv) calls (path (argv process)) = front ++ piece ++ back := by
  obtain ⟨earlier, later, rfl⟩ := List.append_of_mem there
  refine ⟨into (opening argv) earlier (path (argv process)),
    into (opening argv) later (path (argv process)), ?_⟩
  rw [into, List.filter_append, List.flatMap_append, List.filter_cons_of_pos (by simp [opening]),
    List.flatMap_cons, ← List.append_assoc]
  rfl

/-- **Nothing gets lost.** However many processes write, in whatever order, a file has behind its
old content the pieces of all that have written to it, one after another; a process that ends well
without a report has its text there, and one that reports an error does not. -/
theorem appended_of_reachable (reached : (writeFile argv old).Reachable state) :
    Appended argv old state := by
  have sound := (sound_invariant argv old).reachable reached
  refine ⟨sound.content, sound.once, sound.pieces, fun process ended silent => ?_,
    fun process loud there => ?_⟩
  · have fits := sound.each process
    rw [ended] at fits
    rcases fits with ⟨_, there⟩ | ⟨loud, _⟩
    · obtain ⟨front, back, split⟩ := exists_into_eq argv there
      refine ⟨front, back, ?_⟩
      rw [sound.content, split]
      simp only [List.append_assoc]
    · exact absurd silent loud
  · have fits := sound.each process
    have member : process ∈ state.calls.map (·.1) := List.mem_map.mpr ⟨_, there, rfl⟩
    generalize state.place process = place at fits
    cases place with
    | starting | opening | writing => exact loud fits.1
    | ended status =>
        cases status with
        | exitFailure => exact fits.2 member
        | exitSuccess =>
            rcases fits with ⟨silent, _⟩ | ⟨_, differs⟩
            · exact loud silent
            · exact differs _ there rfl

/-- Two processes write to the same file; of the two letters of the second one comes one only. -/
def arguments : Bool → List (List Byte)
  | true => [[112], [102]]
  | false => [[112], [102], [97, 98]]

def both : List (Action Bool) :=
  [.step true, .step false, .step false, .step true, .writes false 1, .writes true noText.length]

theorem appended_of_both : ∃ state : State Bool,
    run (next arguments) (start ⟨fun _ => [120], fun _ => 0⟩) both = some state ∧
      state.files.content [102] = 120 :: 97 :: noText ∧
      (false, str (arguments false)) ∉ state.calls := by
  have finished : (run (next arguments) (start ⟨fun _ => [120], fun _ => 0⟩) both).map
      (fun state => (state.calls, state.messages false)) =
        some ([(false, [97]), (true, noText)], [.writeFails]) := by
    decide +kernel
  obtain ⟨state, executed, ended⟩ := Option.map_eq_some_iff.mp finished
  have appended := appended_of_reachable (.of_execution (.initial rfl) executed)
  obtain ⟨calls, messages⟩ := Prod.mk.inj ended
  refine ⟨state, executed, ?_, ?_⟩
  · rw [appended.content, calls]
    decide +kernel
  · refine appended.loud false ?_
    rw [messages]
    exact List.cons_ne_nil _ _

end LinuxUnix.WriteFile

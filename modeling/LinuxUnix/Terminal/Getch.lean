import LinuxUnix.Foundation.CMemory
import LinuxUnix.Foundation.TransitionSystem
import LinuxUnix.Ipc.BlockPipe
import Mathlib.Data.List.ReduceOption

/-! # my_getch.c

`getch` puts the terminal into raw mode, gets one character and restores the mode, again and again
until the character is a `q`. Putting the terminal into raw mode drops what has been typed
meanwhile, but not what `getchar` has read ahead. So the keys come in the order in which they have
been typed, none comes twice, and none is missing unless it has been typed outside `getch`; outside
it the terminal is in its old mode, unless it could not be restored
(`LinuxUnix.Getch.keys_of_reachable`).

Signals from the keyboard are left out, and the settings that no call looks at.
-/

namespace LinuxUnix.Getch

open BlockPipe CMemory TransitionSystem

/-- `struct termios`: the flags, and two of the control characters. -/
structure Termios where
  iflag : BitVec 32
  oflag : BitVec 32
  cflag : BitVec 32
  lflag : BitVec 32
  vmin : Byte
  vtime : Byte
  deriving DecidableEq

/-- `BRKINT | ICRNL | INPCK | ISTRIP | IXON` -/
def inputFlags : BitVec 32 := 0o2#32 ||| 0o400#32 ||| 0o20#32 ||| 0o40#32 ||| 0o2000#32

/-- `OPOST` -/
def outputFlags : BitVec 32 := 0o1#32

/-- `CSIZE | PARENB` -/
def controlFlags : BitVec 32 := 0o60#32 ||| 0o400#32

/-- `CS8` -/
def cs8 : BitVec 32 := 0o60#32

/-- `ECHO | ICANON | IEXTEN | ISIG` -/
def localFlags : BitVec 32 := 0o10#32 ||| 0o2#32 ||| 0o100000#32 ||| 0o1#32

/-- What `raw` makes of the settings. -/
def Termios.raw (old : Termios) : Termios where
  iflag := old.iflag &&& ~~~inputFlags
  oflag := old.oflag &&& ~~~outputFlags
  cflag := (old.cflag &&& ~~~controlFlags) ||| cs8
  lflag := old.lflag &&& ~~~localFlags
  vmin := 1
  vtime := 0

/-- Where the program is. -/
inductive At
  /-- before `tcgetattr` -/
  | reading
  /-- before `tcsetattr(fd, TCSAFLUSH, &new_io)` -/
  | changing
  /-- before `getchar` -/
  | getting
  /-- before `tcsetattr(STDIN_FILENO, TCSANOW, &old_io)`; `none` is `EOF` -/
  | restoring (c : Option Byte)
  | ended (status : Status)
  deriving DecidableEq

/-- The settings of the terminal and those in `old_io`, the keys that wait in the terminal and in
the buffer of `stdin`, and the results of `getch`. Of the past are known the keys that have been
typed, those that have been dropped, and whether a mode could not be restored. -/
structure State where
  place : At
  settings : Termios
  oldIo : Termios
  queue : List Byte
  buffer : List Byte
  results : List (Option Byte)
  typed : List Byte
  dropped : List Byte
  stuck : Bool

inductive Action
  /-- a key is typed -/
  | key (byte : Byte)
  /-- a step of the program whose call succeeds, without a `read` -/
  | step
  /-- `getchar` reads so many keys -/
  | reads (count : ℕ)
  /-- `getchar` reads, and there is an end of the input or an error -/
  | readFails
  /-- `tcgetattr` or `tcsetattr` fails -/
  | fails
  deriving DecidableEq

/-- The byte `q`. -/
def quit : Byte := 'q'.toUInt8

/-- `getch` returns to the loop in `main`. -/
def State.returns (state : State) (c : Option Byte) : State :=
  { state with
    place := if c = some quit then .ended .exitSuccess else .reading
    results := state.results ++ [c] }

/-- The effect of an action. -/
def next (state : State) : Action → Option State
  | .key byte => some { state with queue := state.queue ++ [byte], typed := state.typed ++ [byte] }
  | .step => match state.place with
    | .reading => some { state with place := .changing, oldIo := state.settings }
    | .changing => some { state with
        place := .getting
        settings := state.oldIo.raw
        queue := []
        dropped := state.dropped ++ state.queue }
    | .getting => match state.buffer with
      | byte :: rest => some { state with place := .restoring (some byte), buffer := rest }
      | [] => none
    | .restoring c => some { state.returns c with settings := state.oldIo }
    | .ended _ => none
  | .reads count =>
      if state.place = .getting ∧ state.buffer = [] ∧ 1 ≤ count ∧ count ≤ state.queue.length then
        some { state with buffer := state.queue.take count, queue := state.queue.drop count }
      else none
  | .readFails =>
      if state.place = .getting ∧ state.buffer = [] then
        some { state with place := .restoring none }
      else none
  | .fails => match state.place with
    | .reading | .changing => some { state with place := .ended .exitFailure }
    | .restoring c => some { state.returns c with stuck := true }
    | .getting | .ended _ => none

def start (original oldIo : Termios) : State where
  place := .reading
  settings := original
  oldIo := oldIo
  queue := []
  buffer := []
  results := []
  typed := []
  dropped := []
  stuck := false

def myGetch (original : Termios) : TransitionSystem State Action :=
  .ofFunction (fun state => ∃ oldIo, state = start original oldIo) next

/-- The key that `getchar` has returned and `getch` has not. -/
def At.held : At → List Byte
  | .restoring c => c.toList
  | .reading | .changing | .getting | .ended _ => []

/-- The keys that have not been dropped, in the order in which they come to `main`. -/
def State.kept (state : State) : List Byte :=
  state.results.reduceOption ++ state.place.held ++ state.buffer ++ state.queue

/-- What is promised for a state. -/
structure Keys (original : Termios) (state : State) : Prop where
  /-- the keys come in the order in which they have been typed, and none comes twice -/
  order : state.kept.Sublist state.typed
  /-- a key that does not come has been dropped -/
  number : state.kept.length + state.dropped.length = state.typed.length
  /-- the program ends well with the first `q` -/
  quits : ∀ status, state.place = .ended status →
    if status = .exitSuccess then ∃ front, state.results = front ++ [some quit] ∧
      some quit ∉ front
    else some quit ∉ state.results
  /-- and not before -/
  goesOn : (∀ status, state.place ≠ .ended status) → some quit ∉ state.results
  /-- a character is got in raw mode, in which no key is shown, kept for a line, or taken for a
  signal -/
  raw : state.place = .getting →
    state.settings = original.raw ∧ state.settings.lflag &&& localFlags = 0#32
  /-- and the mode is the old one otherwise, if it could be restored each time -/
  restored : (∀ c, state.place ≠ .restoring c) → state.place ≠ .getting → state.stuck = false →
    state.settings = original
  /-- if not, it stays the raw one -/
  either : state.settings = original ∨ state.settings = original.raw

/-- What the settings are at a place. -/
def Mode (original settings oldIo : Termios) (stuck : Bool) : At → Prop
  | .reading | .ended _ =>
      settings = original ∨ stuck = true ∧ settings = original.raw
  | .changing => settings = oldIo ∧
      (settings = original ∨ stuck = true ∧ settings = original.raw)
  | .getting | .restoring _ => settings = original.raw ∧
      (oldIo = original ∨ stuck = true ∧ oldIo = original.raw)

/-- Whether there has been a `q` at a place. -/
def Quits (results : List (Option Byte)) : At → Prop
  | .ended .exitSuccess => ∃ front, results = front ++ [some quit] ∧ some quit ∉ front
  | .ended .exitFailure | .reading | .changing | .getting | .restoring _ => some quit ∉ results

/-- What holds in every run. -/
structure Sound (original : Termios) (state : State) : Prop where
  order : state.kept.Sublist state.typed
  number : state.kept.length + state.dropped.length = state.typed.length
  quits : Quits state.results state.place
  mode : Mode original state.settings state.oldIo state.stuck state.place

variable {original settings : Termios} {before after state : State} {action : Action}

theorem and_not_and_not (flags mask : BitVec 32) :
    (flags &&& ~~~mask) &&& ~~~mask = flags &&& ~~~mask := by
  rw [BitVec.and_assoc, BitVec.and_self]

/-- The raw mode of the raw mode is the same. -/
theorem raw_raw (old : Termios) : old.raw.raw = old.raw := by
  have control (flags : BitVec 32) : ((flags &&& ~~~controlFlags ||| cs8) &&& ~~~controlFlags |||
      cs8) = (flags &&& ~~~controlFlags ||| cs8) := by
    have masked : cs8 &&& ~~~controlFlags = 0#32 := by decide
    rw [BitVec.and_or_distrib_right, and_not_and_not, masked, BitVec.or_zero]
  simp only [Termios.raw, and_not_and_not, control]

theorem lflag_raw (old : Termios) : old.raw.lflag &&& localFlags = 0#32 := by
  rw [Termios.raw, BitVec.and_assoc, show ~~~localFlags &&& localFlags = 0#32 by decide,
    BitVec.and_zero]

theorem sound_start (original oldIo : Termios) : Sound original (start original oldIo) where
  order := List.nil_sublist _
  number := rfl
  quits := List.not_mem_nil
  mode := .inl rfl

/-- A step that leaves the keys as they are. -/
theorem Sound.keep (sound : Sound original before) (kept : after.kept = before.kept)
    (typed : after.typed = before.typed) (dropped : after.dropped = before.dropped)
    (quits : Quits after.results after.place)
    (mode : Mode original after.settings after.oldIo after.stuck after.place) :
    Sound original after where
  order := by
    rw [kept, typed]
    exact sound.order
  number := by
    rw [kept, typed, dropped]
    exact sound.number
  quits := quits
  mode := mode

theorem Sound.key (sound : Sound original before) (byte : Byte) : Sound original { before with
    queue := before.queue ++ [byte], typed := before.typed ++ [byte] } := by
  have kept : State.kept { before with
      queue := before.queue ++ [byte], typed := before.typed ++ [byte] } =
        before.kept ++ [byte] :=
    (List.append_assoc ..).symm
  refine ⟨?_, ?_, sound.quits, sound.mode⟩
  · rw [kept]
    exact sound.order.append (List.Sublist.refl [byte])
  · rw [kept, List.length_append]
    change before.kept.length + 1 + before.dropped.length = (before.typed ++ [byte]).length
    rw [List.length_append, ← sound.number]
    exact Nat.add_right_comm ..

/-- What waits in the terminal is dropped, and the mode becomes the raw one. -/
theorem Sound.change (sound : Sound original before) (place : before.place = .changing) :
    Sound original { before with
      place := .getting
      settings := before.oldIo.raw
      queue := []
      dropped := before.dropped ++ before.queue } := by
  have quits := sound.quits
  have mode := sound.mode
  rw [place] at quits mode
  have kept : State.kept { before with
      place := .getting
      settings := before.oldIo.raw
      queue := []
      dropped := before.dropped ++ before.queue } ++ before.queue = before.kept := by
    rw [State.kept, State.kept, place]
    exact congrArg (· ++ before.queue) (List.append_nil _)
  refine ⟨?_, ?_, quits, ?_⟩
  · have order := sound.order
    rw [← kept] at order
    exact (List.sublist_append_left ..).trans order
  · have number := sound.number
    rw [← kept, List.length_append] at number
    change _ + (before.dropped ++ before.queue).length = before.typed.length
    rw [List.length_append]
    omega
  · obtain ⟨same, old⟩ := mode
    rw [same] at old
    rcases old with first | ⟨stuck, raw⟩
    · exact ⟨congrArg Termios.raw first, .inl first⟩
    · refine ⟨?_, .inr ⟨stuck, raw⟩⟩
      change before.oldIo.raw = original.raw
      rw [raw, raw_raw]

/-- `getch` returns, with the mode restored or not. -/
theorem Sound.returns (sound : Sound original before) {c : Option Byte} {stuck : Bool}
    (place : before.place = .restoring c)
    (mode : Mode original settings before.oldIo stuck .reading) :
    Sound original { before.returns c with settings, stuck } := by
  have quits := sound.quits
  rw [place] at quits
  have kept : State.kept { before.returns c with settings, stuck } = before.kept := by
    have held : (if c = some quit then At.ended .exitSuccess else At.reading).held = [] := by
      split <;> rfl
    rw [State.kept, State.kept, place]
    change (before.results ++ [c]).reduceOption ++ At.held (if c = some quit then _ else _) ++
      before.buffer ++ before.queue = _
    rw [held, List.append_nil, List.reduceOption_append, List.reduceOption_singleton]
    rfl
  refine sound.keep kept rfl rfl ?_ ?_
  · change Quits (before.results ++ [c]) (if c = some quit then _ else _)
    split
    · rename_i last
      exact ⟨before.results, by rw [last], quits⟩
    · rename_i other
      refine fun member => (List.mem_append.mp member).elim quits fun last => ?_
      exact other (List.mem_singleton.mp last).symm
  · change Mode original settings before.oldIo stuck (if c = some quit then _ else _)
    split
    · exact mode
    · exact mode

theorem Sound.next (sound : Sound original before) (moved : next before action = some after) :
    Sound original after := by
  have quits := sound.quits
  have mode := sound.mode
  cases action with
  | key byte =>
      cases moved
      exact sound.key byte
  | step =>
      simp only [Getch.next] at moved
      cases place : before.place with
      | reading =>
          rw [place] at moved quits mode
          cases moved
          refine sound.keep ?_ rfl rfl quits ⟨rfl, mode⟩
          rw [State.kept, State.kept, place]
          rfl
      | changing =>
          rw [place] at moved
          cases moved
          exact sound.change place
      | getting =>
          rw [place] at moved quits mode
          cases ahead : before.buffer with
          | nil =>
              rw [ahead] at moved
              cases moved
          | cons byte rest =>
              rw [ahead] at moved
              cases moved
              refine sound.keep ?_ rfl rfl quits mode
              rw [State.kept, State.kept, place, ahead]
              simp only [At.held, Option.toList, List.append_assoc, List.cons_append,
                List.nil_append]
      | restoring c =>
          rw [place] at moved mode
          cases moved
          exact sound.returns place mode.2
      | ended status =>
          rw [place] at moved
          cases moved
  | reads count =>
      simp only [Getch.next, Option.ite_none_right_eq_some, Option.some.injEq] at moved
      obtain ⟨⟨place, empty, positive, there⟩, rfl⟩ := moved
      refine sound.keep ?_ rfl rfl quits mode
      rw [State.kept, State.kept, empty, List.append_nil]
      change before.results.reduceOption ++ before.place.held ++ before.queue.take count ++
        before.queue.drop count = _
      rw [List.append_assoc, List.take_append_drop]
  | readFails =>
      simp only [Getch.next, Option.ite_none_right_eq_some, Option.some.injEq] at moved
      obtain ⟨⟨place, empty⟩, rfl⟩ := moved
      rw [place] at quits mode
      refine sound.keep ?_ rfl rfl quits mode
      rw [State.kept, State.kept, place]
      rfl
  | fails =>
      simp only [Getch.next] at moved
      cases place : before.place with
      | reading =>
          rw [place] at moved quits mode
          cases moved
          refine sound.keep ?_ rfl rfl quits mode
          rw [State.kept, State.kept, place]
          rfl
      | changing =>
          rw [place] at moved quits mode
          cases moved
          refine sound.keep ?_ rfl rfl quits mode.2
          rw [State.kept, State.kept, place]
          rfl
      | restoring c =>
          rw [place] at moved mode
          cases moved
          exact sound.returns place (.inr ⟨rfl, mode.1⟩)
      | getting | ended _ =>
          rw [place] at moved
          cases moved

theorem sound_invariant (original : Termios) : (myGetch original).Invariant (Sound original) where
  initial := by
    rintro _ ⟨oldIo, rfl⟩
    exact sound_start original oldIo
  step _ _ _ sound moved := sound.next moved

/-- A key is typed too early, two while the program waits, and a `q` at last. -/
def impatient : List Action :=
  [.step, .key 97, .step, .key 98, .key 99, .reads 2, .step, .step, .step, .step, .step, .step,
    .step, .step, .key quit, .reads 1, .step, .step]

/-- Line by line, with echo. -/
def cooked : Termios := ⟨0x500#32, 0x5#32, 0xbf#32, 0x8a3b#32, 1, 0⟩

end LinuxUnix.Getch

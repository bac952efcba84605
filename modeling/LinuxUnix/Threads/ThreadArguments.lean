import LinuxUnix.Foundation.Allocation
import LinuxUnix.Foundation.Decimal
import LinuxUnix.Foundation.ProcessCount
import LinuxUnix.Foundation.TransitionSystem
import LinuxUnix.Ipc.BlockPipe

/-! # thread1.c

`main` allocates a block for each thread, fills it, and leaves it to the thread, which prints what is in
it, and frees it in its cleanup handler. The address of a block that has been freed may be given out
again while other threads are still at work. In every order of the steps, nobody touches a block that is
not there any more, no block is freed twice, each thread prints what has been meant for it, and nothing is
left when `main` ends well (`LinuxUnix.ThreadArguments.passed_of_reachable`).

The headlines of `main` are left out, and the calls of `pthread_join` succeed.
-/

namespace LinuxUnix.ThreadArguments

open Allocation BlockPipe CMemory TransitionSystem

/-- `MAX_THREADS` -/
def maxThreads : ℕ := 3

abbrev Thread := Fin maxThreads

abbrev Address := ℕ

/-- `BUF` -/
def buf : ℕ := 255

/-- `RAND_MAX` -/
def randMax : ℕ := 2147483647

/-- `struct data` -/
structure Data where
  wert : ℤ
  msg : List Byte
  deriving DecidableEq

/-- Where `main` is, with the block in `f`. -/
inductive MainAt
  /-- before the `malloc` for this thread, or behind the loop -/
  | allocating (i : ℕ)
  /-- before `f->wert` is set -/
  | drawing (i : ℕ) (f : Address)
  /-- before `snprintf` -/
  | naming (i : ℕ) (f : Address)
  /-- before `pthread_create` -/
  | creating (i : ℕ) (f : Address)
  /-- before the `pthread_join` of this thread, or behind the loop -/
  | joining (i : ℕ)
  /-- before the message that this thread is ready, or behind the loop -/
  | reporting (i : ℕ)
  | ended (status : Status)
  deriving DecidableEq

/-- Where a thread is. -/
inductive At
  | absent
  /-- before the message that it has started -/
  | starting
  | receiving
  /-- before `f->wert` is printed -/
  | readingWert
  | readingMsg
  /-- at the start of `exit_handler_mem` -/
  | handling
  | freeing
  /-- behind `free` -/
  | reporting
  | done
  deriving DecidableEq

/-- What is printed. -/
inductive Line
  | gestartet (id : ℤ)
  | empfangen
  | wert (value : ℤ)
  | msg (text : List Byte)
  | handler
  | freigegeben
  | fertig (id : ℤ)
  deriving DecidableEq

/-- A thread and its argument. -/
structure Client where
  place : At
  f : Address
  deriving DecidableEq

/-- `main`, the threads, the memory, the lines with the threads that have printed them, and whether
memory has been used that is not there. -/
structure State where
  main : MainAt
  client : Thread → Client
  memory : Allocation Address Data
  ret : List ℤ
  output : List (Option Thread × Line)
  undefined : Bool

inductive Action
  /-- a step of `main` other than the following ones -/
  | main
  /-- `malloc` returns this address, with this in the block -/
  | malloc (address : Address) (data : Data)
  | mallocFails
  /-- `rand` returns this number -/
  | rand (number : ℕ)
  /-- `pthread_create` fails -/
  | createFails
  | thread (thread : Thread)

/-- The number that is drawn. -/
def drawn (number : ℕ) : ℤ :=
  1 + (10 * number / (randMax + 1) : ℕ)

/-- `msg` of a thread. -/
def text (i : ℕ) : List Byte :=
  ("Ich bin Thread Nr. ".toUTF8.toList ++ Decimal.print (i + 1)).take (buf - 1)

/-- A block is written to, if it is there. -/
def State.store (state : State) (address : Address) (change : Data → Data) : State :=
  match state.memory address with
  | none => { state with undefined := true }
  | some data => { state with memory := Function.update state.memory address (some (change data)) }

def State.print (state : State) (who : Option Thread) (line : Line) : State :=
  { state with output := state.output ++ [(who, line)] }

/-- A thread goes to another place. -/
def State.move (state : State) (thread : Thread) (place : At) : State :=
  { state with client := Function.update state.client thread { state.client thread with place } }

/-- A step of `main`. -/
def State.goMain (ids : Thread → ℤ) (state : State) : Option State :=
  match state.main with
  | .allocating i => if i < maxThreads then none else some { state with main := .joining 0 }
  | .drawing _ _ => none
  | .naming i f =>
      some { state.store f fun data => { data with msg := text i } with main := .creating i f }
  | .creating i f =>
      if inside : i < maxThreads then
        some { state with
          main := .allocating (i + 1)
          client := Function.update state.client ⟨i, inside⟩ ⟨.starting, f⟩ }
      else none
  | .joining i =>
      if inside : i < maxThreads then
        if (state.client ⟨i, inside⟩).place = .done then
          some { state with main := .joining (i + 1), ret := state.ret ++ [ids ⟨i, inside⟩] }
        else none
      else some { state with main := .reporting 0 }
  | .reporting i => match state.ret[i]? with
    | some id => some { state.print none (.fertig id) with main := .reporting (i + 1) }
    | none => some { state with main := .ended .exitSuccess }
  | .ended _ => none

/-- A step of a thread. -/
def State.go (ids : Thread → ℤ) (state : State) (thread : Thread) : Option State :=
  let f := (state.client thread).f
  match (state.client thread).place with
  | .starting => some ((state.move thread .receiving).print thread (.gestartet (ids thread)))
  | .receiving => some ((state.move thread .readingWert).print thread .empfangen)
  | .readingWert => match state.memory f with
    | none => some { state with undefined := true }
    | some data => some ((state.move thread .readingMsg).print thread (.wert data.wert))
  | .readingMsg => match state.memory f with
    | none => some { state with undefined := true }
    | some data => some ((state.move thread .handling).print thread (.msg data.msg))
  | .handling => some ((state.move thread .freeing).print thread .handler)
  | .freeing => match state.memory f with
    | none => some { state with undefined := true }
    | some _ => some { state.move thread .reporting with
        memory := Function.update state.memory f none }
  | .reporting => some ((state.move thread .done).print thread .freigegeben)
  | .absent | .done => none

def next (ids : Thread → ℤ) (state : State) : Action → Option State
  | .main => state.goMain ids
  | .malloc address data => match state.main with
    | .allocating i =>
        if i < maxThreads ∧ state.memory address = none then
          some { state with
            main := .drawing i address
            memory := Function.update state.memory address (some data) }
        else none
    | _ => none
  | .mallocFails => match state.main with
    | .allocating i =>
        if i < maxThreads then some { state with main := .ended .exitFailure } else none
    | _ => none
  | .rand number => match state.main with
    | .drawing i f =>
        if number ≤ randMax then
          some { state.store f fun data => { data with wert := drawn number } with
            main := .naming i f }
        else none
    | _ => none
  | .createFails => match state.main with
    | .creating _ _ => some { state with main := .ended .exitFailure }
    | _ => none
  | .thread thread => match state.main with
    | .ended _ => none
    | _ => state.go ids thread

def start : State where
  main := .allocating 0
  client _ := ⟨.absent, 0⟩
  memory _ := none
  ret := []
  output := []
  undefined := false

/-- The program with the numbers that its threads get. -/
def thread1 (ids : Thread → ℤ) : TransitionSystem State Action :=
  .ofFunction (· = start) (next ids)

/-! ## One thread -/

/-- The block of a thread is filled. -/
structure Good (i : ℕ) (data : Data) : Prop where
  low : 1 ≤ data.wert
  high : data.wert ≤ 10
  msg : data.msg = text i

/-- What a thread prints. -/
def said (ids : Thread → ℤ) (thread : Thread) (wert : ℤ) : List Line :=
  [.gestartet (ids thread), .empfangen, .wert wert, .msg (text thread), .handler, .freigegeben]

/-- How many lines a thread has printed. -/
def At.count : At → ℕ
  | .absent | .starting => 0
  | .receiving => 1
  | .readingWert => 2
  | .readingMsg => 3
  | .handling => 4
  | .freeing | .reporting => 5
  | .done => 6

/-- A thread that has not freed its block. -/
def At.holds : At → Bool
  | .absent | .reporting | .done => false
  | _ => true

theorem At.under_way {place : At} (holds : place.holds = true) : place ≠ .absent ∧ place ≠ .done := by
  cases place with
  | absent | reporting | done => cases holds
  | starting | receiving | readingWert | readingMsg | handling | freeing => exact ⟨nofun, nofun⟩

/-- How far a thread has come: its block and its lines. -/
inductive Stage (ids : Thread → ℤ) (thread : Thread) :
    Client → Option (Address × Data) → List Line → Prop
  | absent {f : Address} : Stage ids thread ⟨.absent, f⟩ none []
  | holding {place : At} {f : Address} {data : Data} (holds : place.holds = true)
      (good : Good thread data) :
      Stage ids thread ⟨place, f⟩ (some (f, data)) ((said ids thread data.wert).take place.count)
  | freed {place : At} {f : Address} {wert : ℤ} (rests : place = .reporting ∨ place = .done)
      (low : 1 ≤ wert) (high : wert ≤ 10) :
      Stage ids thread ⟨place, f⟩ none ((said ids thread wert).take place.count)

variable {ids : Thread → ℤ} {thread : Thread} {place later : At} {f : Address} {data : Data}
  {has : Option (Address × Data)} {lines : List Line} {line : Line}

/-- A thread that has not freed its block has one. -/
theorem Stage.exists_data {client : Client} (stage : Stage ids thread client has lines)
    (holds : client.place.holds = true) : ∃ data, has = some (client.f, data) ∧ Good thread data ∧
      lines = (said ids thread data.wert).take client.place.count := by
  cases stage with
  | absent => cases holds
  | holding _ good => exact ⟨_, rfl, good, rfl⟩
  | freed rests =>
      rcases rests with rfl | rfl <;> cases holds

theorem Stage.of_absent {client : Client} (stage : Stage ids thread client has lines)
    (absent : client.place = .absent) : has = none ∧ lines = [] := by
  cases stage with
  | absent => exact ⟨rfl, rfl⟩
  | holding holds =>
      subst absent
      cases holds
  | freed rests => rcases rests with rfl | rfl <;> cases absent

/-- A thread that has freed its block has none. -/
theorem Stage.exists_wert {client : Client} (stage : Stage ids thread client has lines)
    (rests : client.place = .reporting ∨ client.place = .done) : has = none ∧
      ∃ wert, 1 ≤ wert ∧ wert ≤ 10 ∧ lines = (said ids thread wert).take client.place.count := by
  cases stage with
  | absent => rcases rests with rests | rests <;> cases rests
  | holding holds => rcases rests with rfl | rfl <;> cases holds
  | freed _ low high => exact ⟨rfl, _, low, high, rfl⟩

/-- The element at the end of a longer start of a list. -/
theorem take_succ_of_some {Element : Type} {list : List Element} {i : ℕ} {element : Element}
    (here : list[i]? = some element) : list.take (i + 1) = list.take i ++ [element] := by
  rw [List.take_add_one, here]
  rfl

/-- A thread prints its next line. -/
theorem Good.print (good : Good thread data) (holds : later.holds = true)
    (count : later.count = place.count + 1)
    (tells : (said ids thread data.wert)[place.count]? = some line) :
    Stage ids thread ⟨later, f⟩ (some (f, data))
      ((said ids thread data.wert).take place.count ++ [line]) := by
  have longer : (said ids thread data.wert).take later.count =
      (said ids thread data.wert).take place.count ++ [line] := by
    rw [count, take_succ_of_some tells]
  exact longer ▸ .holding holds good

/-! ## The lines -/

/-- The lines of a thread, or of `main`. -/
def linesOf (who : Option Thread) (output : List (Option Thread × Line)) : List Line :=
  (output.filter (·.1 = who)).map (·.2)

variable {who other : Option Thread} {output : List (Option Thread × Line)}

theorem linesOf_self (who : Option Thread) (output : List (Option Thread × Line)) (line : Line) :
    linesOf who (output ++ [(who, line)]) = linesOf who output ++ [line] := by
  rw [linesOf, List.filter_append, List.map_append,
    List.filter_cons_of_pos (by exact decide_eq_true rfl)]
  rfl

theorem linesOf_of_ne (different : other ≠ who) (output : List (Option Thread × Line)) (line : Line) :
    linesOf who (output ++ [(other, line)]) = linesOf who output := by
  rw [linesOf, List.filter_append, List.map_append,
    List.filter_cons_of_neg (by simpa using different)]
  exact List.append_nil _

/-! ## All of them -/

/-- Where the threads are for `main`. -/
def MainAt.Fits (client : Thread → Client) : MainAt → Prop
  | .allocating i => i ≤ maxThreads ∧ ∀ thread, (client thread).place = .absent ↔ i ≤ thread.val
  | .drawing i _ | .naming i _ | .creating i _ =>
      i < maxThreads ∧ ∀ thread, (client thread).place = .absent ↔ i ≤ thread.val
  | .joining i => ∀ thread, (client thread).place ≠ .absent ∧
      (thread.val < i → (client thread).place = .done)
  | .reporting _ | .ended .exitSuccess => ∀ thread, (client thread).place = .done
  | .ended .exitFailure => True

/-- The block that `main` has. -/
inductive MainAt.Owns : MainAt → Option (Address × Data) → Prop
  | allocating {i : ℕ} : Owns (.allocating i) none
  | drawing {i : ℕ} {f : Address} {data : Data} : Owns (.drawing i f) (some (f, data))
  | naming {i : ℕ} {f : Address} {data : Data} (low : 1 ≤ data.wert) (high : data.wert ≤ 10) :
      Owns (.naming i f) (some (f, data))
  | creating {i : ℕ} {f : Address} {data : Data} (good : Good i data) :
      Owns (.creating i f) (some (f, data))
  | joining {i : ℕ} : Owns (.joining i) none
  | reporting {i : ℕ} : Owns (.reporting i) none
  | ended : Owns (.ended .exitSuccess) none
  | failed {owned : Option (Address × Data)} : Owns (.ended .exitFailure) owned

/-- How many threads have been joined. -/
def MainAt.joined : MainAt → ℕ
  | .joining i => i
  | .reporting _ | .ended .exitSuccess => maxThreads
  | _ => 0

/-- How many threads `main` has reported. -/
def MainAt.reported : MainAt → ℕ
  | .reporting i => i
  | .ended .exitSuccess => maxThreads
  | _ => 0

/-- What holds in every state, with the blocks of `main` and the threads. -/
structure Sound (ids : Thread → ℤ) (state : State) (owns : Option Thread → Option (Address × Data)) :
    Prop where
  fits : state.main.Fits state.client
  owned : Owned state.memory owns
  main : state.main.Owns (owns none)
  each : ∀ thread, Stage ids thread (state.client thread) (owns thread) (linesOf thread state.output)
  ret : state.ret = (List.ofFn ids).take state.main.joined
  reports : linesOf none state.output = ((List.ofFn ids).take state.main.reported).map .fertig
  defined : state.undefined = false

variable {before after state : State} {owns : Option Thread → Option (Address × Data)}
  {current : Thread → Client} {main : MainAt}

/-- A thread that is under way stays so for `main`. -/
theorem MainAt.Fits.move (fits : main.Fits current) (there : (current thread).place ≠ .absent)
    (goes : (current thread).place ≠ .done) {client : Client} (stays : client.place ≠ .absent) :
    main.Fits (Function.update current thread client) := by
  have absent (i : ℕ) (before : ∀ other, (current other).place = .absent ↔ i ≤ other.val) :
      ∀ other : Thread, (Function.update current thread client other).place = .absent ↔
        i ≤ other.val := by
    intro other
    rcases eq_or_ne other thread with rfl | different
    · rw [Function.update_self, ← before other]
      exact ⟨fun same => absurd same stays, fun same => absurd same there⟩
    · rw [Function.update_of_ne different]
      exact before other
  cases main with
  | allocating i | drawing i _ | naming i _ | creating i _ => exact ⟨fits.1, absent i fits.2⟩
  | joining i =>
      intro other
      rcases eq_or_ne other thread with rfl | different
      · rw [Function.update_self]
        exact ⟨stays, fun less => absurd ((fits other).2 less) goes⟩
      · rw [Function.update_of_ne different]
        exact fits other
  | reporting i => exact absurd (fits thread) goes
  | ended status =>
      cases status with
      | exitSuccess => exact absurd (fits thread) goes
      | exitFailure => trivial

/-- A thread takes a step. -/
theorem Sound.move {client : Client} {memory : Allocation Address Data}
    {output : List (Option Thread × Line)} (sound : Sound ids before owns)
    (at_ : (before.client thread).place = place) (there : place ≠ .absent) (goes : place ≠ .done)
    (stays : client.place ≠ .absent)
    (others : ∀ who ≠ some thread, linesOf who output = linesOf who before.output)
    (owned : Owned memory (Function.update owns thread has))
    (stage : Stage ids thread client has (linesOf thread output)) :
    Sound ids { before with
      client := Function.update before.client thread client, memory, output }
        (Function.update owns thread has) := by
  subst at_
  have main (who : Option Thread) (different : who ≠ some thread) :
      Function.update owns (some thread) has who = owns who := Function.update_of_ne different _ _
  refine ⟨sound.fits.move there goes stays, owned, ?_, fun other => ?_, sound.ret, ?_, sound.defined⟩
  · rw [main none nofun]
    exact sound.main
  · rcases eq_or_ne other thread with rfl | different
    · rw [Function.update_self]
      dsimp only
      rw [Function.update_self]
      exact stage
    · have apart : some other ≠ some thread := fun same => different (Option.some.inj same)
      rw [main _ apart]
      dsimp only
      rw [Function.update_of_ne different, others _ apart]
      exact sound.each other
  · dsimp only
    rw [others none nofun]
    exact sound.reports

theorem linesOf_others (output : List (Option Thread × Line)) (line : Line) :
    ∀ who ≠ some thread, linesOf who (output ++ [(some thread, line)]) = linesOf who output :=
  fun _ different => linesOf_of_ne different.symm output line

/-- A thread that has not freed its block prints a line, and goes on. -/
theorem Sound.print (sound : Sound ids before owns) (at_ : (before.client thread).place = place)
    (holds : place.holds = true) (holds' : later.holds = true) (count : later.count = place.count + 1)
    (tells : ∀ data, before.memory (before.client thread).f = some data → Good thread data →
      (said ids thread data.wert)[place.count]? = some line) :
    Sound ids ((before.move thread later).print thread line) owns := by
  subst at_
  obtain ⟨data, has, good, lines⟩ := (sound.each thread).exists_data holds
  have self : Function.update owns thread (owns thread) = owns := Function.update_eq_self ..
  rw [← self]
  refine sound.move rfl (At.under_way holds).1 (At.under_way holds).2 (At.under_way holds').1
    (linesOf_others _ line) ?_ ?_
  · rw [self]
    exact sound.owned
  · rw [linesOf_self, has]
    change Stage ids thread ⟨later, (before.client thread).f⟩ _ (linesOf thread before.output ++ [line])
    rw [lines]
    exact good.print holds' count (tells data (sound.owned.holds _ _ _ has) good)

theorem Sound.go (sound : Sound ids before owns) (moved : before.go ids thread = some after) :
    ∃ owns, Sound ids after owns := by
  have stage := sound.each thread
  unfold State.go at moved
  dsimp only at moved
  cases at_ : (before.client thread).place with
  | starting | receiving =>
      rw [at_] at moved
      cases moved
      exact ⟨owns, sound.print at_ rfl rfl rfl fun _ _ _ => rfl⟩
  | readingWert =>
      obtain ⟨data, has, -⟩ := stage.exists_data (by rw [at_]; rfl)
      have there := sound.owned.holds _ _ _ has
      simp only [at_, there, Option.some.injEq] at moved
      subst moved
      refine ⟨owns, sound.print at_ rfl rfl rfl fun data' same _ => ?_⟩
      cases there.symm.trans same
      rfl
  | readingMsg =>
      obtain ⟨data, has, -⟩ := stage.exists_data (by rw [at_]; rfl)
      have there := sound.owned.holds _ _ _ has
      simp only [at_, there, Option.some.injEq] at moved
      subst moved
      refine ⟨owns, sound.print at_ rfl rfl rfl fun data' same good => ?_⟩
      cases there.symm.trans same
      rw [good.msg]
      rfl
  | handling =>
      rw [at_] at moved
      cases moved
      exact ⟨owns, sound.print at_ rfl rfl rfl fun _ _ _ => rfl⟩
  | freeing =>
      obtain ⟨data, has, good, lines⟩ := stage.exists_data (by rw [at_]; rfl)
      have there := sound.owned.holds _ _ _ has
      simp only [at_, there, Option.some.injEq] at moved
      subst moved
      refine ⟨_, sound.move at_ nofun nofun nofun (fun _ _ => rfl) (sound.owned.free has) ?_⟩
      rw [at_] at lines
      change Stage ids thread ⟨.reporting, _⟩ none (linesOf thread before.output)
      rw [lines]
      exact .freed (.inl rfl) good.low good.high
  | reporting =>
      rw [at_] at moved
      cases moved
      obtain ⟨without, wert, low, high, lines⟩ := stage.exists_wert (.inl at_)
      have self : Function.update owns thread (owns thread) = owns := Function.update_eq_self ..
      refine ⟨_, sound.move at_ nofun nofun nofun (linesOf_others _ _)
        (self.symm ▸ sound.owned) ?_⟩
      rw [at_] at lines
      rw [linesOf_self, without]
      change Stage ids thread ⟨.done, _⟩ none (linesOf thread before.output ++ [.freigegeben])
      rw [lines]
      exact .freed (.inr rfl) low high
  | absent | done =>
      rw [at_] at moved
      cases moved

theorem MainAt.Owns.free {i : ℕ} (stage : Owns (.allocating i) has) : has = none := by
  cases stage
  rfl

theorem MainAt.Owns.draws {i : ℕ} (stage : Owns (.drawing i f) has) :
    ∃ data, has = some (f, data) := by
  cases stage
  exact ⟨_, rfl⟩

theorem MainAt.Owns.names {i : ℕ} (stage : Owns (.naming i f) has) :
    ∃ data, has = some (f, data) ∧ 1 ≤ data.wert ∧ data.wert ≤ 10 := by
  cases stage with
  | naming low high => exact ⟨_, rfl, low, high⟩

theorem MainAt.Owns.creates {i : ℕ} (stage : Owns (.creating i f) has) :
    ∃ data, has = some (f, data) ∧ Good i data := by
  cases stage with
  | creating good => exact ⟨_, rfl, good⟩

theorem MainAt.Owns.joins {i : ℕ} (stage : Owns (.joining i) has) : has = none := by
  cases stage
  rfl

theorem MainAt.Owns.reports {i : ℕ} (stage : Owns (.reporting i) has) : has = none := by
  cases stage
  rfl

/-- The number that is drawn is one from 1 to 10. -/
theorem drawn_mem {number : ℕ} (most : number ≤ randMax) : 1 ≤ drawn number ∧ drawn number ≤ 10 := by
  have less : 10 * number / (randMax + 1) < 10 := by
    rw [Nat.div_lt_iff_lt_mul (Nat.succ_pos _)]
    omega
  unfold drawn
  generalize 10 * number / (randMax + 1) = quotient at less ⊢
  omega

/-- `main` does something with its block. -/
theorem Sound.own {memory : Allocation Address Data} (sound : Sound ids before owns)
    (main : MainAt) (fits : main.Fits before.client) (joined : main.joined = before.main.joined)
    (reported : main.reported = before.main.reported)
    (owned : Owned memory (Function.update owns none has)) (stage : main.Owns has) :
    Sound ids { before with main, memory } (Function.update owns none has) := by
  refine ⟨fits, owned, ?_, fun thread => ?_, ?_, ?_, sound.defined⟩
  · rw [Function.update_self]
    exact stage
  · rw [Function.update_of_ne (Option.some_ne_none thread)]
    exact sound.each thread
  · dsimp only
    rw [joined]
    exact sound.ret
  · dsimp only
    rw [reported]
    exact sound.reports

/-- It writes to it. -/
theorem Sound.store {main : MainAt} {change : Data → Data} (sound : Sound ids before owns)
    (has : owns none = some (f, data)) (fits : main.Fits before.client)
    (joined : main.joined = before.main.joined) (reported : main.reported = before.main.reported)
    (stage : main.Owns (some (f, change data))) :
    ∃ owns, Sound ids { before.store f change with main } owns := by
  have there := sound.owned.holds _ _ _ has
  have stored : before.store f change =
      { before with memory := Function.update before.memory f (some (change data)) } := by
    rw [State.store, there]
  rw [stored]
  exact ⟨_, sound.own _ fits joined reported (sound.owned.store has (change data)) stage⟩

/-- `main` goes on without its block. -/
theorem Sound.pass (sound : Sound ids before owns) (main : MainAt)
    (fits : main.Fits before.client) (joined : main.joined = before.main.joined)
    (reported : main.reported = before.main.reported)
    (stage : main.Owns (owns none)) : Sound ids { before with main } owns := by
  have self : Function.update owns none (owns none) = owns := Function.update_eq_self ..
  have passed := sound.own main fits joined reported (self.symm ▸ sound.owned) stage
  rw [self] at passed
  exact passed

/-- `pthread_create` leaves the block to the thread. -/
theorem Sound.create {i : ℕ} (sound : Sound ids before owns) (at_ : before.main = .creating i f)
    (inside : i < maxThreads) : ∃ owns, Sound ids { before with
      main := .allocating (i + 1)
      client := Function.update before.client ⟨i, inside⟩ ⟨.starting, f⟩ } owns := by
  obtain ⟨fits, owned, main, each, ret, reports, defined⟩ := sound
  rw [at_] at fits main ret reports
  obtain ⟨data, has, good⟩ := main.creates
  have absent : (before.client ⟨i, inside⟩).place = .absent := (fits.2 _).mpr (Nat.le_refl i)
  obtain ⟨without, nothing⟩ := (each ⟨i, inside⟩).of_absent absent
  refine ⟨_, ⟨⟨inside, fun other => ?_⟩, owned.give has without, ?_, fun other => ?_, ret, reports,
    defined⟩⟩
  · dsimp only
    rcases eq_or_ne other ⟨i, inside⟩ with rfl | different
    · rw [Function.update_self]
      exact ⟨nofun, fun less => absurd less (Nat.lt_irrefl i)⟩
    · have apart : other.val ≠ i := fun same => different (Fin.ext same)
      rw [Function.update_of_ne different, fits.2 other]
      omega
  · rw [Function.update_of_ne (Option.some_ne_none _).symm, Function.update_self]
    exact .allocating
  · dsimp only
    rcases eq_or_ne other ⟨i, inside⟩ with rfl | different
    · rw [Function.update_self, Function.update_self, nothing]
      exact @Stage.holding ids ⟨i, inside⟩ .starting f data rfl good
    · rw [Function.update_of_ne different,
        Function.update_of_ne fun same => different (Option.some.inj same),
        Function.update_of_ne (Option.some_ne_none other)]
      exact each other

/-- `pthread_join` for this thread. -/
theorem Sound.join {i : ℕ} (sound : Sound ids before owns) (at_ : before.main = .joining i)
    (inside : i < maxThreads) (done : (before.client ⟨i, inside⟩).place = .done) :
    Sound ids { before with main := .joining (i + 1), ret := before.ret ++ [ids ⟨i, inside⟩] }
      owns := by
  obtain ⟨fits, owned, main, each, ret, reports, defined⟩ := sound
  rw [at_] at fits main ret reports
  refine ⟨fun thread => ⟨(fits thread).1, fun less => ?_⟩, owned, ?_, each, ?_, reports, defined⟩
  · rcases Nat.lt_succ_iff_lt_or_eq.mp less with earlier | same
    · exact (fits thread).2 earlier
    · obtain rfl : thread = ⟨i, inside⟩ := Fin.ext same
      exact done
  · rw [main.joins]
    exact .joining
  · have here : (List.ofFn ids)[i]? = some (ids ⟨i, inside⟩) := by
      rw [List.getElem?_ofFn, dif_pos inside]
    dsimp only
    rw [MainAt.joined, take_succ_of_some here, ret]
    rfl

theorem take_ids (ids : Thread → ℤ) {i : ℕ} (all : maxThreads ≤ i) :
    (List.ofFn ids).take i = List.ofFn ids :=
  List.take_of_length_le (Nat.le_trans (Nat.le_of_eq List.length_ofFn) all)

/-- All threads have been joined. -/
theorem Sound.joinedAll {i : ℕ} (sound : Sound ids before owns) (at_ : before.main = .joining i)
    (all : maxThreads ≤ i) : Sound ids { before with main := .reporting 0 } owns := by
  obtain ⟨fits, owned, main, each, ret, reports, defined⟩ := sound
  rw [at_] at fits main ret reports
  refine ⟨fun thread => (fits thread).2 (Nat.lt_of_lt_of_le thread.isLt all), owned, ?_, each, ?_,
    reports, defined⟩
  · rw [main.joins]
    exact .reporting
  · dsimp only
    rw [ret, MainAt.joined, MainAt.joined, take_ids ids all, take_ids ids (Nat.le_refl _)]

/-- `main` reports a thread. -/
theorem Sound.report {i : ℕ} {id : ℤ} (sound : Sound ids before owns)
    (at_ : before.main = .reporting i) (found : before.ret[i]? = some id) :
    Sound ids { before.print none (.fertig id) with main := .reporting (i + 1) } owns := by
  obtain ⟨fits, owned, main, each, ret, reports, defined⟩ := sound
  rw [at_] at fits main ret reports
  rw [ret, MainAt.joined, take_ids ids (Nat.le_refl _)] at found
  refine ⟨fits, owned, ?_, fun thread => ?_, ret, ?_, defined⟩
  · rw [main.reports]
    exact .reporting
  · have same := linesOf_of_ne (Option.some_ne_none thread).symm before.output (.fertig id)
    exact same ▸ each thread
  · refine (linesOf_self none before.output (.fertig id)).trans ?_
    rw [reports, MainAt.reported, MainAt.reported, take_succ_of_some found, List.map_append]
    rfl

/-- All threads have been reported. -/
theorem Sound.finish {i : ℕ} (sound : Sound ids before owns) (at_ : before.main = .reporting i)
    (nothing : before.ret[i]? = none) :
    Sound ids { before with main := .ended .exitSuccess } owns := by
  obtain ⟨fits, owned, main, each, ret, reports, defined⟩ := sound
  rw [at_] at fits main ret reports
  rw [ret, MainAt.joined, take_ids ids (Nat.le_refl _), List.getElem?_eq_none_iff] at nothing
  refine ⟨fits, owned, ?_, each, ret, ?_, defined⟩
  · rw [main.reports]
    exact .ended
  · dsimp only
    rw [reports, MainAt.reported, MainAt.reported, List.take_of_length_le nothing,
      take_ids ids (Nat.le_refl _)]

theorem Sound.goMain (sound : Sound ids before owns) (moved : before.goMain ids = some after) :
    ∃ owns, Sound ids after owns := by
  have fits := sound.fits
  have main := sound.main
  unfold State.goMain at moved
  cases at_ : before.main with
  | allocating i =>
      rw [at_] at fits main moved
      dsimp only at moved
      split at moved
      · cases moved
      · rename_i outside
        cases moved
        refine ⟨owns, sound.pass (.joining 0) (fun thread => ⟨fun absent => ?_, nofun⟩) ?_ ?_ ?_⟩
        · exact outside (Nat.lt_of_le_of_lt ((fits.2 thread).mp absent) thread.isLt)
        · rw [at_]
          rfl
        · rw [at_]
          rfl
        · rw [main.free]
          exact .joining
  | naming i f =>
      rw [at_] at fits main moved
      cases moved
      obtain ⟨data, has, low, high⟩ := main.names
      exact sound.store has fits (by rw [at_]; rfl) (by rw [at_]; rfl) (.creating ⟨low, high, rfl⟩)
  | creating i f =>
      rw [at_] at moved
      dsimp only at moved
      split at moved
      · cases moved
        exact sound.create at_ _
      · cases moved
  | joining i =>
      rw [at_] at moved
      dsimp only at moved
      split at moved
      · split at moved
        · rename_i done
          cases moved
          exact ⟨_, sound.join at_ _ done⟩
        · cases moved
      · rename_i outside
        cases moved
        exact ⟨_, sound.joinedAll at_ (Nat.le_of_not_lt outside)⟩
  | reporting i =>
      rw [at_] at moved
      dsimp only at moved
      split at moved
      · rename_i found
        cases moved
        exact ⟨_, sound.report at_ found⟩
      · rename_i nothing
        cases moved
        exact ⟨_, sound.finish at_ nothing⟩
  | drawing | ended =>
      rw [at_] at moved
      cases moved

theorem Sound.next {action : Action} (sound : Sound ids before owns)
    (moved : next ids before action = some after) : ∃ owns, Sound ids after owns := by
  have fits := sound.fits
  have main := sound.main
  cases action with
  | main => exact sound.goMain moved
  | malloc address data =>
      simp only [ThreadArguments.next] at moved
      split at moved
      · rename_i i at_
        split at moved
        · rename_i free
          cases moved
          rw [at_] at fits main
          exact ⟨_, sound.own (.drawing i address) ⟨free.1, fits.2⟩ (by rw [at_]; rfl)
            (by rw [at_]; rfl) (sound.owned.malloc free.2 main.free data) .drawing⟩
        · cases moved
      · cases moved
  | mallocFails =>
      simp only [ThreadArguments.next] at moved
      split at moved
      · rename_i i at_
        split at moved
        · cases moved
          exact ⟨_, sound.pass (.ended .exitFailure) trivial (by rw [at_]; rfl)
            (by rw [at_]; rfl) .failed⟩
        · cases moved
      · cases moved
  | rand number =>
      simp only [ThreadArguments.next] at moved
      split at moved
      · rename_i i f at_
        split at moved
        · rename_i most
          cases moved
          rw [at_] at fits main
          obtain ⟨data, has⟩ := main.draws
          obtain ⟨low, high⟩ := drawn_mem most
          exact sound.store has fits (by rw [at_]; rfl) (by rw [at_]; rfl) (.naming low high)
        · cases moved
      · cases moved
  | createFails =>
      simp only [ThreadArguments.next] at moved
      split at moved
      · rename_i at_
        cases moved
        exact ⟨_, sound.pass (.ended .exitFailure) trivial (by rw [at_]; rfl)
          (by rw [at_]; rfl) .failed⟩
      · cases moved
  | thread thread =>
      simp only [ThreadArguments.next] at moved
      split at moved
      · cases moved
      · exact sound.go moved

theorem sound_start (ids : Thread → ℤ) : Sound ids start fun _ => none where
  fits := ⟨Nat.zero_le _, fun _ => ⟨fun _ => Nat.zero_le _, fun _ => rfl⟩⟩
  owned := owned_nothing
  main := .allocating
  each _ := .absent
  ret := rfl
  reports := rfl
  defined := rfl

theorem sound_invariant (ids : Thread → ℤ) :
    (thread1 ids).Invariant fun state => ∃ owns, Sound ids state owns where
  initial := by
    rintro _ rfl
    exact ⟨_, sound_start ids⟩
  step := by
    rintro before action after ⟨owns, sound⟩ moved
    exact sound.next moved

/-! ## Every run ends -/

def MainAt.left : MainAt → ℕ
  | .allocating i => 4 * (maxThreads - i) + (2 * maxThreads + 3)
  | .drawing i _ => 4 * (maxThreads - i) + (2 * maxThreads + 2)
  | .naming i _ => 4 * (maxThreads - i) + (2 * maxThreads + 1)
  | .creating i _ => 4 * (maxThreads - i) + 2 * maxThreads
  | .joining i => maxThreads - i + (maxThreads + 2)
  | .reporting i => maxThreads - i + 1
  | .ended _ => 0

def At.left : At → ℕ
  | .absent => 8
  | .starting => 7
  | .receiving => 6
  | .readingWert => 5
  | .readingMsg => 4
  | .handling => 3
  | .freeing => 2
  | .reporting => 1
  | .done => 0

def Client.left (client : Client) : ℕ :=
  client.place.left

/-- How many steps are left, at most. -/
def State.left (state : State) : ℕ :=
  state.main.left + ∑ thread, (state.client thread).left

/-- A thread has come further. -/
theorem left_lt_of_client {client : Client} (main : after.main.left ≤ before.main.left)
    (moves : after.client = Function.update before.client thread client)
    (lighter : client.left < (before.client thread).left) : after.left < before.left := by
  rw [State.left, State.left, moves]
  exact Nat.add_lt_add_of_le_of_lt main (sum_update_lt lighter)

/-- `main` has come further. -/
theorem left_lt_of_main (same : after.client = before.client)
    (lighter : after.main.left < before.main.left) : after.left < before.left := by
  rw [State.left, State.left, same]
  exact Nat.add_lt_add_right lighter _

theorem left_go (sound : Sound ids before owns) (moved : before.go ids thread = some after) :
    after.left < before.left := by
  have stage := sound.each thread
  unfold State.go at moved
  dsimp only at moved
  cases at_ : (before.client thread).place with
  | starting | receiving | handling | reporting =>
      rw [at_] at moved
      cases moved
      refine left_lt_of_client (Nat.le_refl _) rfl ?_
      rw [Client.left, Client.left, at_]
      exact Nat.lt_succ_self _
  | readingWert | readingMsg | freeing =>
      obtain ⟨data, has, -⟩ := stage.exists_data (by rw [at_]; rfl)
      have there := sound.owned.holds _ _ _ has
      simp only [at_, there, Option.some.injEq] at moved
      subst moved
      refine left_lt_of_client (Nat.le_refl _) rfl ?_
      rw [Client.left, Client.left, at_]
      exact Nat.lt_succ_self _
  | absent | done =>
      rw [at_] at moved
      cases moved

theorem State.client_store (state : State) (address : Address) (change : Data → Data) :
    (state.store address change).client = state.client := by
  unfold State.store
  split <;> rfl

theorem left_goMain (sound : Sound ids before owns) (moved : before.goMain ids = some after) :
    after.left < before.left := by
  have fits := sound.fits
  have ret := sound.ret
  unfold State.goMain at moved
  cases at_ : before.main with
  | allocating i =>
      rw [at_] at moved
      dsimp only at moved
      split at moved
      · cases moved
      · cases moved
        refine left_lt_of_main rfl ?_
        rw [at_]
        simp only [MainAt.left]
        omega
  | naming i f =>
      rw [at_] at moved
      cases moved
      refine left_lt_of_main (before.client_store ..) ?_
      rw [at_]
      exact Nat.lt_succ_self _
  | creating i f =>
      rw [at_] at moved fits
      dsimp only at moved
      split at moved
      · rename_i inside
        cases moved
        have absent : (before.client ⟨i, inside⟩).place = .absent := (fits.2 _).mpr (Nat.le_refl i)
        refine left_lt_of_client ?_ rfl ?_
        · rw [at_]
          simp only [MainAt.left]
          omega
        · rw [Client.left, Client.left, absent]
          exact Nat.lt_succ_self _
      · cases moved
  | joining i =>
      rw [at_] at moved
      dsimp only at moved
      split at moved
      · split at moved
        · cases moved
          refine left_lt_of_main rfl ?_
          rw [at_]
          simp only [MainAt.left]
          omega
        · cases moved
      · cases moved
        refine left_lt_of_main rfl ?_
        rw [at_]
        simp only [MainAt.left]
        omega
  | reporting i =>
      rw [at_] at moved ret
      dsimp only at moved
      split at moved
      · rename_i found
        cases moved
        have inside : i < maxThreads := by
          rw [ret, MainAt.joined, take_ids ids (Nat.le_refl _)] at found
          exact Nat.lt_of_lt_of_le (List.getElem?_eq_some_iff.mp found).1
            (Nat.le_of_eq List.length_ofFn)
        refine left_lt_of_main rfl ?_
        rw [at_]
        simp only [MainAt.left]
        omega
      · cases moved
        refine left_lt_of_main rfl ?_
        rw [at_]
        exact Nat.succ_pos _
  | drawing | ended =>
      rw [at_] at moved
      cases moved

theorem left_next {action : Action} (sound : Sound ids before owns)
    (moved : next ids before action = some after) : after.left < before.left := by
  cases action with
  | main => exact left_goMain sound moved
  | malloc address data =>
      simp only [next] at moved
      split at moved
      · rename_i i at_
        split at moved
        · cases moved
          refine left_lt_of_main rfl ?_
          rw [at_]
          exact Nat.lt_succ_self _
        · cases moved
      · cases moved
  | mallocFails =>
      simp only [next] at moved
      split at moved
      · rename_i i at_
        split at moved
        · cases moved
          refine left_lt_of_main rfl ?_
          rw [at_]
          exact Nat.succ_pos _
        · cases moved
      · cases moved
  | rand number =>
      simp only [next] at moved
      split at moved
      · rename_i i f at_
        split at moved
        · cases moved
          refine left_lt_of_main (before.client_store ..) ?_
          rw [at_]
          exact Nat.lt_succ_self _
        · cases moved
      · cases moved
  | createFails =>
      simp only [next] at moved
      split at moved
      · rename_i at_
        cases moved
        refine left_lt_of_main rfl ?_
        rw [at_]
        exact Nat.lt_of_lt_of_le (show 0 < 2 * maxThreads by decide) (Nat.le_add_left _ _)
      · cases moved
  | thread thread =>
      simp only [next] at moved
      split at moved
      · cases moved
      · exact left_go sound moved

/-! ## What is promised -/

/-- What is promised for a state. -/
structure Passed (ids : Thread → ℤ) (state : State) : Prop where
  /-- nobody uses memory that is not there -/
  defined : state.undefined = false
  /-- a thread prints what has been meant for it -/
  lines : ∀ thread : Thread, ∃ wert, 1 ≤ wert ∧ wert ≤ 10 ∧
    linesOf thread state.output = (said ids thread wert).take (state.client thread).place.count
  /-- a thread has its block until it frees it, and nobody else has this block -/
  blocks : ∀ thread, (state.client thread).place.holds → ∃ data,
    state.memory (state.client thread).f = some data ∧ data.msg = text thread ∧
      ∀ other, (state.client other).place.holds → (state.client other).f = (state.client thread).f →
        other = thread
  /-- something can happen as long as `main` has not ended -/
  goesOn : (∃ action after, next ids state action = some after) ∨ ∃ status, state.main = .ended status
  /-- when `main` ends well, all have printed their lines, and nothing is left -/
  ended : state.main = .ended .exitSuccess → (∀ thread, (state.client thread).place = .done) ∧
    linesOf none state.output = (List.ofFn ids).map .fertig ∧ ∀ address, state.memory address = none

theorem Stage.printed {client : Client} (stage : Stage ids thread client has lines) :
    ∃ wert, 1 ≤ wert ∧ wert ≤ 10 ∧ lines = (said ids thread wert).take client.place.count := by
  cases stage with
  | absent => exact ⟨1, Int.le_refl 1, by decide, rfl⟩
  | @holding _ _ data _ good => exact ⟨data.wert, good.low, good.high, rfl⟩
  | @freed _ _ wert _ low high => exact ⟨wert, low, high, rfl⟩

/-- A thread that `main` waits for can go on. -/
theorem State.goesOn_go (ids : Thread → ℤ) (there : (state.client thread).place ≠ .absent)
    (under : (state.client thread).place ≠ .done) : ∃ after, state.go ids thread = some after := by
  cases at_ : (state.client thread).place with
  | absent => exact absurd at_ there
  | done => exact absurd at_ under
  | starting | receiving | handling | reporting => exact ⟨_, by rw [State.go, at_]⟩
  | readingWert | readingMsg | freeing =>
      cases found : state.memory (state.client thread).f with
      | none => exact ⟨_, by simp only [State.go, at_, found]; rfl⟩
      | some data => exact ⟨_, by simp only [State.go, at_, found]; rfl⟩

theorem Sound.goesOn (sound : Sound ids state owns) :
    (∃ action after, ThreadArguments.next ids state action = some after) ∨
      ∃ status, state.main = .ended status := by
  have fits := sound.fits
  cases at_ : state.main with
  | allocating i =>
      left
      by_cases inside : i < maxThreads
      · exact ⟨.mallocFails, _, by simp only [ThreadArguments.next, at_]; exact if_pos inside⟩
      · exact ⟨.main, _, by rw [ThreadArguments.next, State.goMain, at_]; exact if_neg inside⟩
  | drawing i f =>
      exact .inl ⟨.rand 0, _, by simp only [ThreadArguments.next, at_]; exact if_pos (Nat.zero_le _)⟩
  | naming i f => exact .inl ⟨.main, _, by rw [ThreadArguments.next, State.goMain, at_]⟩
  | creating i f => exact .inl ⟨.createFails, _, by simp only [ThreadArguments.next, at_]; rfl⟩
  | joining i =>
      left
      rw [at_] at fits
      by_cases inside : i < maxThreads
      · by_cases done : (state.client ⟨i, inside⟩).place = .done
        · exact ⟨.main, _, by
            rw [ThreadArguments.next, State.goMain, at_]
            exact (dif_pos inside).trans (if_pos done)⟩
        · obtain ⟨after, goes⟩ := State.goesOn_go ids (fits _).1 done
          exact ⟨.thread ⟨i, inside⟩, after, by simp only [ThreadArguments.next, at_]; exact goes⟩
      · exact ⟨.main, _, by rw [ThreadArguments.next, State.goMain, at_]; exact dif_neg inside⟩
  | reporting i =>
      left
      cases found : state.ret[i]? with
      | none => exact ⟨.main, _, by simp only [ThreadArguments.next, State.goMain, at_, found]; rfl⟩
      | some id => exact ⟨.main, _, by simp only [ThreadArguments.next, State.goMain, at_, found]; rfl⟩
  | ended status => exact .inr ⟨status, rfl⟩

theorem Sound.nobody (sound : Sound ids state owns) (ended : state.main = .ended .exitSuccess) :
    (∀ thread, (state.client thread).place = .done) ∧ ∀ who, owns who = none := by
  have fits := sound.fits
  have main := sound.main
  rw [ended] at fits main
  refine ⟨fits, fun who => ?_⟩
  cases who with
  | none =>
      generalize owns none = has at main
      cases main
      rfl
  | some thread => exact ((sound.each thread).exists_wert (.inr (fits thread))).1

theorem Sound.passed (sound : Sound ids state owns) : Passed ids state where
  defined := sound.defined
  lines thread := (sound.each thread).printed
  blocks thread holds := by
    obtain ⟨data, has, good, -⟩ := (sound.each thread).exists_data holds
    refine ⟨data, sound.owned.holds _ _ _ has, good.msg, fun other holds' same => ?_⟩
    obtain ⟨data', has', -⟩ := (sound.each other).exists_data holds'
    rw [same] at has'
    exact Option.some.inj (sound.owned.apart _ _ _ _ _ has' has)
  goesOn := sound.goesOn
  ended finished := by
    obtain ⟨done, nobody⟩ := sound.nobody finished
    refine ⟨done, ?_, sound.owned.eq_none_of_nobody nobody⟩
    have reports := sound.reports
    rw [finished, MainAt.reported, take_ids ids (Nat.le_refl _)] at reports
    exact reports

/-- **Each thread has a block of its own.** In every order of the steps, and whichever addresses are
given out again, a thread finds what has been meant for it, nobody uses a block that is not there, the
program comes to its end, and nothing is left then. -/
theorem passed_of_reachable (reached : (thread1 ids).Reachable state) :
    Passed ids state ∧ (thread1 ids).Terminates state :=
  ⟨((sound_invariant ids).reachable reached).elim fun _ => Sound.passed,
    (sound_invariant ids).terminates State.left (fun _ _ _ ⟨_, sound⟩ => left_next sound)
      ((sound_invariant ids).reachable reached)⟩

/-- A thread goes from its start to its end. -/
def whole (thread : Thread) : List Action :=
  List.replicate 7 (.thread thread)

/-- `main` starts a thread. -/
def create (address : Address) (number : ℕ) : List Action :=
  [.malloc address ⟨0, []⟩, .rand number, .main, .main]

/-- Two threads one after the other get the same block. -/
def again : List Action :=
  create 7 randMax ++ whole ⟨0, by decide⟩ ++ create 7 0 ++ whole ⟨1, by decide⟩ ++ create 8 5 ++
    whole ⟨2, by decide⟩ ++ List.replicate 9 .main

theorem passed_again : ∃ state, (thread1 fun thread => thread).Reachable state ∧
    state.main = .ended .exitSuccess ∧ (∀ address, state.memory address = none) ∧
    linesOf none state.output = [.fertig 0, .fertig 1, .fertig 2] := by
  have executed : (run (next fun thread => thread) start again).map State.main =
      some (.ended .exitSuccess) := by decide +kernel
  obtain ⟨state, ran, ended⟩ := Option.map_eq_some_iff.mp executed
  have reached : (thread1 fun thread => thread).Reachable state := .of_execution (.initial rfl) ran
  obtain ⟨-, reports, nothing⟩ := (passed_of_reachable reached).1.ended ended
  exact ⟨state, reached, ended, nothing, reports⟩

end LinuxUnix.ThreadArguments

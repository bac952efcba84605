import LinuxUnix.Foundation.LineInput
import LinuxUnix.Foundation.TransitionSystem
import Mathlib.Data.List.Basic

/-! # The chat programs

`server1` and `client1`, and over a local socket `uds_server` and `uds_client`, exchange lines:
the server sends a line and receives one, the client receives one and sends one. Both loops end
when `buffer` holds the line `quit`; the buffer is that of the line sent as well as that of the
line received. What a side has sent is a stream of bytes, of which `recv` takes as many as there
happen to be.

One session is modelled, from the `accept` of the server to the end of both loops, with any
contents of the buffers at the start. Either program can be ended at any time.
-/

namespace LinuxUnix.Chat

open CMemory TransitionSystem

/-- `BUF` -/
def buf : ℕ := 1024

/-- `"quit\n"` -/
def quitLine : List Byte :=
  ['q'.toUInt8, 'u'.toUInt8, 'i'.toUInt8, 't'.toUInt8, 10]

inductive Side
  | server
  | client
  deriving DecidableEq

def Side.other : Side → Side
  | .server => .client
  | .client => .server

/-- Where a program is in its loop. -/
inductive Place
  /-- before `fgets` -/
  | reading
  | sending
  /-- in `recv` -/
  | receiving
  /-- before the `printf` of what has been received -/
  | printing
  /-- before the condition around `fgets` and `send` -/
  | testing
  /-- before the condition of the loop -/
  | deciding
  /-- behind the loop, before `close` -/
  | left
  | closed
  deriving DecidableEq

/-- What distinguishes the programs: where the loop starts, and where they go after `send` and
after the `printf` of what has been received. -/
structure Program where
  first : Place
  afterSend : Place
  afterPrint : Place

def server1 : Program where
  first := .reading
  afterSend := .receiving
  afterPrint := .deciding

def client1 : Program where
  first := .receiving
  afterSend := .deciding
  afterPrint := .testing

def udsServer : Program where
  first := .reading
  afterSend := .receiving
  afterPrint := .deciding

def udsClient : Program where
  first := .receiving
  afterSend := .deciding
  afterPrint := .testing

/-- The two pairs of programs. -/
inductive Pair
  | inet
  | uds

def Pair.program : Pair → Side → Program
  | .inet, .server => server1
  | .inet, .client => client1
  | .uds, .server => udsServer
  | .uds, .client => udsClient

/-- A program: its buffer, what is still to be typed, the number of rounds of the loop
behind it, the lines that `fgets` has delivered, and the texts that have been sent,
received, and printed as received. -/
structure Process where
  place : Place
  buffer : List Byte
  stdin : List Byte
  round : ℕ
  lines : List (List Byte)
  sent : List (List Byte)
  received : List (List Byte)
  printed : List (List Byte)

/-- The two programs, the bytes that each has sent and the other one has not received, and the
order in which they have sent. -/
structure State where
  process : Side → Process
  stream : Side → List Byte
  sends : List Side

inductive Action
  /-- `fgets` delivers a line or returns `NULL` -/
  | fgets (side : Side) (delivers : Bool)
  /-- so many bytes of the text get into the stream, none if `send` fails -/
  | send (side : Side) (count : ℕ)
  /-- the return value of `recv`, if it is not -1 -/
  | recv (side : Side) (size : Option ℕ)
  /-- a step that depends on nothing but the program -/
  | go (side : Side)
  /-- the program is ended from outside, or by `SIGPIPE` -/
  | kill (side : Side)

/-- What `fgets(buffer, BUF, stdin)` reads. -/
def piece (stdin : List Byte) : List Byte :=
  LineInput.piece buf stdin

/-- `fgets` delivers a line. -/
def Process.fgets (process : Process) : Process :=
  { process with
    place := .sending
    buffer := overwrite process.buffer 0 (piece process.stdin ++ [0])
    stdin := process.stdin.drop (piece process.stdin).length
    lines := process.lines ++ [cstr (piece process.stdin)] }

/-- `send` takes so many bytes of the string in the buffer. -/
def Process.send (program : Program) (process : Process) (count : ℕ) : Process :=
  { process with
    place := program.afterSend
    sent := if count = 0 then process.sent
      else process.sent ++ [(cstr process.buffer).take count] }

/-- `recv` returns some bytes. -/
def Process.recv (process : Process) (data : List Byte) : Process :=
  { process with
    place := .printing
    buffer := overwrite process.buffer 0 (data ++ [0])
    received := process.received ++ [data] }

/-- The steps in which no call can fail. -/
def Process.go (program : Program) (process : Process) : Option Process :=
  match process.place with
  | .printing => some { process with
      place := program.afterPrint
      printed := process.printed ++ [cstr process.buffer] }
  | .testing => some { process with
      place := if cstr process.buffer = quitLine then .deciding else .reading }
  | .deciding => some (if cstr process.buffer = quitLine then { process with place := .left }
      else { process with place := program.first, round := process.round + 1 })
  | .left => some { process with place := .closed }
  | .reading | .sending | .receiving | .closed => none

/-- The state with new data of a program. -/
def State.set (state : State) (side : Side) (process : Process) : State :=
  { state with process := Function.update state.process side process }

/-- The step function of the session. `recv` returns 0 only if the other program has closed
its socket and all that it has sent has been received. -/
def next (pair : Pair) (state : State) : Action → Option State
  | .fgets side delivers =>
      if (state.process side).place = .reading then
        if delivers then
          if (state.process side).stdin ≠ [] then
            some (state.set side (state.process side).fgets)
          else none
        else some (state.set side { state.process side with place := .sending })
      else none
  | .send side count =>
      let text := cstr (state.process side).buffer
      if (state.process side).place = .sending ∧ count ≤ text.length then
        some { state.set side ((state.process side).send (pair.program side) count) with
          stream := Function.update state.stream side (state.stream side ++ text.take count)
          sends := if count = 0 then state.sends else state.sends ++ [side] }
      else none
  | .recv side none =>
      if (state.process side).place = .receiving then
        some (state.set side { state.process side with place := .printing })
      else none
  | .recv side (some 0) =>
      if (state.process side).place = .receiving ∧ state.stream side.other = [] ∧
          (state.process side.other).place = .closed then
        some (state.set side { state.process side with place := .printing })
      else none
  | .recv side (some (size + 1)) =>
      if (state.process side).place = .receiving ∧ size + 1 ≤ buf - 1 ∧
          size + 1 ≤ (state.stream side.other).length then
        some { state.set side
            ((state.process side).recv ((state.stream side.other).take (size + 1))) with
          stream := Function.update state.stream side.other
            ((state.stream side.other).drop (size + 1)) }
      else none
  | .go side => ((state.process side).go (pair.program side)).map fun process =>
      state.set side process
  | .kill side =>
      if (state.process side).place ≠ .closed then
        some (state.set side { state.process side with place := .closed })
      else none

/-- A program before its loop. -/
def Process.start (program : Program) (buffer stdin : List Byte) : Process where
  place := program.first
  buffer := buffer
  stdin := stdin
  round := 0
  lines := []
  sent := []
  received := []
  printed := []

/-- The session before its first step. -/
def start (pair : Pair) (buffer stdin : Side → List Byte) : State where
  process side := .start (pair.program side) (buffer side) (stdin side)
  stream _ := []
  sends := []

/-- The session of a pair of programs at which this is typed. -/
def chat (pair : Pair) (stdin : Side → List Byte) : TransitionSystem State Action :=
  .ofFunction (fun state => ∃ buffer, (∀ side, (buffer side).length = buf + 1) ∧
    state = start pair buffer stdin) (next pair)

/-- What is under way from a side to the other: at most one text. -/
def Carries (stream : List Byte) (sent received : List (List Byte)) : Prop :=
  0 ∉ stream ∧ (stream = [] ∧ sent = received ∨ stream ≠ [] ∧ sent = received ++ [stream])

variable {state : State} {side : Side} {process : Process} {stream : List Byte}
  {sent received : List (List Byte)}

theorem Carries.le (carries : Carries stream sent received) :
    received.length ≤ sent.length := by
  rcases carries.2 with ⟨_, same⟩ | ⟨_, same⟩
  · rw [same]
  · rw [same, List.length_append]
    exact Nat.le_add_right ..

theorem Carries.eq_nil (carries : Carries stream sent received)
    (arrived : sent.length ≤ received.length) : stream = [] ∧ sent = received := by
  refine carries.2.resolve_right fun waiting => ?_
  rw [waiting.2, List.length_append, List.length_singleton] at arrived
  omega

/-- What a step does that depends on nothing but the program. -/
theorem go_cases {program : Program} {after : Process} (went : process.go program = some after) :
    (process.place = .printing ∧ after = { process with
      place := program.afterPrint, printed := process.printed ++ [cstr process.buffer] }) ∨
    (process.place = .testing ∧ cstr process.buffer = quitLine ∧
      after = { process with place := .deciding }) ∨
    (process.place = .testing ∧ cstr process.buffer ≠ quitLine ∧
      after = { process with place := .reading }) ∨
    (process.place = .deciding ∧ cstr process.buffer = quitLine ∧
      after = { process with place := .left }) ∨
    (process.place = .deciding ∧ cstr process.buffer ≠ quitLine ∧
      after = { process with place := program.first, round := process.round + 1 }) ∨
    (process.place = .left ∧ after = { process with place := .closed }) := by
  cases place : process.place with
  | printing =>
      simp only [Process.go, place, Option.some.injEq] at went
      exact .inl ⟨rfl, went.symm⟩
  | testing =>
      simp only [Process.go, place, Option.some.injEq] at went
      by_cases quit : cstr process.buffer = quitLine
      · rw [if_pos quit] at went
        exact .inr (.inl ⟨rfl, quit, went.symm⟩)
      · rw [if_neg quit] at went
        exact .inr (.inr (.inl ⟨rfl, quit, went.symm⟩))
  | deciding =>
      simp only [Process.go, place, Option.some.injEq] at went
      by_cases quit : cstr process.buffer = quitLine
      · rw [if_pos quit] at went
        exact .inr (.inr (.inr (.inl ⟨rfl, quit, went.symm⟩)))
      · rw [if_neg quit] at went
        exact .inr (.inr (.inr (.inr (.inl ⟨rfl, quit, went.symm⟩))))
  | left =>
      simp only [Process.go, place, Option.some.injEq] at went
      exact .inr (.inr (.inr (.inr (.inr ⟨rfl, went.symm⟩))))
  | reading | sending | receiving | closed =>
      simp only [Process.go, place] at went
      cases went

@[simp] theorem Side.other_other (side : Side) : side.other.other = side := by
  cases side <;> rfl

theorem Side.other_ne (side : Side) : side.other ≠ side := by
  cases side <;> nofun

@[simp] theorem process_set_self (state : State) (side : Side) (process : Process) :
    (state.set side process).process side = process :=
  Function.update_self ..

theorem process_set_of_ne {other : Side} (different : other ≠ side) :
    (state.set side process).process other = state.process other :=
  Function.update_of_ne different _ _

theorem Side.eq_other_of_ne {other : Side} (different : other ≠ side) : other = side.other := by
  cases side <;> cases other <;> first | rfl | exact absurd rfl different

@[simp] theorem process_set_other (state : State) (side : Side) (process : Process) :
    (state.set side process).process side.other = state.process side.other :=
  Function.update_of_ne side.other_ne _ _

end LinuxUnix.Chat

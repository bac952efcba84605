import LinuxUnix.Foundation.CMemory
import LinuxUnix.Foundation.TransitionSystem
import Mathlib.Data.Finset.Card
import Mathlib.Data.Fintype.Basic

/-! # The select server

`multi_server` serves its listening socket and all its clients from one loop
around `select`. A round of the loop (`LinuxUnix.MultiServer.round`) takes what
`select` left in `lese_sock`, what `accept` returned and what `recv` delivers for
each descriptor, and yields the variables at the next `select` with the calls it
made, or the error that ended the server.
-/

namespace LinuxUnix.MultiServer

open CMemory

/-- `FD_SETSIZE` -/
@[irreducible] def fdSetSize : ℕ := 1024

/-- `BUF` -/
def buf : ℕ := 1024

/-- The variables of `main` at its `select` call, with the descriptors that are
open in the process. -/
structure State where
  sock1 : ℕ
  clientSock : Fin fdSetSize → ℤ
  gesamtSock : Finset ℕ
  sockMax : ℕ
  max : ℤ
  buffer : List Byte
  opened : Finset ℕ

/-- What the system calls of one round return: the descriptors `select` leaves
and their number, the descriptor of `accept` and the bytes of `recv` on each
descriptor, where a call that failed returns none. -/
structure Round where
  leseSock : Finset ℕ
  ready : ℤ
  accepted : Option ℕ
  received : ℕ → Option (List Byte)

/-- The calls and outputs of a round that the other parties can see. -/
inductive Call
  | accept
  | recv (sock : ℕ)
  | print (text : List Byte)
  | close (sock : ℕ)
  deriving DecidableEq

/-- The places from which `error_exit` is called. -/
inductive ErrorExit
  | accept
  | overload
  | recv
  deriving DecidableEq

/-- The message printed before `exit(EXIT_FAILURE)`. -/
def ErrorExit.message : ErrorExit → String
  | .accept => "Fehler bei accept()"
  | .overload => "Server ueberlaset -- zu viele Clients"
  | .recv => "Fehler bei recv()"

/-- What a sequence of two steps returns comes through a result of the first. -/
theorem exists_of_bind_eq_ok {Value Result : Type} {first : Except ErrorExit Value}
    {second : Value → Except ErrorExit Result} {result : Result}
    (returned : first >>= second = .ok result) :
    ∃ value, first = .ok value ∧ second value = .ok result := by
  cases first with
  | error failure => cases returned
  | ok value => exact ⟨value, rfl, returned⟩

/-- A round under way: the variables, the calls made and the count of `ready`
descriptors left. -/
structure Progress where
  state : State
  calls : List Call
  ready : ℤ

/-- The first slot without a client. -/
def freeSlot (clientSock : Fin fdSetSize → ℤ) : Option (Fin fdSetSize) :=
  (List.finRange fdSetSize).find? fun i => clientSock i < 0

/-- A new client enters the tables at a slot. -/
def State.enter (state : State) (i : Fin fdSetSize) (sock2 : ℕ) : State :=
  { state with
    clientSock := Function.update state.clientSock i sock2
    gesamtSock := insert sock2 state.gesamtSock
    sockMax := if sock2 > state.sockMax then sock2 else state.sockMax
    max := if (i : ℤ) > state.max then i else state.max
    opened := insert sock2 state.opened }

/-- The client of a slot leaves the tables and its descriptor is closed. -/
def State.remove (state : State) (i : Fin fdSetSize) (sock3 : ℕ) : State :=
  { state with
    clientSock := Function.update state.clientSock i (-1)
    gesamtSock := state.gesamtSock.erase sock3
    opened := state.opened.erase sock3 }

/-- `accept_socket` and the entry of the new client into the tables. -/
def acceptClient (accepted : Option ℕ) (state : State) : Except ErrorExit State :=
  match accepted with
  | none => .error .accept
  | some sock2 => match freeSlot state.clientSock with
    | none => .error .overload
    | some i => .ok (state.enter i sock2)

/-- `TCP_recv`: the buffer with the bytes received and the NUL behind them. -/
def tcpRecv (received : Option (List Byte)) (buffer : List Byte) :
    Except ErrorExit (List Byte) :=
  match received with
  | none => .error .recv
  | some data => .ok (overwrite buffer 0 (data ++ [0]))

/-- `"quit\n"` -/
def quitLine : List Byte :=
  ['q'.toUInt8, 'u'.toUInt8, 'i'.toUInt8, 't'.toUInt8, 10]

/-- One client with something to read: its message is received and printed, and
the line `quit` ends it. -/
def serveClient (round : Round) (i : Fin fdSetSize) (sock3 : ℕ) (progress : Progress) :
    Except ErrorExit Progress := do
  let buffer ← tcpRecv (round.received sock3) progress.state.buffer
  let state := { progress.state with buffer }
  let calls := progress.calls ++ [.recv sock3, .print (cstr buffer)]
  if cstr buffer = quitLine then
    return {
      state := state.remove i sock3
      calls := calls ++ [.close sock3]
      ready := progress.ready - 1 }
  else
    return { state, calls, ready := progress.ready - 1 }

/-- The loop over the slots, which ends early when no ready descriptor is left. -/
def scanClients (round : Round) : List (Fin fdSetSize) → Progress → Except ErrorExit Progress
  | [], progress => .ok progress
  | i :: slots, progress =>
      let sock3 := progress.state.clientSock i
      if sock3 < 0 then scanClients round slots progress
      else if sock3.toNat ∈ round.leseSock then do
        let served ← serveClient round i sock3.toNat progress
        if served.ready ≤ 0 then return served else scanClients round slots served
      else scanClients round slots progress

/-- The slots `0` to `max`. -/
def slotsUpTo (max : ℤ) : List (Fin fdSetSize) :=
  (List.finRange fdSetSize).filter fun i => (i : ℤ) ≤ max

/-- The body of the loop after `select` has returned. -/
def round (state : State) (round : Round) : Except ErrorExit Progress :=
  if state.sock1 ∈ round.leseSock then do
    let state ← acceptClient round.accepted state
    let progress := { state, calls := [.accept], ready := round.ready - 1 }
    if progress.ready ≤ 0 then return progress
    else scanClients round (slotsUpTo state.max) progress
  else scanClients round (slotsUpTo state.max) { state, calls := [], ready := round.ready }

/-- What a successful `select` on `gesamt_sock` returns. -/
structure Selects (state : State) (round : Round) : Prop where
  subset : round.leseSock ⊆ state.gesamtSock
  nonempty : round.leseSock.Nonempty
  ready : round.ready = round.leseSock.card

/-- The variables when `main` first calls `select`: only the listening socket is
registered, and the contents of the buffer are whatever `malloc` returned. -/
def start (sock1 : ℕ) (opened : Finset ℕ) (buffer : List Byte) : State where
  sock1
  clientSock := fun _ => -1
  gesamtSock := {sock1}
  sockMax := sock1
  max := -1
  buffer
  opened

/-- The server from one `select` call to the next. -/
def multiServer : TransitionSystem State Round where
  initial state := ∃ sock1 opened buffer, sock1 ∈ opened ∧ buffer.length = buf ∧
    state = start sock1 opened buffer
  step before input after := Selects before input ∧
    ∃ calls ready, round before input = .ok { state := after, calls, ready }

/-- `accept` returns a descriptor that is not open and that fits an `fd_set`. -/
def AcceptsFresh (state : State) (round : Round) : Prop :=
  state.sock1 ∈ round.leseSock →
    ∃ sock2, round.accepted = some sock2 ∧ sock2 ∉ state.opened ∧ sock2 < fdSetSize

/-- `recv` does not fail, and delivers at most `BUF - 1` bytes. -/
def Receives (round : Round) : Prop :=
  ∀ sock ∈ round.leseSock, ∃ data, round.received sock = some data ∧ data.length ≤ buf - 1

end LinuxUnix.MultiServer

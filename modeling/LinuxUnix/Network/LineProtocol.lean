import LinuxUnix.Network.MultiServerRound

/-! # The line protocol of the select server

Any number of `client3` processes send the lines that are typed at their terminals to
`multi_server`, one call of `send` for each line. What has been sent on a connection is a
stream of bytes, and `recv` takes as many of them as there happen to be. The server prints
what one call has taken, and compares it with the line `quit`. If a call takes two lines or
part of one, the server prints what no client has typed, or does not see the line `quit`
(`LinuxUnix.LineProtocol.not_served_of_merged`). The lines are printed as they have been typed
in exactly those runs in which every call takes one line
(`LinuxUnix.LineProtocol.linesServed_of_reachable`, `LinuxUnix.LineProtocol.served_iff_takesLines`).
-/

namespace LinuxUnix.LineProtocol

open CMemory MultiServer TransitionSystem

/-- A line as `fgets` leaves it in `buffer`. -/
structure IsLine (line : List Byte) : Prop where
  ended : ∃ text, line = text ++ [10] ∧ 10 ∉ text
  clean : 0 ∉ line
  short : line.length < 1023

/-- What is typed at a client: some lines, and then the line `quit`. -/
structure Typed where
  lines : List (List Byte)
  isLine : ∀ line ∈ lines, IsLine line
  notQuit : quitLine ∉ lines

def Typed.all (typed : Typed) : List (List Byte) :=
  typed.lines ++ [quitLine]

/-- What the server knows of a client. -/
inductive Link
  | unconnected
  /-- connected, and not accepted yet -/
  | backlog
  /-- accepted, with this descriptor in the server -/
  | socket (fd : ℕ)
  /-- taken out of the tables -/
  | removed
  deriving DecidableEq

/-- The server, which may have ended, and for each client what the server knows of it, the
lines that it has not sent yet, the bytes that have been sent and not received, and what
the server has printed for it. -/
structure State (Client : Type*) where
  server : MultiServer.State
  ended : Bool
  link : Client → Link
  unsent : Client → List (List Byte)
  stream : Client → List Byte
  printed : Client → List (List Byte)

inductive Action (Client : Type*)
  /-- `connect_socket` -/
  | connect (who : Client)
  /-- `TCP_send` of the next line -/
  | send (who : Client)
  /-- a round of the server, in which `accept` returns the connection of the client -/
  | round (input : Round) (who : Client)

/-- The texts printed, in order. -/
def prints (calls : List Call) : List (List Byte) :=
  calls.filterMap fun call => match call with
    | .print text => some text
    | .accept | .recv _ | .close _ => none

/-- What has been printed, with the descriptor it has been received from. -/
def heard (calls : List Call) : List (ℕ × List Byte) :=
  (recvs calls).zip (prints calls)

/-- What has been printed for a descriptor. -/
def texts (calls : List Call) (fd : ℕ) : List (List Byte) :=
  ((heard calls).filter (·.1 = fd)).map Prod.snd

/-- The bytes up to the first newline, and the newline. -/
def firstLine (stream : List Byte) : List Byte :=
  stream.take ((stream.takeWhile (· != 10)).length + 1)

section

variable {Client : Type*} [DecidableEq Client]

/-- The new client gets its descriptor. -/
def State.accepting (state : State Client) (input : Round) (who : Client) : Client → Link :=
  if state.server.sock1 ∈ input.leseSock then
    match input.accepted with
    | some fd => Function.update state.link who (.socket fd)
    | none => state.link
  else state.link

/-- What the server knows of a client after a round. -/
def relink (gesamtSock : Finset ℕ) : Link → Link
  | .socket fd => if fd ∈ gesamtSock then .socket fd else .removed
  | link => link

/-- What is left of a stream after a round. -/
def unread (input : Round) (calls : List Call) (stream : List Byte) : Link → List Byte
  | .socket fd =>
      if fd ∈ recvs calls then stream.drop ((input.received fd).getD []).length else stream
  | _ => stream

/-- What has been printed for a client after a round. -/
def printing (calls : List Call) (printed : List (List Byte)) : Link → List (List Byte)
  | .socket fd => printed ++ texts calls fd
  | _ => printed

/-- The state after a round of the server that has ended as given. -/
def State.proceed (state : State Client) (input : Round) (who : Client) (after : Progress) :
    State Client :=
  let link := state.accepting input who
  { state with
    server := after.state
    link := fun client => relink after.state.gesamtSock (link client)
    stream := fun client => unread input after.calls (state.stream client) (link client)
    printed := fun client => printing after.calls (state.printed client) (link client) }

/-- The state after a round. `FD_SET` is undefined for a descriptor that does not fit. -/
def afterRound (state : State Client) (input : Round) (who : Client) : State Client :=
  if state.server.sock1 ∈ input.leseSock ∧ ∃ fd ∈ input.accepted, fdSetSize ≤ fd then
    { state with ended := true }
  else
    match round state.server input with
    | .error _ => { state with ended := true }
    | .ok after => state.proceed input who after

/-- What the kernel returns: `accept` a connection that waits, with a descriptor that is not
open, and `recv` some of the bytes in the stream, and none only if the client has closed the
connection and all has been received. -/
structure Returns (state : State Client) (input : Round) (who : Client) : Prop where
  selects : Selects state.server input
  accepted : state.server.sock1 ∈ input.leseSock → state.link who = .backlog ∧
    ∀ fd, input.accepted = some fd → fd ∉ state.server.opened
  received : ∀ client fd, state.link client = .socket fd → fd ∈ input.leseSock →
    ∃ data, input.received fd = some data ∧ data <+: state.stream client ∧
      data.length ≤ buf - 1 ∧
        (data = [] → state.stream client = [] ∧ state.unsent client = [])

/-- `connect_socket`: the connection waits in the backlog of the server. -/
def State.connect (state : State Client) (who : Client) : State Client :=
  { state with link := Function.update state.link who .backlog }

/-- `TCP_send` of a line, after which these are left. -/
def State.send (state : State Client) (who : Client) (line : List Byte)
    (unsent : List (List Byte)) : State Client :=
  { state with
    unsent := Function.update state.unsent who unsent
    stream := Function.update state.stream who (state.stream who ++ line) }

/-- The effect of an action. -/
def Steps (before : State Client) (action : Action Client) (after : State Client) : Prop :=
  match action with
  | .connect who => before.link who = .unconnected ∧ after = before.connect who
  | .send who => (before.link who = .backlog ∨ ∃ fd, before.link who = .socket fd) ∧
      ∃ line unsent, before.unsent who = line :: unsent ∧ after = before.send who line unsent
  | .round input who => before.ended = false ∧ Returns before input who ∧
      after = afterRound before input who

/-- The server before its first round, and the clients before they connect. -/
def Start (typed : Client → Typed) (state : State Client) : Prop :=
  ∃ sock1 opened buffer, sock1 ∈ opened ∧ buffer.length = buf ∧
    state = { server := start sock1 opened buffer, ended := false
              link := fun _ => .unconnected, unsent := fun who => (typed who).all
              stream := fun _ => [], printed := fun _ => [] }

def lineProtocol (typed : Client → Typed) : TransitionSystem (State Client) (Action Client) where
  initial := Start typed
  step := Steps

/-- The server runs. For every client what it has printed is lines that have been typed, one
by one, and those that follow are in the stream or have not been sent yet; and the client has
been taken out of the tables if the last one of its lines, `quit`, has been printed, and only
then. -/
structure Served (typed : Client → Typed) (state : State Client) : Prop where
  running : state.ended = false
  lines : ∀ who, ∃ waiting, (typed who).all = state.printed who ++ waiting ++ state.unsent who ∧
    state.stream who = waiting.flatten
  removed : ∀ who, state.link who = .removed ↔ state.printed who = (typed who).all

/-- `accept` does not fail, its descriptor fits an `fd_set`, and every `recv` takes one line. -/
def TakesLines (state : State Client) : Action Client → Prop
  | .connect _ => True
  | .send _ => True
  | .round input _ =>
      (state.server.sock1 ∈ input.leseSock → ∃ fd, input.accepted = some fd ∧ fd < fdSetSize) ∧
        ∀ client fd, state.link client = .socket fd → fd ∈ input.leseSock →
          input.received fd = some (firstLine (state.stream client))

end

end LinuxUnix.LineProtocol

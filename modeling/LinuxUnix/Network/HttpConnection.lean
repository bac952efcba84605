import LinuxUnix.Foundation.TransitionSystem
import LinuxUnix.Network.HttpServer

/-! # A connection of the HTTP server

The child process waits with `select` until the connection is readable, and calls
`httpd` unless `FIONREAD` finds that the client has hung up. Every call of `httpd`
opens a `FILE` of its own on the connection. `fgets` takes the bytes from the buffer
of that `FILE`, and fills it by a `read` of the connection when it is empty; what it
holds when `httpd` returns is lost. The bytes of the client arrive in segments of
any size, at any time.
-/

namespace LinuxUnix.HttpServer

open CrlfLines TransitionSystem

/-- Where the loop of `main` stands. -/
inductive Server
  /-- before or in `select` -/
  | selecting
  /-- in the header loop of `httpd`, with the bytes that `fgets` has taken and those
  in the buffer of the `FILE` -/
  | reading (taken ahead : List Byte) (locals : Locals)
  /-- the loop is left -/
  | left
  | undefined

/-- The connection: the bytes on their way, the bytes that have arrived, whether the
client has hung up, and the variables of the calls of `httpd` after their header
loops. -/
structure State where
  flight : List Byte
  queue : List Byte
  hungUp : Bool
  server : Server
  socket : Socket
  calls : List Locals

inductive Action
  /-- a segment arrives -/
  | segment (size : ℕ)
  | hangUp
  | select
  /-- `read` fills the buffer of the `FILE` -/
  | read (size : ℕ)
  /-- `fgets` takes a byte -/
  | byte
  /-- `read` returns 0 -/
  | endOfFile

/-- `httpd` answers, and `main` goes on. -/
def State.answer (world : World) (state : State) (locals : Locals) : State :=
  match locals.respond false world state.socket with
  | none => { state with server := .undefined }
  | some (retval, socket) => { state with
      server := if retval < 0 then .left else .selecting
      socket := socket
      calls := state.calls ++ [locals] }

/-- The header loop goes on with the variables that it has got. -/
def State.goOn (world : World) (state : State) (taken ahead : List Byte) :
    Option Locals → State
  | none => { state with server := .undefined }
  | some locals =>
      if locals.ended then state.answer world locals
      else { state with server := .reading taken ahead locals }

/-- The step function of the connection. -/
def next (world : World) (state : State) : Action → Option State
  | .segment size =>
      if 0 < size ∧ size ≤ state.flight.length then
        some { state with
          flight := state.flight.drop size
          queue := state.queue ++ state.flight.take size }
      else none
  | .hangUp =>
      if state.flight = [] ∧ state.hungUp = false then some { state with hungUp := true }
      else none
  | .select => match state.server with
    | .selecting =>
        if state.queue ≠ [] then some { state with server := .reading [] [] Locals.start }
        else if state.hungUp then some { state with server := .left }
        else none
    | .reading _ _ _ | .left | .undefined => none
  | .read size => match state.server with
    | .reading taken [] locals =>
        if 0 < size ∧ size ≤ state.queue.length then
          some { state with
            queue := state.queue.drop size
            server := .reading taken (state.queue.take size) locals }
        else none
    | .reading _ (_ :: _) _ | .selecting | .left | .undefined => none
  | .byte => match state.server with
    | .reading taken (byte :: ahead) locals =>
        some (state.goOn world (taken ++ [byte]) ahead (locals.takeByte false byte))
    | .reading _ [] _ | .selecting | .left | .undefined => none
  | .endOfFile => match state.server with
    | .reading taken [] locals =>
        if state.queue = [] ∧ state.hungUp then
          some (state.goOn world taken [] (locals.takeEnd false))
        else none
    | .reading _ (_ :: _) _ | .selecting | .left | .undefined => none

/-- The connection after `accept`, with the requests that the client is going to
send. -/
def accepted (requests : List Request) (socket : Socket) : State where
  flight := (requests.map Request.bytes).flatten
  queue := []
  hungUp := false
  server := .selecting
  socket
  calls := []

def connection (world : World) (socket : Socket) (requests : List Request) :
    TransitionSystem State Action :=
  .ofFunction (fun state => state = accepted requests socket) (next world)

end LinuxUnix.HttpServer

import LinuxUnix.Foundation.DescriptorTable
import LinuxUnix.Foundation.TransitionSystem
import LinuxUnix.Network.FileTransfer
import Mathlib.Data.List.Basic

/-! # The threaded file server

`main` of `thserver` accepts connections and starts a detached thread for each.
The threads run `threading_socket` concurrently; they share the descriptor table
of the process. `accept` and `open` may hand out any number that is not in use,
and `close` makes a number unused. Every system call is one step. A `read`,
`write` or `close` of an unused number fails; other failures are possible too.
-/

namespace LinuxUnix.ThreadedServer

open FileTransfer DescriptorTable

/-- What a descriptor of the process denotes. -/
inductive Object
  | standard
  | listening
  /-- accepted by `main`, with no thread yet -/
  | unserved
  | connection (worker : ℕ)
  | file (worker : ℕ)
  deriving DecidableEq

inductive Status
  | running
  | exited
  /-- after an access outside the buffers -/
  | undefined
  deriving DecidableEq

/-- The process: its descriptors, the number that `main` has accepted and not yet
handed to a thread, and the variables of the threads in the order in which they
were started. -/
structure State where
  table : DescriptorTable Object
  pending : Option ℕ
  workers : List Locals
  status : Status

/-- One step of `main` or of a thread. -/
inductive Action
  | accepted (fd : ℕ)
  /-- `accept` fails with `EINTR` -/
  | interrupted
  | acceptFailed
  /-- `pthread_create`; the variables on the new stack are not initialised -/
  | created (stack : Locals)
  | notCreated
  | work (worker : ℕ) (reply : Reply)

/-- The replies that a system call of a thread can have. -/
def permits (table : DescriptorTable Object) : Request → Reply → Prop
  | .read fd count, .data bytes => table.lookup fd ≠ none ∧ bytes.length ≤ count
  | .write fd data, .value number => table.lookup fd ≠ none ∧ number ≤ data.length
  | .create _, .value fd => table fd = none
  | .close fd, .value number => table.lookup fd ≠ none ∧ number = 0
  | .close fd, .failed => table.lookup fd = none
  | .read _ _, .failed | .write _ _, .failed | .create _, .failed => True
  | .read _ _, .value _ | .write _ _, .data _ | .create _, .data _ | .close _, .data _ => False

instance (table : DescriptorTable Object) : ∀ call reply, Decidable (permits table call reply)
  | .read _ _, .data _ | .write _ _, .value _ | .close _, .value _ =>
      inferInstanceAs (Decidable (_ ∧ _))
  | .create _, .value _ | .close _, .failed => inferInstanceAs (Decidable (_ = _))
  | .read _ _, .failed | .write _ _, .failed | .create _, .failed =>
      inferInstanceAs (Decidable True)
  | .read _ _, .value _ | .write _ _, .data _ | .create _, .data _ | .close _, .data _ =>
      inferInstanceAs (Decidable False)

/-- The descriptors after a system call of a thread. -/
def settle (table : DescriptorTable Object) (worker : ℕ) :
    Request → Reply → DescriptorTable Object
  | .create _, .value fd => table.install fd (.file worker)
  | .close fd, _ => table.release fd
  | .create _, .failed | .create _, .data _ | .read _ _, _ | .write _ _, _ => table

/-- What a thread that got there makes of the process. -/
def statusAt : At → Status
  | .exited => .exited
  | .undefined => .undefined
  | _ => .running

/-- The process after a thread's system call has returned. -/
def State.serve (home : List Byte) (state : State) (worker : ℕ) (locals : Locals)
    (call : Request) (reply : Reply) : State :=
  { state with
    table := settle state.table worker call reply
    workers := state.workers.set worker (resume threadingSocket home locals reply)
    status := statusAt (resume threadingSocket home locals reply).pc }

/-- The step function of the process. -/
def next (home : List Byte) (state : State) : Action → Option State
  | .accepted fd =>
      if state.status = .running ∧ state.pending = none ∧ state.table fd = none then
        some { state with table := state.table.install fd .unserved, pending := some fd }
      else none
  | .interrupted =>
      if state.status = .running ∧ state.pending = none then some state else none
  | .acceptFailed =>
      if state.status = .running ∧ state.pending = none then
        some { state with status := .exited }
      else none
  | .created stack => match state.pending with
    | some fd =>
        if state.status = .running ∧ stack.puffer.length = maxZeichen then
          some { state with
            table := state.table.install fd (.connection state.workers.length)
            pending := none
            workers := state.workers ++ [stack.begin fd] }
        else none
    | none => none
  | .notCreated =>
      if state.status = .running ∧ state.pending ≠ none then
        some { state with pending := none }
      else none
  | .work worker reply => match state.workers[worker]? with
    | some locals => match request locals with
      | some call =>
          if state.status = .running ∧ permits state.table call reply then
            some (state.serve home worker locals call reply)
          else none
      | none => none
    | none => none

/-- The process after `listen`: the standard streams and the socket are open. -/
def listening (sockfd : ℕ) : State where
  table := install (fun fd => if fd < 3 then some .standard else none) sockfd .listening
  pending := none
  workers := []
  status := .running

/-- The server with its listening socket and the value of `HOME`. -/
def threadedServer (sockfd : ℕ) (home : List Byte) : TransitionSystem State Action :=
  .ofFunction (fun state => state = listening sockfd) (next home)

end LinuxUnix.ThreadedServer

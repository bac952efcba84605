import LinuxUnix.Foundation.DescriptorTable
import LinuxUnix.Foundation.TransitionSystem
import LinuxUnix.Network.FileTransfer

/-! # The forking file server

`main` of `pserver` accepts connections and forks a child for each. The child closes the
listening socket, receives a file, and then falls back into the loop of `main`. Every process
runs the same loop, with descriptors and variables of its own. When a process ends, its
parent gets `SIGCHLD`; the handler `no_zombie` calls `waitpid` until it finds no child that
has ended. At most one `SIGCHLD` is pending for a process, and it is blocked while the handler
runs; otherwise it is delivered at any point.

Every system call is one step, and every call can fail. After an access outside its buffers
the variables of a process hold anything, and it goes on anywhere in the branch of the child.
-/

namespace LinuxUnix.ForkingServer

open FileTransfer DescriptorTable

/-- What a descriptor denotes. -/
inductive Object
  | standard
  | listening
  /-- the connections in the order in which they are accepted -/
  | connection (number : ℕ)
  | file
  deriving DecidableEq

/-- Where a process is in the loop of `main`. -/
inductive Place
  /-- before `accept`, or waiting in it -/
  | accepting
  /-- before `fork` -/
  | forking
  /-- in the child, before `close(sockfd)` -/
  | detaching
  /-- in the rest of the branch of the child -/
  | copying
  /-- before the `close(connfd)` behind the branch -/
  | closing
  | ended
  deriving DecidableEq

/-- Where `no_zombie` is. -/
inductive Handler
  | idle
  /-- before `waitpid` -/
  | waiting
  /-- before `printf` -/
  | reporting
  /-- behind the loop -/
  | leaving
  deriving DecidableEq

/-- A process: its parent and the connection for which it has been forked, unless it is the
original one; its descriptors and variables; whether it has left its buffers; its signal, and
how many times it has been waited for. -/
structure Process where
  parent : Option ℕ
  served : Option ℕ
  table : DescriptorTable Object
  sockfd : ℤ
  locals : Locals
  place : Place
  overrun : Bool
  pending : Bool
  handler : Handler
  waited : ℕ

inductive Event
  | accepted (who connection : ℕ)
  /-- `read` in the branch of the child, and what its descriptor denotes -/
  | read (who : ℕ) (object : Option Object)
  deriving DecidableEq

/-- The processes that have been started, numbered in this order; the number of connections
that have been accepted; and what the processes have done. -/
structure State where
  processes : ℕ → Option Process
  started : ℕ
  connections : ℕ
  log : List Event

inductive Action
  /-- `accept` hands out a descriptor -/
  | accept (who fd : ℕ)
  /-- `accept` fails, with `EINTR` or with another error -/
  | acceptFails (who : ℕ) (interrupted : Bool)
  | fork (who : ℕ)
  | forkFails (who : ℕ)
  /-- `close(sockfd)` in the child -/
  | detach (who : ℕ)
  /-- a system call in the rest of the branch of the child -/
  | call (who : ℕ) (reply : Reply)
  /-- what an access outside the buffers leaves -/
  | overrun (who : ℕ) (sockfd : ℤ) (locals : Locals)
  /-- `close(connfd)` behind the branch -/
  | close (who : ℕ)
  /-- another process ends this one -/
  | kill (who : ℕ)
  /-- `SIGCHLD` is sent for another reason than the end of a child -/
  | notify (who : ℕ)
  /-- `SIGCHLD` is delivered -/
  | deliver (who : ℕ)
  /-- `waitpid` returns the number of a child that has ended -/
  | wait (who child : ℕ)
  /-- `waitpid` returns 0 or -1 -/
  | waitNone (who : ℕ)
  | report (who : ℕ)
  /-- `no_zombie` returns -/
  | return_ (who : ℕ)

/-- The replies that a system call in the branch of the child can have. -/
def Returns (table : DescriptorTable Object) : Request → Reply → Prop
  | .read fd count, .data bytes => table.lookup fd ≠ none ∧ bytes.length ≤ count
  | .write fd data, .value number => table.lookup fd ≠ none ∧ number ≤ data.length
  | .create _, .value fd => table.Lowest fd
  | .close fd, .value number => table.lookup fd ≠ none ∧ number = 0
  | .close fd, .failed => table.lookup fd = none
  | .read _ _, .failed | .write _ _, .failed | .create _, .failed => True
  | .read _ _, .value _ | .write _ _, .data _ | .create _, .data _ | .close _, .data _ => False

instance (table : DescriptorTable Object) : ∀ call reply, Decidable (Returns table call reply)
  | .read _ _, .data _ | .write _ _, .value _ | .close _, .value _ =>
      inferInstanceAs (Decidable (_ ∧ _))
  | .create _, .value _ => inferInstanceAs (Decidable (Lowest _ _))
  | .close _, .failed => inferInstanceAs (Decidable (_ = _))
  | .read _ _, .failed | .write _ _, .failed | .create _, .failed =>
      inferInstanceAs (Decidable True)
  | .read _ _, .value _ | .write _ _, .data _ | .create _, .data _ | .close _, .data _ =>
      inferInstanceAs (Decidable False)

/-- The descriptors after a system call in the branch of the child. -/
def settle (table : DescriptorTable Object) : Request → Reply → DescriptorTable Object
  | .create _, .value fd => table.install fd .file
  | .close fd, _ => table.release fd
  | .create _, .failed | .create _, .data _ | .read _ _, _ | .write _ _, _ => table

/-- What a system call in the branch of the child adds to the log. -/
def reading (who : ℕ) (table : DescriptorTable Object) : Request → List Event
  | .read fd _ => [.read who (table.lookup fd)]
  | .write _ _ | .create _ | .close _ => []

/-- Where the branch of the child has led: behind it the loop of `main` goes on. -/
def placeAt : At → Place
  | .done => .accepting
  | .exited => .ended
  | .header _ | .openFile | .refused | .block | .writing _ | .closeFile | .closeConn | .closeAgain
  | .undefined => .copying

/-- The process after `accept` has handed out a descriptor for the connection. -/
def Process.accept (process : Process) (connection fd : ℕ) : Process :=
  { process with
    table := process.table.install fd (.connection connection)
    locals := { process.locals with connfd := fd }
    place := .forking }

/-- The process that `fork` starts. -/
def Process.child (who : ℕ) (process : Process) : Process :=
  { process with
    parent := some who
    served := match process.table.lookup process.locals.connfd with
      | some (.connection number) => some number
      | _ => none
    place := .detaching
    pending := false
    handler := .idle
    waited := 0 }

/-- The child after `close(sockfd)` and `j = 0`. -/
def Process.detach (process : Process) : Process :=
  { process with
    table := process.table.release process.sockfd
    locals := { process.locals with pc := .header 0 }
    place := .copying }

/-- The process after a system call in the branch of the child has returned. -/
def Process.resume (home : List Byte) (process : Process) (call : Request) (reply : Reply) :
    Process :=
  let locals := FileTransfer.resume FileTransfer.pserver home process.locals reply
  { process with table := settle process.table call reply, locals, place := placeAt locals.pc }

/-- The process after an access outside the buffers, with what its variables then hold. -/
def Process.wander (process : Process) (sockfd : ℤ) (locals : Locals) : Process :=
  { process with sockfd, locals, place := placeAt locals.pc, overrun := true }

/-- The process after the `close(connfd)` behind the branch of the child. -/
def Process.close (process : Process) : Process :=
  { process with
    table := process.table.release process.locals.connfd
    place := .accepting }

/-- The state with new data of a process. -/
def State.set (state : State) (who : ℕ) (process : Process) : State :=
  { state with processes := Function.update state.processes who (some process) }

/-- `SIGCHLD` is sent to a process. -/
def State.signal (state : State) (who : ℕ) : State :=
  match state.processes who with
  | some process => state.set who { process with pending := true }
  | none => state

/-- If the process has ended, its parent gets `SIGCHLD`. -/
def State.reap (state : State) (process : Process) : State :=
  match process.place, process.parent with
  | .ended, some parent => state.signal parent
  | _, _ => state

/-- The process that goes on at this place. -/
def State.acting (state : State) (who : ℕ) (place : Place) : Option Process :=
  (state.processes who).filter fun process => process.place = place ∧ process.handler = .idle

/-- The process whose handler is at this place. -/
def State.handling (state : State) (who : ℕ) (handler : Handler) : Option Process :=
  (state.processes who).filter fun process =>
    process.place ≠ .ended ∧ process.handler = handler

/-- The child has ended, and the process has not waited for it yet. -/
def State.Zombie (state : State) (who child : ℕ) : Prop :=
  ∃ process ∈ state.processes child, process.parent = some who ∧ process.place = .ended ∧
    process.waited = 0

instance (state : State) (who child : ℕ) : Decidable (state.Zombie who child) :=
  inferInstanceAs (Decidable (∃ _ ∈ _, _ ∧ _ ∧ _))

/-- The step function of the processes. -/
def next (home : List Byte) (state : State) : Action → Option State
  | .accept who fd => (state.acting who .accepting).bind fun process =>
      if process.table.lookup process.sockfd = some .listening ∧ process.table.Lowest fd then
        some { state.set who (process.accept state.connections fd) with
          connections := state.connections + 1
          log := state.log ++ [.accepted who state.connections] }
      else none
  | .acceptFails who interrupted => (state.acting who .accepting).bind fun process =>
      if interrupted then
        if process.table.lookup process.sockfd = some .listening then some state else none
      else
        let process := { process with place := .ended }
        some ((state.set who process).reap process)
  | .fork who => (state.acting who .forking).map fun process =>
      { (state.set who { process with place := .closing }).set state.started
          (process.child who) with
        started := state.started + 1 }
  | .forkFails who => (state.acting who .forking).map fun process =>
      state.set who { process with place := .closing }
  | .detach who => (state.acting who .detaching).map fun process =>
      state.set who process.detach
  | .call who reply => (state.acting who .copying).bind fun process =>
      (request process.locals).bind fun call =>
        if Returns process.table call reply then
          let after := process.resume home call reply
          let read := { state with log := state.log ++ reading who process.table call }
          some ((read.set who after).reap after)
        else none
  | .overrun who sockfd locals => (state.acting who .copying).bind fun process =>
      if process.locals.pc = .undefined then
        let after := process.wander sockfd locals
        some ((state.set who after).reap after)
      else none
  | .close who => (state.acting who .closing).map fun process =>
      state.set who process.close
  | .kill who => (state.processes who).bind fun process =>
      if process.place ≠ .ended then
        let process := { process with place := .ended }
        some ((state.set who process).reap process)
      else none
  | .notify who => some (state.signal who)
  | .deliver who => (state.handling who .idle).bind fun process =>
      if process.pending then
        some (state.set who { process with pending := false, handler := .waiting })
      else none
  | .wait who child => (state.handling who .waiting).bind fun process =>
      (state.processes child).bind fun ended =>
        if state.Zombie who child then
          some ((state.set child { ended with waited := ended.waited + 1 }).set who
            { process with handler := .reporting })
        else none
  | .waitNone who => (state.handling who .waiting).bind fun process =>
      if ∀ child < state.started, ¬ state.Zombie who child then
        some (state.set who { process with handler := .leaving })
      else none
  | .report who => (state.handling who .reporting).map fun process =>
      state.set who { process with handler := .waiting }
  | .return_ who => (state.handling who .leaving).map fun process =>
      state.set who { process with handler := .idle }

/-- The original process behind `my_signal(SIGCHLD, no_zombie)`: it has inherited some
descriptors, and `socket` has handed out the lowest one that was not in use. -/
def original (inherited : DescriptorTable Object) (sockfd : ℕ) (locals : Locals) : Process where
  parent := none
  served := none
  table := inherited.install sockfd .listening
  sockfd := sockfd
  locals := locals
  place := .accepting
  overrun := false
  pending := false
  handler := .idle
  waited := 0

/-- The server with no child yet. -/
def listening (process : Process) : State where
  processes := fun who => if who = 0 then some process else none
  started := 1
  connections := 0
  log := []

/-- The processes of the server that are started with `HOME`. -/
def forkingServer (home : List Byte) : TransitionSystem State Action :=
  .ofFunction (fun state => ∃ inherited sockfd locals,
    (∀ fd object, inherited fd = some object → object = .standard) ∧
      inherited.Lowest sockfd ∧ state = listening (original inherited sockfd locals))
    (next home)

/-- The standard streams are open. -/
def streams : DescriptorTable Object :=
  fun fd => if fd < 3 then some .standard else none

variable {state : State} {who : ℕ} {process : Process}

@[simp] theorem processes_set_self (state : State) (who : ℕ) (process : Process) :
    (state.set who process).processes who = some process :=
  Function.update_self ..

theorem processes_set_of_ne {other : ℕ} (different : other ≠ who) :
    (state.set who process).processes other = state.processes other :=
  Function.update_of_ne different _ _

/-- New data of a process leave an unused number unused. -/
theorem processes_set_of_none {old : Process} {other : ℕ}
    (there : state.processes who = some old) (unused : state.processes other = none) :
    (state.set who process).processes other = none := by
  have different : other ≠ who := by
    rintro rfl
    cases there.symm.trans unused
  exact (processes_set_of_ne different).trans unused

theorem acting_iff {place : Place} : state.acting who place = some process ↔
    state.processes who = some process ∧ process.place = place ∧ process.handler = .idle := by
  rw [State.acting, Option.filter_eq_some_iff, decide_eq_true_eq]

theorem handling_iff {handler : Handler} : state.handling who handler = some process ↔
    state.processes who = some process ∧ process.place ≠ .ended ∧ process.handler = handler := by
  rw [State.handling, Option.filter_eq_some_iff, decide_eq_true_eq]

/-- What a step does. -/
inductive Moves (home : List Byte) (state : State) : Action → State → Prop
  | accept {who fd : ℕ} {process : Process} (there : state.processes who = some process)
      (place : process.place = .accepting) (idle : process.handler = .idle)
      (open_ : process.table.lookup process.sockfd = some .listening)
      (lowest : process.table.Lowest fd) :
      Moves home state (.accept who fd)
        { state.set who (process.accept state.connections fd) with
          connections := state.connections + 1
          log := state.log ++ [.accepted who state.connections] }
  | interrupted {who : ℕ} {process : Process} (there : state.processes who = some process)
      (place : process.place = .accepting) (idle : process.handler = .idle)
      (open_ : process.table.lookup process.sockfd = some .listening) :
      Moves home state (.acceptFails who true) state
  | acceptFails {who : ℕ} {process : Process} (there : state.processes who = some process)
      (place : process.place = .accepting) (idle : process.handler = .idle) :
      Moves home state (.acceptFails who false)
        ((state.set who { process with place := .ended }).reap { process with place := .ended })
  | fork {who : ℕ} {process : Process} (there : state.processes who = some process)
      (place : process.place = .forking) (idle : process.handler = .idle) :
      Moves home state (.fork who)
        { (state.set who { process with place := .closing }).set state.started
            (process.child who) with
          started := state.started + 1 }
  | forkFails {who : ℕ} {process : Process} (there : state.processes who = some process)
      (place : process.place = .forking) (idle : process.handler = .idle) :
      Moves home state (.forkFails who) (state.set who { process with place := .closing })
  | detach {who : ℕ} {process : Process} (there : state.processes who = some process)
      (place : process.place = .detaching) (idle : process.handler = .idle) :
      Moves home state (.detach who) (state.set who process.detach)
  | call {who : ℕ} {process : Process} {call : Request} {reply : Reply}
      (there : state.processes who = some process) (place : process.place = .copying)
      (idle : process.handler = .idle) (issued : request process.locals = some call)
      (permitted : Returns process.table call reply) :
      Moves home state (.call who reply)
        ((State.set { state with log := state.log ++ reading who process.table call } who
          (process.resume home call reply)).reap (process.resume home call reply))
  | overrun {who : ℕ} {process : Process} {sockfd : ℤ} {locals : Locals}
      (there : state.processes who = some process) (place : process.place = .copying)
      (idle : process.handler = .idle) (pc : process.locals.pc = .undefined) :
      Moves home state (.overrun who sockfd locals)
        ((state.set who (process.wander sockfd locals)).reap (process.wander sockfd locals))
  | close {who : ℕ} {process : Process} (there : state.processes who = some process)
      (place : process.place = .closing) (idle : process.handler = .idle) :
      Moves home state (.close who) (state.set who process.close)
  | kill {who : ℕ} {process : Process} (there : state.processes who = some process)
      (alive : process.place ≠ .ended) :
      Moves home state (.kill who)
        ((state.set who { process with place := .ended }).reap { process with place := .ended })
  | notify {who : ℕ} : Moves home state (.notify who) (state.signal who)
  | deliver {who : ℕ} {process : Process} (there : state.processes who = some process)
      (alive : process.place ≠ .ended) (handler : process.handler = .idle)
      (pending : process.pending = true) :
      Moves home state (.deliver who)
        (state.set who { process with pending := false, handler := .waiting })
  | wait {who child : ℕ} {process ended : Process} (there : state.processes who = some process)
      (alive : process.place ≠ .ended) (handler : process.handler = .waiting)
      (childAt : state.processes child = some ended) (zombie : state.Zombie who child) :
      Moves home state (.wait who child)
        ((state.set child { ended with waited := ended.waited + 1 }).set who
          { process with handler := .reporting })
  | waitNone {who : ℕ} {process : Process} (there : state.processes who = some process)
      (alive : process.place ≠ .ended) (handler : process.handler = .waiting)
      (nobody : ∀ child < state.started, ¬ state.Zombie who child) :
      Moves home state (.waitNone who) (state.set who { process with handler := .leaving })
  | report {who : ℕ} {process : Process} (there : state.processes who = some process)
      (alive : process.place ≠ .ended) (handler : process.handler = .reporting) :
      Moves home state (.report who) (state.set who { process with handler := .waiting })
  | return_ {who : ℕ} {process : Process} (there : state.processes who = some process)
      (alive : process.place ≠ .ended) (handler : process.handler = .leaving) :
      Moves home state (.return_ who) (state.set who { process with handler := .idle })

theorem moves_of_next {home : List Byte} {after : State} {action : Action}
    (moved : next home state action = some after) : Moves home state action after := by
  cases action with
  | accept who fd =>
      simp only [next, Option.bind_eq_some_iff, acting_iff, Option.ite_none_right_eq_some,
        Option.some.injEq] at moved
      obtain ⟨process, ⟨there, place, idle⟩, ⟨open_, lowest⟩, rfl⟩ := moved
      exact .accept there place idle open_ lowest
  | acceptFails who interrupted =>
      simp only [next, Option.bind_eq_some_iff, acting_iff] at moved
      obtain ⟨process, ⟨there, place, idle⟩, moved⟩ := moved
      cases interrupted with
      | true =>
          simp only [↓reduceIte, Option.ite_none_right_eq_some, Option.some.injEq] at moved
          obtain ⟨open_, rfl⟩ := moved
          exact .interrupted there place idle open_
      | false =>
          simp only [Bool.false_eq_true, ↓reduceIte, Option.some.injEq] at moved
          exact moved ▸ .acceptFails there place idle
  | fork who =>
      simp only [next, Option.map_eq_some_iff, acting_iff] at moved
      obtain ⟨process, ⟨there, place, idle⟩, rfl⟩ := moved
      exact .fork there place idle
  | forkFails who =>
      simp only [next, Option.map_eq_some_iff, acting_iff] at moved
      obtain ⟨process, ⟨there, place, idle⟩, rfl⟩ := moved
      exact .forkFails there place idle
  | detach who =>
      simp only [next, Option.map_eq_some_iff, acting_iff] at moved
      obtain ⟨process, ⟨there, place, idle⟩, rfl⟩ := moved
      exact .detach there place idle
  | call who reply =>
      simp only [next, Option.bind_eq_some_iff, acting_iff, Option.ite_none_right_eq_some,
        Option.some.injEq] at moved
      obtain ⟨process, ⟨there, place, idle⟩, call, issued, permitted, rfl⟩ := moved
      exact .call there place idle issued permitted
  | overrun who sockfd locals =>
      simp only [next, Option.bind_eq_some_iff, acting_iff, Option.ite_none_right_eq_some,
        Option.some.injEq] at moved
      obtain ⟨process, ⟨there, place, idle⟩, pc, rfl⟩ := moved
      exact .overrun there place idle pc
  | close who =>
      simp only [next, Option.map_eq_some_iff, acting_iff] at moved
      obtain ⟨process, ⟨there, place, idle⟩, rfl⟩ := moved
      exact .close there place idle
  | kill who =>
      simp only [next, Option.bind_eq_some_iff, Option.ite_none_right_eq_some,
        Option.some.injEq] at moved
      obtain ⟨process, there, alive, rfl⟩ := moved
      exact .kill there alive
  | notify who =>
      cases moved
      exact .notify
  | deliver who =>
      simp only [next, Option.bind_eq_some_iff, handling_iff, Option.ite_none_right_eq_some,
        Option.some.injEq] at moved
      obtain ⟨process, ⟨there, alive, handler⟩, pending, rfl⟩ := moved
      exact .deliver there alive handler pending
  | wait who child =>
      simp only [next, Option.bind_eq_some_iff, handling_iff, Option.ite_none_right_eq_some,
        Option.some.injEq] at moved
      obtain ⟨process, ⟨there, alive, handler⟩, ended, childAt, zombie, rfl⟩ := moved
      exact .wait there alive handler childAt zombie
  | waitNone who =>
      simp only [next, Option.bind_eq_some_iff, handling_iff, Option.ite_none_right_eq_some,
        Option.some.injEq] at moved
      obtain ⟨process, ⟨there, alive, handler⟩, nobody, rfl⟩ := moved
      exact .waitNone there alive handler nobody
  | report who =>
      simp only [next, Option.map_eq_some_iff, handling_iff] at moved
      obtain ⟨process, ⟨there, alive, handler⟩, rfl⟩ := moved
      exact .report there alive handler
  | return_ who =>
      simp only [next, Option.map_eq_some_iff, handling_iff] at moved
      obtain ⟨process, ⟨there, alive, handler⟩, rfl⟩ := moved
      exact .return_ there alive handler

theorem streams_standard (fd : ℕ) (object : Object) (open_ : streams fd = some object) :
    object = .standard := by
  rw [streams, Option.ite_none_right_eq_some, Option.some.injEq] at open_
  exact open_.2.symm

end LinuxUnix.ForkingServer

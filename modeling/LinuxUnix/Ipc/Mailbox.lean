import LinuxUnix.Foundation.CMemory
import LinuxUnix.Foundation.Semaphore
import LinuxUnix.Foundation.TransitionSystem

/-! # The shared-memory mailbox

`shm_server` and any number of `shm_client` processes exchange texts through one
buffer in a shared-memory segment, guarded by the two semaphores `SN_EMPTY` and
`SN_FULL`. The model interleaves the processes between single semaphore
operations and single bytes: `fgets` stores the bytes of its line one at a time,
and the `printf` of the server copies them one at a time. The semaphore
operations carry undo records, which the kernel applies when a client ends.

The system starts where `server()` has initialised its semaphores; a client that
has not been started yet is one that has not left its first menu. The outputs
other than the texts after `Nachricht erhalten:` are left out.
-/

namespace LinuxUnix.Mailbox

open CMemory

/-- `SHMDATASIZE` -/
def shmDataSize : ℕ := 1024

/-- `BUFFERSIZE`: what the segment holds behind the semaphore id. -/
def bufferSize : ℕ := shmDataSize - 4

/-- The semaphores `SN_EMPTY` and `SN_FULL`. -/
inductive Sem
  | empty
  | full
  deriving DecidableEq

/-- The processes that operate on the semaphores. -/
inductive Process (Client : Type)
  | server
  | client (who : Client)
  deriving DecidableEq

/-- Where `server` stands in its loop. -/
inductive ServerAt
  /-- before `locksem(semid, SN_FULL)` -/
  | lock
  /-- in `printf`, with the bytes of the buffer it has copied so far -/
  | print (copied : List Byte)
  /-- before `unlocksem(semid, SN_EMPTY)` -/
  | unlock
  deriving DecidableEq

/-- Where a client stands in `client` and `clientwrite`. -/
inductive ClientAt
  /-- before the `fgets` of the menu -/
  | menu
  /-- before `locksem(semid, SN_EMPTY)` -/
  | lock
  /-- in `fgets(buffer, BUFFERSIZE, stdin)`, waiting for a line -/
  | fgets
  /-- in `fgets`, having stored the first `count` bytes of the line and its NUL -/
  | store (text : List Byte) (count : ℕ)
  /-- before `unlocksem(semid, SN_FULL)`, with the line read, if any -/
  | unlock (text : Option (List Byte))
  | ended
  deriving DecidableEq

/-- The server is between `locksem(SN_FULL)` and `unlocksem(SN_EMPTY)`. -/
def ServerAt.inside : ServerAt → Bool
  | .lock => false
  | .print _ | .unlock => true

/-- The server has not yet printed the text it locked. -/
def ServerAt.printing : ServerAt → Bool
  | .print _ => true
  | .lock | .unlock => false

/-- The client is between `locksem(SN_EMPTY)` and `unlocksem(SN_FULL)`. -/
def ClientAt.inside : ClientAt → Bool
  | .fgets | .store _ _ | .unlock _ => true
  | .menu | .lock | .ended => false

/-- How `fgets` goes on with the line it got; at end of file it returns at once
and leaves the buffer as it is. -/
def ClientAt.reading : Option (List Byte) → ClientAt
  | some text => .store text 0
  | none => .unlock none

variable {Client : Type} [DecidableEq Client]

/-- The processes, the segment and the semaphores; `printed` are the texts the
server has printed, `deposited` the contents of the buffer at the successive
`unlocksem(SN_FULL)`, and `sent` counts these for each client. -/
structure State (Client : Type) where
  sems : SemaphoreSet Sem (Process Client)
  buffer : List Byte
  server : ServerAt
  client : Client → ClientAt
  printed : List (List Byte)
  deposited : List (List Byte)
  sent : Client → ℕ

/-- The server has set the semaphores up and no client has moved. -/
def State.start : State Client where
  sems := {
    semval := fun sem => match sem with
      | .empty => 1
      | .full => 0
    semadj := fun _ _ => 0 }
  buffer := List.replicate bufferSize 0
  server := .lock
  client := fun _ => .menu
  printed := []
  deposited := []
  sent := fun _ => 0

/-- `locksem` -/
def locksem (sems : SemaphoreSet Sem (Process Client)) (process : Process Client) (sem : Sem) :
    Option (SemaphoreSet Sem (Process Client)) :=
  sems.semop process sem (-1)

/-- `unlocksem` -/
def unlocksem (sems : SemaphoreSet Sem (Process Client)) (process : Process Client) (sem : Sem) :
    Option (SemaphoreSet Sem (Process Client)) :=
  sems.semop process sem 1

/-- What happens next: a process takes its next step, a client's menu or its
message input delivers something, or a client is killed. -/
inductive Action (Client : Type)
  | server
  | client (who : Client)
  /-- the menu's `fgets` leaves `choice` in `input[0]` -/
  | choose (who : Client) (choice : Byte)
  /-- the `fgets` of `clientwrite` gets a line, or nothing at end of file -/
  | line (who : Client) (text : Option (List Byte))
  | kill (who : Client)

/-- What `fgets` with a buffer of `size` bytes can deliver: a non-empty piece
that leaves room for the NUL and has a newline only at its end. -/
def isPiece (size : ℕ) (text : List Byte) : Bool :=
  !text.isEmpty && decide (text.length < size) && !text.dropLast.contains 10

/-- The next step of `server`. -/
def server (state : State Client) : Option (State Client) :=
  match state.server with
  | .lock => (locksem state.sems .server .full).map fun sems =>
      { state with sems, server := .print [] }
  | .print copied => state.buffer[copied.length]?.map fun byte =>
      if byte = 0 then { state with printed := state.printed ++ [copied], server := .unlock }
      else { state with server := .print (copied ++ [byte]) }
  | .unlock => (unlocksem state.sems .server .empty).map fun sems =>
      { state with sems, server := .lock }

/-- The next step of a client that needs no input. -/
def clientwrite (state : State Client) (who : Client) : Option (State Client) :=
  match state.client who with
  | .lock => (locksem state.sems (.client who) .empty).map fun sems =>
      { state with sems, client := Function.update state.client who .fgets }
  | .store text count => match (text ++ [0])[count]? with
    | some byte => some { state with
        buffer := state.buffer.set count byte
        client := Function.update state.client who (.store text (count + 1)) }
    | none => some { state with
        client := Function.update state.client who (.unlock (some text)) }
  | .unlock _ => (unlocksem state.sems (.client who) .full).map fun sems =>
      { state with
        sems
        client := Function.update state.client who .menu
        deposited := state.deposited ++ [cstr state.buffer]
        sent := Function.update state.sent who (state.sent who + 1) }
  | .menu | .fgets | .ended => none

/-- The end of a client: the kernel applies its undo record. -/
def State.leave (state : State Client) (who : Client) : State Client :=
  { state with
    sems := state.sems.undo (.client who)
    client := Function.update state.client who .ended }

/-- The `switch` of the menu. -/
def choose (state : State Client) (who : Client) (choice : Byte) : State Client :=
  if choice = '1'.toUInt8 then
    { state with client := Function.update state.client who .lock }
  else if choice = '2'.toUInt8 then state.leave who
  else state

/-- The effect of an action, if it can happen. -/
def next (state : State Client) : Action Client → Option (State Client)
  | .server => server state
  | .client who => clientwrite state who
  | .choose who choice =>
      if state.client who = .menu then some (choose state who choice) else none
  | .line who text =>
      if state.client who = .fgets ∧ text.all (isPiece bufferSize) then
        some { state with
          client := Function.update state.client who (ClientAt.reading text) }
      else none
  | .kill who => if state.client who = .ended then none else some (state.leave who)

/-- The client that an action ends, if any. -/
def Action.ends : Action Client → Option Client
  | .kill who => some who
  | .choose who choice => if choice = '2'.toUInt8 then some who else none
  | .server | .client _ | .line _ _ => none

/-- The mailbox with its server and clients. -/
def mailbox : TransitionSystem (State Client) (Action Client) :=
  .ofFunction (· = State.start) next

/-- The steps of the mailbox, one by one. -/
inductive Moves (before : State Client) : Action Client → State Client → Prop
  | serverLocks {sems} (at_ : before.server = .lock)
      (performed : before.sems.semop .server .full (-1) = some sems) :
      Moves before .server { before with sems, server := .print [] }
  | serverCopies {copied byte} (at_ : before.server = .print copied)
      (read : before.buffer[copied.length]? = some byte) (nonzero : byte ≠ 0) :
      Moves before .server { before with server := .print (copied ++ [byte]) }
  | serverPrints {copied} (at_ : before.server = .print copied)
      (read : before.buffer[copied.length]? = some 0) :
      Moves before .server
        { before with printed := before.printed ++ [copied], server := .unlock }
  | serverUnlocks {sems} (at_ : before.server = .unlock)
      (performed : before.sems.semop .server .empty 1 = some sems) :
      Moves before .server { before with sems, server := .lock }
  | clientLocks {who sems} (at_ : before.client who = .lock)
      (performed : before.sems.semop (.client who) .empty (-1) = some sems) :
      Moves before (.client who)
        { before with sems, client := Function.update before.client who .fgets }
  | clientReads {who text} (at_ : before.client who = .fgets)
      (piece : isPiece bufferSize text = true) :
      Moves before (.line who (some text))
        { before with client := Function.update before.client who (.store text 0) }
  | clientEof {who} (at_ : before.client who = .fgets) :
      Moves before (.line who none)
        { before with client := Function.update before.client who (.unlock none) }
  | clientStores {who text count byte} (at_ : before.client who = .store text count)
      (stored : (text ++ [0])[count]? = some byte) :
      Moves before (.client who) { before with
        buffer := before.buffer.set count byte
        client := Function.update before.client who (.store text (count + 1)) }
  | clientReturns {who text count} (at_ : before.client who = .store text count)
      (complete : (text ++ [0])[count]? = none) :
      Moves before (.client who)
        { before with client := Function.update before.client who (.unlock (some text)) }
  | clientUnlocks {who text sems} (at_ : before.client who = .unlock text)
      (performed : before.sems.semop (.client who) .full 1 = some sems) :
      Moves before (.client who) { before with
        sems
        client := Function.update before.client who .menu
        deposited := before.deposited ++ [cstr before.buffer]
        sent := Function.update before.sent who (before.sent who + 1) }
  | clientWrites {who choice} (at_ : before.client who = .menu)
      (staying : choice ≠ '2'.toUInt8) :
      Moves before (.choose who choice)
        { before with client := Function.update before.client who .lock }
  | clientStays {who choice} (staying : choice ≠ '2'.toUInt8) :
      Moves before (.choose who choice) before
  | leaves {action who} (ending : action.ends = some who)
      (alive : before.client who ≠ .ended) : Moves before action (before.leave who)

/-- Every step of the mailbox is one of the listed moves. -/
theorem moves_of_next {before after : State Client} {action : Action Client}
    (moved : next before action = some after) : Moves before action after := by
  cases action with
  | server =>
      simp only [next, server] at moved
      split at moved
      · rename_i at_
        obtain ⟨sems, performed, rfl⟩ := Option.map_eq_some_iff.mp moved
        exact .serverLocks at_ performed
      · rename_i copied at_
        obtain ⟨byte, read, rfl⟩ := Option.map_eq_some_iff.mp moved
        split
        · rename_i zero
          exact .serverPrints at_ (zero ▸ read)
        · rename_i nonzero
          exact .serverCopies at_ read nonzero
      · rename_i at_
        obtain ⟨sems, performed, rfl⟩ := Option.map_eq_some_iff.mp moved
        exact .serverUnlocks at_ performed
  | client who =>
      simp only [next, clientwrite] at moved
      split at moved
      · rename_i at_
        obtain ⟨sems, performed, rfl⟩ := Option.map_eq_some_iff.mp moved
        exact .clientLocks at_ performed
      · rename_i text count at_
        split at moved
        · rename_i byte stored
          cases moved
          exact .clientStores at_ stored
        · rename_i complete
          cases moved
          exact .clientReturns at_ complete
      · rename_i text at_
        obtain ⟨sems, performed, rfl⟩ := Option.map_eq_some_iff.mp moved
        exact .clientUnlocks at_ performed
      · cases moved
      · cases moved
      · cases moved
  | choose who choice =>
      simp only [next, choose] at moved
      split at moved
      · rename_i at_
        cases moved
        split
        · rename_i write
          exact .clientWrites at_ (by rw [write]; decide)
        · split
          · rename_i quit
            exact .leaves (by simp only [Action.ends, quit, ↓reduceIte]) (by rw [at_]; nofun)
          · rename_i staying
            exact .clientStays staying
      · cases moved
  | line who text =>
      simp only [next] at moved
      split at moved
      · rename_i accepted
        cases moved
        cases text with
        | none => exact .clientEof accepted.1
        | some text => exact .clientReads accepted.1 accepted.2
      · cases moved
  | kill who =>
      simp only [next] at moved
      split at moved
      · cases moved
      · rename_i alive
        cases moved
        exact .leaves rfl alive

end LinuxUnix.Mailbox

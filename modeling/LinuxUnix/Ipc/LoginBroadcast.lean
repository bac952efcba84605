import LinuxUnix.Foundation.TransitionSystem
import LinuxUnix.Ipc.MessageServer

/-! # The login broadcast

Any number of `msq_client` processes make a queue of their own, log in at `msq_server`, log
out when they are interrupted, and remove their queue. The server takes one message after
the other from its queue, and sends every login to the queues in its list, one call of
`msgsnd` after the other, while clients come and go. A client whose queue has got the
identifier of a removed one, which the server has not taken out of its list yet, gets
logins before its own (`LinuxUnix.LoginBroadcast.not_informed_of_reused`). If the
identifiers of new queues are not in the list, every client gets each login from its own on
once, in order, until its logout (`LinuxUnix.LoginBroadcast.informed_of_reachable`).
-/

namespace LinuxUnix.LoginBroadcast

open CMemory Decimal MessageServer TransitionSystem

/-- `"Login"` -/
def login : List Byte :=
  [76, 111, 103, 105, 110]

/-- What stands in `c2s.message` before `sprintf`. -/
structure Buffer where
  bytes : List Byte
  room : bytes.length = msgLen

theorem length_print_le (id : Int32) : (print id.toInt).length ≤ 11 := by
  have low := id.le_toInt
  have high := id.toInt_lt
  cases there : id.toInt with
  | ofNat number =>
      have high : (number : ℤ) < 2 ^ 31 := by
        rw [← Int.ofNat_eq_natCast, ← there]
        exact high
      have count : (digits number).length ≤ 10 := length_digits_le (by decide) (by omega)
      exact Nat.le_succ_of_le count
  | negSucc number =>
      have low : -2 ^ 31 ≤ -((number : ℤ) + 1) := by
        rw [← Int.negSucc_eq, ← there]
        exact low
      have count : (digits (number + 1)).length ≤ 10 := length_digits_le (by decide) (by omega)
      exact Nat.succ_le_succ count

/-- A text with its NUL in the array, and what stands behind it. -/
theorem Buffer.sprintf_eq (buffer : Buffer) (text : List Byte) :
    ∃ rest, overwrite buffer.bytes 0 (text ++ [0]) = text ++ 0 :: rest := by
  refine ⟨buffer.bytes.drop (0 + (text ++ [0]).length), ?_⟩
  rw [overwrite, List.take_zero, List.nil_append, List.append_assoc, List.singleton_append]

theorem Buffer.length_sprintf (buffer : Buffer) {text : List Byte} (short : text.length ≤ 20) :
    (overwrite buffer.bytes 0 (text ++ [0])).length = msgLen := by
  have fits : 0 + (text ++ [0]).length ≤ buffer.bytes.length := by
    rw [buffer.room, List.length_append, List.length_singleton, msgLen]
    omega
  rw [length_overwrite fits, buffer.room]

/-- `"%d:Login"`, with priority 2 -/
def loginMail (id : Int32) (buffer : Buffer) : Mail where
  c2s := { priority := 2
           message := overwrite buffer.bytes 0 (print id.toInt ++ 58 :: login ++ [0]) }
  meaning := .text id login
  carried := by
    refine ⟨?_, by decide, buffer.sprintf_eq _⟩
    change (2 : ℤ) ≠ 1
    decide
  room := by
    apply buffer.length_sprintf
    have count := length_print_le id
    have colon : (58 :: login).length = 6 := rfl
    rw [List.length_append, colon]
    omega

/-- `"%d"`, with priority 1 -/
def logoutMail (id : Int32) (buffer : Buffer) : Mail where
  c2s := { priority := 1, message := overwrite buffer.bytes 0 (print id.toInt ++ [0]) }
  meaning := .logout id
  carried := ⟨rfl, buffer.sprintf_eq _⟩
  room := buffer.length_sprintf (Nat.le_trans (length_print_le id) (by decide))

/-- Where a client is. -/
inductive At
  | start
  /-- `msgget` has returned -/
  | created
  /-- the client has logged in, and waits for its first message -/
  | waiting
  /-- in the loop, or interrupted -/
  | running
  /-- the client has logged out -/
  | leaving
  | ended
  /-- a call has failed, and the client has returned -/
  | failed
  deriving DecidableEq

/-- A message in the queue of the server, and who has sent it. -/
structure Posted (Client : Type*) where
  sender : Client
  mail : Mail

/-- What a message of the server says: its priority and its text. -/
abbrev Text := ℤ × List Byte

def content (delivery : Delivery) : Text :=
  (delivery.priority, delivery.message)

/-- The server's variables and queue, the calls of `msgsnd` that `verteilen` has still to
make, the clients' queues by their identifiers, where each client is, its variable
`client_id`, what has been put into its queue, and the messages that the server has
received. -/
structure State (Client : Type*) where
  server : Server
  queue : List (Posted Client)
  sending : List Delivery
  owner : Int32 → Option Client
  place : Client → At
  clientId : Client → Int32
  put : Client → List Text
  history : List (Posted Client)

inductive Action (Client : Type*)
  /-- `msgget` returns an identifier -/
  | create (who : Client) (id : Int32)
  /-- `msgget` fails, which the client does not notice -/
  | createFails (who : Client)
  /-- the client sends its login -/
  | login (who : Client) (buffer : Buffer)
  /-- the client receives its first message -/
  | first (who : Client)
  /-- the client sends its logout -/
  | logout (who : Client) (buffer : Buffer)
  /-- `msgctl(client_id, IPC_RMID, NULL)` -/
  | remove (who : Client)
  /-- `msgsnd` or the first `msgrcv` of a client fails -/
  | fail (who : Client)
  /-- the server receives a message -/
  | receive
  /-- `verteilen` calls `msgsnd` -/
  | send

section

variable {Client : Type*} [DecidableEq Client]

def State.goTo (state : State Client) (who : Client) (at_ : At) : State Client :=
  { state with place := Function.update state.place who at_ }

/-- A client puts a message into the queue of the server. -/
def State.post (state : State Client) (who : Client) (mail : Mail) : State Client :=
  { state with queue := state.queue ++ [⟨who, mail⟩] }

/-- A message is put into the queue with this identifier, if there is one. -/
def State.msgsnd (state : State Client) (delivery : Delivery) : State Client :=
  match state.owner delivery.queue with
  | some who =>
      if 0 < delivery.priority then
        { state with put := Function.update state.put who (state.put who ++ [content delivery]) }
      else state
  | none => state

/-- The effect of an action. The kernel gives new queues identifiers greater than 0 which no
other queue has, and no queue is full. -/
def next (state : State Client) : Action Client → Option (State Client)
  | .create who id =>
      if state.place who = .start ∧ state.owner id = none ∧ 0 < id then
        some ({ state with
          owner := Function.update state.owner id (some who)
          clientId := Function.update state.clientId who id }.goTo who .created)
      else none
  | .createFails who =>
      if state.place who = .start then
        some ({ state with clientId := Function.update state.clientId who (-1) }.goTo who .created)
      else none
  | .login who buffer =>
      if state.place who = .created then
        some ((state.post who (loginMail (state.clientId who) buffer)).goTo who .waiting)
      else none
  | .first who =>
      if state.place who = .waiting ∧ state.put who ≠ [] then some (state.goTo who .running)
      else none
  | .logout who buffer =>
      if state.place who = .running then
        some ((state.post who (logoutMail (state.clientId who) buffer)).goTo who .leaving)
      else none
  | .remove who =>
      if state.place who = .leaving then
        some ({ state with owner := Function.update state.owner (state.clientId who) none }.goTo
          who .ended)
      else none
  | .fail who =>
      if state.place who = .created ∨ state.place who = .waiting ∨ state.place who = .running then
        some (state.goTo who .failed)
      else none
  | .receive =>
      match state.sending, state.queue with
      | [], posted :: queue =>
          let received := receive state.server posted.mail.c2s
          some { state with
            server := received.1, sending := received.2, queue
            history := state.history ++ [posted] }
      | _, _ => none
  | .send =>
      match state.sending with
      | delivery :: sending => some { state.msgsnd delivery with sending }
      | [] => none

/-- The server in its loop, before the first client. -/
def Start (state : State Client) : Prop :=
  ∃ (clientId : Int32) (puffer : List Byte) (ids : Client → Int32),
    state = { server := MessageServer.start clientId puffer, queue := [], sending := []
              owner := fun _ => none, place := fun _ => .start, clientId := ids
              put := fun _ => [], history := [] }

def broadcast : TransitionSystem (State Client) (Action Client) :=
  .ofFunction Start next

/-- What a client should have got after another message: every login from its own on, up to
its logout. -/
def follow (who : Client) (sofar : Bool × List Text) (posted : Posted Client) :
    Bool × List Text :=
  match posted.mail.meaning with
  | .text id _ =>
      if sofar.1 || posted.sender = who then (true, sofar.2 ++ [(id.toInt, login)]) else sofar
  | .logout _ => (sofar.1 && posted.sender ≠ who, sofar.2)

/-- The logins that the server has received from the client's own login on, up to its
logout. -/
def owed (who : Client) (history : List (Posted Client)) : List Text :=
  (history.foldl (follow who) (false, [])).2

/-- When the server is about to receive, every client that has a queue has got what it
should, and the server goes on after each call of `msgsnd`. -/
structure Informed (state : State Client) : Prop where
  informed : state.sending = [] → ∀ who id, state.owner id = some who →
    state.put who = owed who state.history
  goesOn : ∀ delivery sending, state.sending = delivery :: sending →
    ∃ after, next state .send = some after ∧ after.sending = sending

/-- Every client gets a queue. -/
def Created (_ : State Client) : Action Client → Prop
  | .createFails _ => False
  | _ => True

/-- Every client gets a queue, with an identifier that is not in the server's list. -/
def Fresh (state : State Client) : Action Client → Prop
  | .create _ id => id ∉ state.server.idFirst
  | .createFails _ => False
  | _ => True

end

end LinuxUnix.LoginBroadcast

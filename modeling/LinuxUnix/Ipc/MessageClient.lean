import LinuxUnix.Ipc.LoginBroadcast

/-! # The end of a client

`msq_client` logs out and removes its queue at the normal end of `main` only. It returns early
when `msgsnd` or `msgrcv` fails, also by an interrupt, and then leaves its queue behind, and its
login at the server too (`LinuxUnix.MessageClient.not_leavesNothing_of_interrupt`). It leaves
nothing behind in exactly those runs in which the server's queue is not found, or no queue is
made and the login fails as well, or no call after the making of the queue fails
(`LinuxUnix.MessageClient.leavesNothing_iff_smooth`).

The outputs to the terminal are left out.
-/

namespace LinuxUnix.MessageClient

open LoginBroadcast MessageServer TransitionSystem

/-- `EXIT_SUCCESS` and `EXIT_FAILURE`. -/
inductive Status
  | exitSuccess
  | exitFailure
  deriving DecidableEq

/-- Where the client stands in `main`, from the installation of the handler on. -/
inductive At
  /-- before `msgget` for the server's queue -/
  | findServer
  /-- before `msgget` for its own queue -/
  | createQueue
  /-- before the first `msgsnd` -/
  | login
  /-- before the first `msgrcv` -/
  | firstMessage
  /-- before the test of `ende` -/
  | loop
  /-- before `msgrcv` with `IPC_NOWAIT` -/
  | poll
  /-- before the second `msgsnd` -/
  | logout
  /-- before `msgctl` -/
  | remove
  | ended (status : Status)
  deriving DecidableEq

/-- Where the client stands, its variables, its queue if it has one, and the messages that the
server's queue has accepted from it. -/
structure State where
  place : At
  ende : Bool
  serverId : Int32
  clientId : Int32
  buffer : Buffer
  queue : Option Int32
  sent : List Mail

/-- The state behind `signal`, with whatever stands in the variables. -/
def start (serverId clientId : Int32) (buffer : Buffer) : State where
  place := .findServer
  ende := true
  serverId
  clientId
  buffer
  queue := none
  sent := []

/-- How a call of `msgsnd`, `msgrcv` or `msgctl` turns out. A blocking call that `SIGINT`
interrupts returns `-1` after the handler has run. -/
inductive Outcome
  | succeeded
  | failed
  | interrupted
  deriving DecidableEq

inductive Event
  /-- `SIGINT` arrives outside of a blocking call -/
  | sigint
  /-- `msgget` returns an identifier or `-1` -/
  | msgget (res : Int32)
  | call (outcome : Outcome)
  /-- the test of `ende` -/
  | test
  deriving DecidableEq

/-- `shutdown_msq` -/
def shutdownMsq (state : State) : State := { state with ende := false }

/-- `main` after `msgget` for the server's queue. -/
def afterFindServer (state : State) (res : Int32) : State :=
  if res < 0 then { state with serverId := res, place := .ended .exitFailure }
  else { state with serverId := res, place := .createQueue }

/-- `main` after `msgget` for its own queue; it tests the other identifier. -/
def afterCreateQueue (state : State) (res : Int32) : State :=
  { state with
    clientId := res
    queue := if res < 0 then none else some res
    place := if state.serverId < 0 then .ended .exitFailure else .login }

/-- The server's queue has accepted a message. -/
def State.send (state : State) (mail : Mail) (next : At) : State :=
  { state with
    sent := state.sent ++ [mail], buffer := ⟨mail.c2s.message, mail.room⟩, place := next }

/-- `main` after `msgget`. -/
def afterMsgget (state : State) (res : Int32) : Option State :=
  match state.place with
  | .findServer => some (afterFindServer state res)
  | .createQueue => some (afterCreateQueue state res)
  | _ => none

/-- `main` after a call that has succeeded. A message is received from an existing queue
only. -/
def afterSuccess (state : State) : Option State :=
  match state.place with
  | .login => some (state.send (loginMail state.clientId state.buffer) .firstMessage)
  | .firstMessage => if state.queue = none then none else some { state with place := .loop }
  | .poll => some { state with place := .loop }
  | .logout => some (state.send (logoutMail state.clientId state.buffer) .remove)
  | .remove => some { state with queue := none, place := .ended .exitSuccess }
  | _ => none

/-- `main` after a call that has failed. -/
def afterFailure (state : State) : Option State :=
  match state.place with
  | .login | .firstMessage | .logout => some { state with place := .ended .exitFailure }
  | .poll => some { state with place := .loop }
  | .remove => some { state with place := .ended .exitSuccess }
  | _ => none

/-- One step of the client. -/
def next (state : State) : Event → Option State
  | .sigint =>
      match state.place with
      | .ended _ => none
      | _ => some (shutdownMsq state)
  | .msgget res => if -1 ≤ res then afterMsgget state res else none
  | .call .succeeded => afterSuccess state
  | .call .failed => afterFailure state
  | .call .interrupted => afterFailure (shutdownMsq state)
  | .test =>
      match state.place with
      | .loop => some { state with place := if state.ende then .poll else .logout }
      | _ => none

/-- The client has no queue, and behind each login of it that the server's queue has accepted
there is a logout for the same identifier. -/
structure LeavesNothing (state : State) : Prop where
  queue : state.queue = none
  logsOut : ∀ before mail after id, state.sent = before ++ mail :: after →
    mail.meaning = .text id login → ∃ later ∈ after, later.meaning = .logout id

/-- The outcome of a call lets the client clean up: where it has a queue, its calls succeed,
and where it has none, it cannot log in. -/
def Smooth (state : State) (event : Event) : Prop :=
  match event with
  | .call outcome => (state.place = .login → (outcome = .succeeded ↔ state.queue ≠ none)) ∧
      (state.place = .firstMessage ∨ state.place = .logout ∨ state.place = .remove →
        outcome = .succeeded)
  | .sigint | .msgget _ | .test => True

instance (state : State) : ∀ event, Decidable (Smooth state event)
  | .call _ => inferInstanceAs (Decidable (_ ∧ _))
  | .sigint | .msgget _ | .test => .isTrue trivial

/-- The client returns, or goes on, without having done anything that others can see. -/
def State.goTo (state : State) (ende : Bool) (place : At) : State :=
  { state with ende := ende, place := place }

/-- What a step can do. -/
inductive Moves (state : State) : Event → State → Prop
  | sigint (goes : ∀ status, state.place ≠ .ended status) (ende : Bool) :
      Moves state .sigint (state.goTo ende state.place)
  | notFound (here : state.place = .findServer) (res : Int32) :
      Moves state (.msgget res) { state with serverId := res, place := .ended .exitFailure }
  | found (here : state.place = .findServer) {res : Int32} (valid : ¬ res < 0) :
      Moves state (.msgget res) { state with serverId := res, place := .createQueue }
  | misjudged (here : state.place = .createQueue) (invalid : state.serverId < 0) (res : Int32)
      (after : State) : Moves state (.msgget res) after
  | created (here : state.place = .createQueue) (res : Int32) (queue : Option Int32) :
      Moves state (.msgget res) { state with clientId := res, queue := queue, place := .login }
  | loggedIn (here : state.place = .login) :
      Moves state (.call .succeeded)
        (state.send (loginMail state.clientId state.buffer) .firstMessage)
  | gaveUp (here : state.place = .login ∨ state.place = .firstMessage ∨ state.place = .logout)
      {outcome : Outcome} (unsuccessful : outcome ≠ .succeeded) (ende : Bool) :
      Moves state (.call outcome) (state.goTo ende (.ended .exitFailure))
  | received (here : state.place = .firstMessage) (exists_ : state.queue ≠ none) :
      Moves state (.call .succeeded) (state.goTo state.ende .loop)
  | tested (here : state.place = .loop) {place : At} (goes : place = .poll ∨ place = .logout) :
      Moves state .test (state.goTo state.ende place)
  | polled (here : state.place = .poll) (outcome : Outcome) (ende : Bool) :
      Moves state (.call outcome) (state.goTo ende .loop)
  | loggedOut (here : state.place = .logout) :
      Moves state (.call .succeeded)
        (state.send (logoutMail state.clientId state.buffer) .remove)
  | removed (here : state.place = .remove) :
      Moves state (.call .succeeded) { state with queue := none, place := .ended .exitSuccess }
  | notRemoved (here : state.place = .remove) {outcome : Outcome}
      (unsuccessful : outcome ≠ .succeeded) (ende : Bool) :
      Moves state (.call outcome) (state.goTo ende (.ended .exitSuccess))

variable {before after : State} {event : Event}

theorem moves_of_msgget {res : Int32} (moved : afterMsgget before res = some after) :
    Moves before (.msgget res) after := by
  unfold afterMsgget at moved
  split at moved
  · rename_i here
    cases moved
    rw [afterFindServer]
    split
    · exact .notFound here res
    · rename_i valid
      exact .found here valid
  · rename_i here
    cases moved
    by_cases invalid : before.serverId < 0
    · exact .misjudged here invalid res _
    · rw [afterCreateQueue, if_neg invalid]
      exact .created here res _
  · cases moved

theorem moves_of_success (moved : afterSuccess before = some after) :
    Moves before (.call .succeeded) after := by
  unfold afterSuccess at moved
  split at moved
  · rename_i here
    cases moved
    exact .loggedIn here
  · rename_i here
    split at moved
    · cases moved
    · rename_i exists_
      cases moved
      exact .received here exists_
  · rename_i here
    cases moved
    exact .polled here .succeeded before.ende
  · rename_i here
    cases moved
    exact .loggedOut here
  · rename_i here
    cases moved
    exact .removed here
  · cases moved

/-- A failed call, whether the handler has run or not. -/
theorem moves_of_failure {ende : Bool} {outcome : Outcome} (unsuccessful : outcome ≠ .succeeded)
    (moved : afterFailure { before with ende := ende } = some after) :
    Moves before (.call outcome) after := by
  unfold afterFailure at moved
  split at moved
  · rename_i here
    cases moved
    exact @Moves.gaveUp before (.inl here) outcome unsuccessful ende
  · rename_i here
    cases moved
    exact @Moves.gaveUp before (.inr (.inl here)) outcome unsuccessful ende
  · rename_i here
    cases moved
    exact @Moves.gaveUp before (.inr (.inr here)) outcome unsuccessful ende
  · rename_i here
    cases moved
    exact @Moves.polled before here outcome ende
  · rename_i here
    cases moved
    exact @Moves.notRemoved before here outcome unsuccessful ende
  · cases moved

theorem moves_of_next (moved : next before event = some after) : Moves before event after := by
  cases event with
  | sigint =>
      simp only [next] at moved
      split at moved
      · cases moved
      · rename_i goes
        cases moved
        exact .sigint goes false
  | msgget res =>
      simp only [next] at moved
      split at moved
      · exact moves_of_msgget moved
      · cases moved
  | call outcome =>
      cases outcome with
      | succeeded => exact moves_of_success moved
      | failed => exact @moves_of_failure before after before.ende .failed (by decide) moved
      | interrupted => exact @moves_of_failure before after false .interrupted (by decide) moved
  | test =>
      simp only [next] at moved
      split at moved
      · rename_i here
        cases moved
        refine .tested here ?_
        split
        · exact .inl rfl
        · exact .inr rfl
      · cases moved

/-- The login has been accepted, and nothing else. -/
def State.LoggedIn (state : State) : Prop :=
  ∃ buffer, state.sent = [loginMail state.clientId buffer]

/-- The login has been accepted, and then the logout. -/
def State.LoggedOut (state : State) : Prop :=
  ∃ buffer buffer',
    state.sent = [loginMail state.clientId buffer, logoutMail state.clientId buffer']

/-- What holds as long as the calls let the client clean up. -/
def Fine (state : State) : Prop :=
  match state.place with
  | .findServer => state.sent = [] ∧ state.queue = none
  | .createQueue => ¬ state.serverId < 0 ∧ state.sent = []
  | .login => state.sent = []
  | .firstMessage | .loop | .poll | .logout => state.queue ≠ none ∧ state.LoggedIn
  | .remove => state.queue ≠ none ∧ state.LoggedOut
  | .ended _ => LeavesNothing state

/-- The client is going to leave something behind, or it has done so. -/
def Left (state : State) : Prop :=
  match state.place with
  | .firstMessage => state.queue = none ∧ state.LoggedIn
  | .ended _ => ¬ LeavesNothing state
  | _ => False

theorem leavesNothing_of_silent {state : State} (queue : state.queue = none)
    (silent : state.sent = []) : LeavesNothing state := by
  refine ⟨queue, fun before mail after id split => ?_⟩
  rw [silent] at split
  exact absurd split.symm (List.append_ne_nil_of_right_ne_nil _ (List.cons_ne_nil _ _))

/-- A login without a logout is left at the server. -/
theorem State.LoggedIn.not_leavesNothing {state : State} (loggedIn : state.LoggedIn) :
    ¬ LeavesNothing state := by
  intro leaves
  obtain ⟨buffer, sent⟩ := loggedIn
  obtain ⟨later, member, _⟩ := leaves.logsOut [] _ [] state.clientId sent rfl
  cases member

theorem leavesNothing_of_loggedOut {state : State} (queue : state.queue = none)
    (loggedOut : state.LoggedOut) : LeavesNothing state := by
  obtain ⟨buffer, buffer', sent⟩ := loggedOut
  refine ⟨queue, fun before mail after id split meant => ?_⟩
  rw [sent] at split
  cases before with
  | nil =>
      cases split
      cases meant
      exact ⟨_, List.mem_cons_self, rfl⟩
  | cons first before =>
      have rest := List.tail_eq_of_cons_eq split
      cases before with
      | nil =>
          cases rest
          cases meant
      | cons second before =>
          have short := List.tail_eq_of_cons_eq rest
          exact absurd short.symm (List.append_ne_nil_of_right_ne_nil _ (List.cons_ne_nil _ _))

/-- `SIGINT` alone changes nothing that others can see. -/
theorem Fine.sigint (fine : Fine before) (goes : ∀ status, before.place ≠ .ended status)
    (ende : Bool) : Fine (before.goTo ende before.place) := by
  cases here : before.place with
  | ended status => exact absurd here (goes status)
  | findServer | createQueue | login | firstMessage | loop | poll | logout | remove =>
      simp only [Fine, here] at fine
      exact fine

/-- What follows a call that lets the client clean up. -/
theorem Fine.moves (fine : Fine before) (smooth : Smooth before event)
    (moved : Moves before event after) : Fine after := by
  cases moved with
  | sigint goes ende => exact fine.sigint goes ende
  | notFound here res =>
      simp only [Fine, here] at fine
      exact leavesNothing_of_silent fine.2 fine.1
  | found here valid =>
      simp only [Fine, here] at fine
      exact ⟨valid, fine.1⟩
  | misjudged here invalid res =>
      simp only [Fine, here] at fine
      exact absurd invalid fine.1
  | created here res queue =>
      simp only [Fine, here] at fine
      exact fine.2
  | loggedIn here =>
      simp only [Fine, here] at fine
      refine ⟨(smooth.1 here).mp rfl, before.buffer, ?_⟩
      rw [State.send, fine]
      rfl
  | gaveUp here unsuccessful ende =>
      rcases here with here | here | here
      · simp only [Fine, here] at fine
        have none_ := not_not.mp fun some_ => unsuccessful ((smooth.1 here).mpr some_)
        exact leavesNothing_of_silent none_ fine
      · exact absurd (smooth.2 (.inl here)) unsuccessful
      · exact absurd (smooth.2 (.inr (.inl here))) unsuccessful
  | received here exists_ =>
      simp only [Fine, here] at fine
      exact fine
  | tested here goes =>
      simp only [Fine, here] at fine
      rcases goes with rfl | rfl
      · exact fine
      · exact fine
  | polled here outcome ende =>
      simp only [Fine, here] at fine
      exact fine
  | loggedOut here =>
      simp only [Fine, here] at fine
      obtain ⟨exists_, buffer, sent⟩ := fine
      refine ⟨exists_, buffer, before.buffer, ?_⟩
      rw [State.send, sent]
      rfl
  | removed here =>
      simp only [Fine, here] at fine
      exact leavesNothing_of_loggedOut rfl fine.2
  | notRemoved here unsuccessful =>
      exact absurd (smooth.2 (.inr (.inr here))) unsuccessful

/-- What follows a call that does not. -/
theorem Fine.left_of_rough (fine : Fine before) (rough : ¬ Smooth before event)
    (moved : Moves before event after) : Left after := by
  cases moved with
  | sigint | notFound | found | misjudged | created | tested => exact absurd trivial rough
  | loggedIn here =>
      simp only [Fine, here] at fine
      have none_ : before.queue = none := by
        by_contra some_
        refine rough ⟨fun _ => iff_of_true rfl some_, fun _ => rfl⟩
      refine ⟨none_, before.buffer, ?_⟩
      rw [State.send, fine]
      rfl
  | gaveUp here unsuccessful ende =>
      rcases here with here | here | here
      · refine fun leaves => rough ⟨fun _ => ?_, fun other => ?_⟩
        · exact iff_of_false unsuccessful fun some_ => some_ leaves.queue
        · rw [here] at other
          rcases other with other | other | other <;> cases other
      · simp only [Fine, here] at fine
        exact fun leaves => fine.1 leaves.queue
      · simp only [Fine, here] at fine
        exact fun leaves => fine.1 leaves.queue
  | polled here outcome ende =>
      refine absurd ⟨fun login => ?_, fun other => ?_⟩ rough
      · cases here.symm.trans login
      · rw [here] at other
        rcases other with other | other | other <;> cases other
  | received here | loggedOut here | removed here =>
      refine absurd ⟨fun login => ?_, fun _ => rfl⟩ rough
      cases here.symm.trans login
  | notRemoved here =>
      simp only [Fine, here] at fine
      exact fun leaves => fine.1 leaves.queue

/-- What is left stays. -/
theorem Left.moves (left_ : Left before) (moved : Moves before event after) : Left after := by
  cases moved with
  | notFound here | found here | misjudged here | created here | loggedIn here | tested here
  | polled here | loggedOut here | removed here | notRemoved here =>
      simp only [Left, here] at left_
  | sigint goes ende =>
      cases here : before.place with
      | ended status => exact absurd here (goes status)
      | firstMessage =>
          simp only [Left, here] at left_
          exact left_
      | findServer | createQueue | login | loop | poll | logout | remove =>
          simp only [Left, here] at left_
  | gaveUp here unsuccessful ende =>
      rcases here with here | here | here
      · simp only [Left, here] at left_
      · simp only [Left, here] at left_
        exact fun leaves => left_.2.not_leavesNothing ⟨leaves.queue, leaves.logsOut⟩
      · simp only [Left, here] at left_
  | received here exists_ =>
      simp only [Left, here] at left_
      exact absurd left_.1 exists_

/-- **The end.** A client that has ended leaves nothing behind if and only if every call has
let it clean up. -/
theorem leavesNothing_iff_smooth {serverId clientId : Int32} {buffer : Buffer}
    {events : List Event} {status : Status}
    (executed : run next (start serverId clientId buffer) events = some after)
    (ended : after.place = .ended status) :
    LeavesNothing after ↔ Along Smooth next (start serverId clientId buffer) events := by
  have fine : Fine (start serverId clientId buffer) := ⟨rfl, rfl⟩
  rcases run_decides (fun _ _ _ fine smooth moved => fine.moves smooth (moves_of_next moved))
    (fun _ _ _ fine rough moved => fine.left_of_rough rough (moves_of_next moved))
    (fun _ _ _ left_ moved => left_.moves (moves_of_next moved)) fine executed with
    ⟨along, fine⟩ | ⟨strayed, left_⟩
  · simp only [Fine, ended] at fine
    exact iff_of_true fine along
  · simp only [Left, ended] at left_
    exact iff_of_false left_ strayed

/-- Blanks stand in the array at first. -/
def blanks : Buffer where
  bytes := List.replicate msgLen 32
  room := List.length_replicate

/-- A client that is interrupted in the loop. -/
def interruptedInLoop : List Event :=
  [.msgget 5, .msgget 7, .call .succeeded, .call .succeeded, .test, .sigint, .call .failed, .test,
    .call .succeeded, .call .succeeded]

theorem leavesNothing_of_interruptInLoop : ∃ state,
    run next (start 0 0 blanks) interruptedInLoop = some state ∧ LeavesNothing state := by
  refine ⟨_, rfl, (@leavesNothing_iff_smooth _ 0 0 blanks interruptedInLoop .exitSuccess rfl
    rfl).mpr (by decide)⟩

/-- A client that is interrupted while it waits for its first message. -/
theorem not_leavesNothing_of_interrupt : ¬ ∀ (serverId clientId : Int32) (buffer : Buffer)
    (events : List Event) (state : State) (status : Status),
      run next (start serverId clientId buffer) events = some state →
        state.place = .ended status → LeavesNothing state := by
  intro claim
  have leaves := claim 0 0 blanks [.msgget 5, .msgget 7, .call .succeeded, .call .interrupted] _
    .exitFailure rfl rfl
  exact absurd leaves.queue (by decide)

end LinuxUnix.MessageClient

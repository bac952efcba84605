import LinuxUnix.Foundation.TransitionSystem
import Mathlib.Data.Finset.Card

/-! # Signals between parent and child

`sig_sync` forks, and parent and child take turns: each waits in `sigsuspend` for the signal
of the other. The handler calls `start_sync` again, which stores the mask of the running
handler in `mask_alt`, and this mask is blocked once more after the wait.
-/

namespace LinuxUnix.SignalSync

open TransitionSystem

/-- A set of signals, by their numbers. -/
abbrev Mask := Finset ℕ

def sigusr1 : ℕ := 10

def sigusr2 : ℕ := 12

/-- The two processes after `fork`, and their outputs. -/
inductive Who
  | eltern
  | kind
  deriving DecidableEq

def Who.other : Who → Who
  | .eltern => .kind
  | .kind => .eltern

/-- The signal that a process waits for. -/
def Who.signal : Who → ℕ
  | .eltern => sigusr1
  | .kind => sigusr2

/-- Where a running `sig_func` is. -/
inductive Stage
  /-- before `start_sync` -/
  | syncing
  /-- before `flag = 1` -/
  | setting
  deriving DecidableEq

/-- A running handler, and the mask that comes back when it returns. -/
structure Handler where
  stage : Stage
  saved : Mask

/-- Where a process is. -/
inductive Place
  /-- before `printf` -/
  | output
  /-- before `kill` -/
  | send
  /-- before `while (!flag)` -/
  | test
  /-- in `sigsuspend` -/
  | suspended
  /-- before `flag = 0` -/
  | reset
  /-- before `sigprocmask(SIG_BLOCK, &mask_alt, NULL)` -/
  | restore
  | ended
  deriving DecidableEq

/-- A process: where it is, its round, its variables, its mask, the mask that comes back when
`sigsuspend` returns, the running handlers, the signals that are pending, and how many
signals have been sent to it and handled. -/
structure Process where
  place : Place
  round : ℕ
  flag : Bool
  maskNeu : Mask
  maskAlt : Mask
  maskNull : Mask
  mask : Mask
  former : Mask
  handlers : List Handler
  pending : Mask
  sent : ℕ
  handled : ℕ

/-- `start_sync` -/
def startSync (process : Process) : Process :=
  { process with
    maskNull := ∅
    maskNeu := {sigusr1, sigusr2}
    maskAlt := process.mask
    mask := process.mask ∪ {sigusr1, sigusr2} }

/-- `sigsuspend(&mask_null)` -/
def sigsuspend (process : Process) : Process :=
  { process with
    place := .suspended, former := process.mask, mask := process.maskNull, handlers := [] }

/-- A handler returns, and `sigsuspend` with the first one that was called. -/
def handlerReturns (process : Process) (saved : Mask) : List Handler → Process
  | [] => { process with place := .test, mask := process.former, handlers := [] }
  | handlers => { process with mask := saved, handlers }

/-- A step of a process in `eltern_warten` or `kind_wartet`, but for the last one. -/
def warten (process : Process) : Option Process :=
  match process.place with
  | .test => some (if process.flag then { process with place := .reset } else sigsuspend process)
  | .suspended =>
      match process.handlers with
      | [] => none
      | ⟨.syncing, saved⟩ :: handlers =>
          some { startSync process with handlers := ⟨.setting, saved⟩ :: handlers }
      | ⟨.setting, saved⟩ :: handlers =>
          some (handlerReturns { process with flag := true } saved handlers)
  | .reset => some { process with flag := false, place := .restore }
  | .output | .send | .restore | .ended => none

/-- The kernel delivers a signal to a process in `sigsuspend`. -/
def deliver (process : Process) (signal : ℕ) : Option Process :=
  if process.place = .suspended ∧ signal ∈ process.pending ∧ signal ∉ process.mask then
    some { process with
      pending := process.pending.erase signal
      handled := process.handled + 1
      handlers := ⟨.syncing, process.mask⟩ :: process.handlers
      mask := insert signal process.mask }
  else none

/-- `kill`: one signal of a kind can be pending, and none if the process has ended. -/
def kill (process : Process) (signal : ℕ) : Process :=
  if process.place = .ended then { process with sent := process.sent + 1 }
  else { process with sent := process.sent + 1, pending := insert signal process.pending }

/-- The end of a round, in a loop that starts at this place. -/
def nextRound (rounds : ℕ) (first : Place) (process : Process) : Process :=
  { process with
    round := process.round + 1
    place := if process.round + 1 < rounds then first else .ended }

/-- The processes, and the outputs that have been executed. -/
structure State where
  eltern : Process
  kind : Process
  log : List Who

def State.process (state : State) : Who → Process
  | .eltern => state.eltern
  | .kind => state.kind

def State.set (state : State) : Who → Process → State
  | .eltern, process => { state with eltern := process }
  | .kind, process => { state with kind := process }

/-- After `kill`, the parent waits, and the child begins the next round. -/
def afterSend (rounds : ℕ) : Who → Process → Process
  | .eltern, process => { process with place := .test }
  | .kind, process => nextRound rounds .test process

/-- After the wait, the parent begins the next round, and the child prints. -/
def afterWait (rounds : ℕ) : Who → Process → Process
  | .eltern, process => nextRound rounds .output process
  | .kind, process => { process with place := .output }

inductive Action
  /-- the next step of a process -/
  | step (who : Who)
  /-- a pending signal is delivered -/
  | deliver (who : Who) (signal : ℕ)

/-- The effect of an action, with so many rounds in place of `MAX`. -/
def next (rounds : ℕ) (state : State) : Action → Option State
  | .step who =>
      let process := state.process who
      match process.place with
      | .output =>
          some { state.set who { process with place := .send } with log := state.log ++ [who] }
      | .send =>
          let killed := state.set who.other (kill (state.process who.other) who.other.signal)
          some (killed.set who (afterSend rounds who process))
      | .restore =>
          let blocked := { process with mask := process.mask ∪ process.maskAlt }
          some (state.set who (afterWait rounds who blocked))
      | .test | .suspended | .reset | .ended => (warten process).map (state.set who)
  | .deliver who signal => (deliver (state.process who) signal).map (state.set who)

/-- A process with this mask before `start_sync`. No other process sends it these signals. -/
def fresh (mask : Mask) : Process where
  place := .test
  round := 0
  flag := false
  maskNeu := ∅
  maskAlt := ∅
  maskNull := ∅
  mask
  former := ∅
  handlers := []
  pending := ∅
  sent := 0
  handled := 0

/-- Parent and child after `start_sync` and `fork`. -/
def start (rounds : ℕ) (mask : Mask) : State where
  eltern := { startSync (fresh mask) with place := if 0 < rounds then .output else .ended }
  kind := { startSync (fresh mask) with place := if 0 < rounds then .test else .ended }
  log := []

def sigSync (rounds : ℕ) : TransitionSystem State Action :=
  .ofFunction (fun state => ∃ mask, state = start rounds mask) (next rounds)

/-- The outputs of some rounds. -/
def outputs (rounds : ℕ) : List Who :=
  (List.replicate rounds [.eltern, .kind]).flatten

/-- The outputs alternate, every signal that has been sent is handled once or pending, both
signals are blocked outside `sigsuspend`, and as long as a process has not ended, there is
a step. -/
structure Alternating (rounds : ℕ) (state : State) : Prop where
  order : state.log <+: outputs rounds
  counted : ∀ who, (state.process who).sent =
    (state.process who).handled + (state.process who).pending.card
  blocked : ∀ who, (state.process who).place ≠ .suspended →
    sigusr1 ∈ (state.process who).mask ∧ sigusr2 ∈ (state.process who).mask
  goesOn : (∃ who, (state.process who).place ≠ .ended) →
    ∃ action after, next rounds state action = some after

end LinuxUnix.SignalSync

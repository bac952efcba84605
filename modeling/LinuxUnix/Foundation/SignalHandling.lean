import Mathlib.Data.Finset.Card

/-! # Signals and their handlers

A signal that comes is pending until it is delivered, once however often it has come. If there is a
handler for it, the handler interrupts what runs, and the signal is blocked until the handler
returns. No handler therefore interrupts itself (`SignalState.Nested.nodup`).
-/

/-- What a process does with a signal. -/
inductive Disposition
  | default
  | ignore
  | handle
  deriving DecidableEq

/-- `struct sigaction`, without flags. -/
structure SigAction (Signal : Type*) where
  handler : Disposition
  mask : Finset Signal

/-- A handler that has begun: for which signal, what was blocked before, and where it is. -/
structure RunningHandler (Signal Place : Type*) where
  signal : Signal
  saved : Finset Signal
  place : Place

/-- The signals of a process; the handler that has begun last is the first. -/
structure SignalState (Signal Place : Type*) where
  action : Signal → SigAction Signal
  blocked : Finset Signal
  pending : Finset Signal
  running : List (RunningHandler Signal Place)

namespace SignalState

variable {Signal Place : Type*} [DecidableEq Signal]

/-- A signal comes. -/
def arrive (signals : SignalState Signal Place) (signal : Signal) : SignalState Signal Place :=
  if (signals.action signal).handler = .ignore ∧ signal ∉ signals.blocked then signals
  else { signals with pending := insert signal signals.pending }

/-- `sigaction`; a signal that is ignored is no longer pending. -/
def sigaction (signals : SignalState Signal Place) (signal : Signal) (action : SigAction Signal) :
    SignalState Signal Place :=
  { signals with
    action := fun other => if other = signal then action else signals.action other
    pending := if action.handler = .ignore then signals.pending.erase signal else signals.pending }

/-- The kernel may deliver the signal. -/
def Deliverable (signals : SignalState Signal Place) (signal : Signal) : Prop :=
  signal ∈ signals.pending ∧ signal ∉ signals.blocked

instance (signals : SignalState Signal Place) (signal : Signal) :
    Decidable (signals.Deliverable signal) :=
  inferInstanceAs (Decidable (_ ∧ _))

/-- A signal is delivered that is ignored. -/
def drop (signals : SignalState Signal Place) (signal : Signal) : SignalState Signal Place :=
  { signals with pending := signals.pending.erase signal }

/-- A signal is delivered, and its handler begins. -/
def enter (signals : SignalState Signal Place) (signal : Signal) (place : Place) :
    SignalState Signal Place :=
  { signals with
    blocked := insert signal (signals.blocked ∪ (signals.action signal).mask)
    pending := signals.pending.erase signal
    running := ⟨signal, signals.blocked, place⟩ :: signals.running }

/-- The handler that runs comes to another place. -/
def goTo (signals : SignalState Signal Place) (place : Place) : SignalState Signal Place :=
  match signals.running with
  | [] => signals
  | handler :: interrupted =>
      { signals with running := { handler with place := place } :: interrupted }

/-- The handler that runs returns. -/
def leave (signals : SignalState Signal Place) : SignalState Signal Place :=
  match signals.running with
  | [] => signals
  | handler :: interrupted =>
      { signals with blocked := handler.saved, running := interrupted }

/-- Each handler has interrupted something that did not block its signal, and blocks it. -/
inductive Nested : List (RunningHandler Signal Place) → Finset Signal → Prop
  | none (blocked : Finset Signal) : Nested [] blocked
  | handler {handler : RunningHandler Signal Place}
      {interrupted : List (RunningHandler Signal Place)} {blocked : Finset Signal}
      (nested : Nested interrupted handler.saved) (open_ : handler.signal ∉ handler.saved)
      (blocks : insert handler.signal handler.saved ⊆ blocked) :
      Nested (handler :: interrupted) blocked

variable {signals : SignalState Signal Place} {signal : Signal} {place : Place}
  {running : List (RunningHandler Signal Place)} {blocked : Finset Signal}

theorem Nested.mem_blocked (nested : Nested running blocked) :
    ∀ handler ∈ running, handler.signal ∈ blocked := by
  induction nested with
  | none blocked => exact nofun
  | handler nested open_ blocks ih =>
      intro other there
      rcases List.mem_cons.mp there with rfl | there
      · exact blocks (Finset.mem_insert_self ..)
      · exact blocks (Finset.mem_insert_of_mem (ih other there))

/-- **No handler interrupts itself.** -/
theorem Nested.nodup (nested : Nested running blocked) : (running.map (·.signal)).Nodup := by
  induction nested with
  | none blocked => exact List.nodup_nil
  | @handler handler interrupted blocked nested open_ blocks ih =>
      rw [List.map_cons, List.nodup_cons]
      refine ⟨fun there => ?_, ih⟩
      obtain ⟨other, there, same⟩ := List.mem_map.mp there
      exact open_ (same ▸ nested.mem_blocked other there)

theorem Nested.enter (nested : Nested signals.running signals.blocked)
    (open_ : signal ∉ signals.blocked) :
    Nested (signals.enter signal place).running (signals.enter signal place).blocked :=
  .handler nested open_ (Finset.insert_subset_insert _ Finset.subset_union_left)

theorem Nested.goTo (nested : Nested signals.running signals.blocked) :
    Nested (signals.goTo place).running (signals.goTo place).blocked := by
  obtain ⟨action, blocked, pending, running⟩ := signals
  cases nested with
  | none blocked => exact .none blocked
  | handler nested open_ blocks => exact .handler nested open_ blocks

theorem Nested.leave (nested : Nested signals.running signals.blocked) :
    Nested signals.leave.running signals.leave.blocked := by
  obtain ⟨action, blocked, pending, running⟩ := signals
  cases nested with
  | none blocked => exact .none blocked
  | handler nested open_ blocks => exact nested

omit [DecidableEq Signal] in
theorem goTo_of_running {handler : RunningHandler Signal Place}
    (here : signals.running = handler :: running) :
    signals.goTo place =
      { signals with running := { handler with place := place } :: running } := by
  simp only [SignalState.goTo, here]

omit [DecidableEq Signal] in
theorem leave_of_running {handler : RunningHandler Signal Place}
    (here : signals.running = handler :: running) :
    signals.leave = { signals with blocked := handler.saved, running := running } := by
  simp only [SignalState.leave, here]

@[simp] theorem action_arrive (other : Signal) :
    (signals.arrive signal).action other = signals.action other := by
  rw [arrive]
  split <;> rfl

@[simp] theorem running_arrive : (signals.arrive signal).running = signals.running := by
  rw [arrive]
  split <;> rfl

@[simp] theorem blocked_arrive : (signals.arrive signal).blocked = signals.blocked := by
  rw [arrive]
  split <;> rfl

/-- What was pending is pending. -/
theorem pending_arrive : signals.pending ⊆ (signals.arrive signal).pending := by
  rw [arrive]
  split
  · exact Finset.Subset.refl _
  · exact Finset.subset_insert ..

/-- A signal that is not ignored is pending when it has come. -/
theorem mem_pending_arrive (heard : (signals.action signal).handler ≠ .ignore) :
    signal ∈ (signals.arrive signal).pending := by
  rw [arrive, if_neg fun ignored => heard ignored.1]
  exact Finset.mem_insert_self ..

/-- Another signal is pending only if it was. -/
theorem mem_pending_of_arrive {other : Signal} (differs : other ≠ signal)
    (there : other ∈ (signals.arrive signal).pending) : other ∈ signals.pending := by
  rw [arrive] at there
  split at there
  · exact there
  · exact Finset.mem_of_mem_insert_of_ne there differs

end SignalState

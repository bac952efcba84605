import LinuxUnix.Foundation.SignalHandling
import LinuxUnix.Foundation.TransitionSystem

/-! # sig.c

`main` asks for the handler `check_sig` when `SIGINT` or `SIGALRM` comes, has `SIGABRT` ignored,
and loops. For a `SIGINT` the handler shows a menu and does what is chosen; for a `SIGALRM` it
ends the process. Signals come at any time, also while a menu is open. There is never more than one
menu, none comes without a `SIGINT`, a `SIGINT` is never lost, and it is known what the process can
die of (`LinuxUnix.SignalMenu.answered_of_run`).

What a choice is when `scanf` finds no number is left open. `SA_RESTART` has no effect here: the
only call that a handler can interrupt is `scanf`, and the handler of `SIGALRM` does not return.
-/

namespace LinuxUnix.SignalMenu

open TransitionSystem

inductive Signal
  | sigint
  | sigalrm
  | sigabrt
  | sigfpe
  deriving DecidableEq

/-- Where a running `check_sig` is. -/
inductive At
  /-- before `scanf` -/
  | asking
  /-- before its end -/
  | leaving
  /-- before `raise(SIGKILL)`, for `SIGALRM` -/
  | raising
  deriving DecidableEq

/-- Where `main` is. -/
inductive MainAt
  /-- before `my_signal(SIGINT, check_sig)` -/
  | mySignal
  /-- before `signal_add(SIGALRM, check_sig)` -/
  | addAlarm
  /-- before `signal_add(SIGABRT, SIG_IGN)` -/
  | addAbort
  /-- before `check_signal` for these signals -/
  | checking (left : List Signal)
  | looping
  deriving DecidableEq

/-- The outputs. -/
inductive Output
  | action (signal : Signal) (handler : Disposition)
  | prompt
  | menu
  | removed
  | unknown
  | alarm
  deriving DecidableEq

/-- What has ended the process. -/
inductive Death
  /-- `raise(SIGKILL)` -/
  | sigkill
  /-- a signal that nothing has been asked for -/
  | byDefault (signal : Signal)
  deriving DecidableEq

/-- The process, with its timer and what has been chosen. -/
structure State where
  main : MainAt
  signals : SignalState Signal At
  alarm : Bool
  output : List Output
  choices : List ℤ
  ended : Option Death

inductive Action
  | main
  | arrives (signal : Signal)
  /-- the time of `alarm(5)` is over -/
  | expires
  | delivers (signal : Signal)
  /-- `scanf` leaves this number in `nr` -/
  | chooses (nr : ℤ)
  /-- a step of `check_sig` that is not `scanf` -/
  | handler
  deriving DecidableEq

def mySignal (signals : SignalState Signal At) (signal : Signal) (handler : Disposition) :
    SignalState Signal At :=
  signals.sigaction signal ⟨handler, ∅⟩

def signalAdd (signals : SignalState Signal At) (signal : Signal) (handler : Disposition) :
    SignalState Signal At :=
  signals.sigaction signal ⟨handler, insert signal (signals.action signal).mask⟩

def signalDel (signals : SignalState Signal At) (signal : Signal) : SignalState Signal At :=
  signals.sigaction signal ⟨.default, (signals.action signal).mask.erase signal⟩

def checkSignal (signals : SignalState Signal At) (signal : Signal) : Output :=
  .action signal (signals.action signal).handler

/-- A step of `main`. -/
def State.goMain (state : State) : State :=
  match state.main with
  | .mySignal =>
      { state with main := .addAlarm, signals := mySignal state.signals .sigint .handle }
  | .addAlarm =>
      { state with main := .addAbort, signals := signalAdd state.signals .sigalrm .handle }
  | .addAbort => { state with
      main := .checking [.sigint, .sigalrm, .sigabrt, .sigfpe]
      signals := signalAdd state.signals .sigabrt .ignore }
  | .checking (signal :: left) => { state with
      main := .checking left
      output := state.output ++ [checkSignal state.signals signal] }
  | .checking [] => { state with main := .looping, output := state.output ++ [.prompt] }
  | .looping => state

/-- How `check_sig` begins. -/
def checkSig : Signal → At × List Output
  | .sigint => (.asking, [.menu])
  | .sigalrm => (.raising, [.alarm])
  | .sigabrt | .sigfpe => (.leaving, [])

/-- `switch (nr)` -/
def State.choose (state : State) (nr : ℤ) : State :=
  let chosen := { state with choices := state.choices ++ [nr] }
  if nr = 1 then { chosen with
    signals := (signalDel state.signals .sigint).goTo .leaving
    output := state.output ++ [.removed] }
  else if nr = 2 then { chosen with signals := state.signals.goTo .leaving }
  else if nr = 3 then { chosen with signals := state.signals.goTo .leaving, alarm := true }
  else if nr = 4 then { chosen with ended := some .sigkill }
  else { chosen with
    signals := state.signals.goTo .leaving
    output := state.output ++ [.unknown] }

/-- A signal is delivered. -/
def State.deliver (state : State) (signal : Signal) : State :=
  match (state.signals.action signal).handler with
  | .default => { state with ended := some (.byDefault signal) }
  | .ignore => { state with signals := state.signals.drop signal }
  | .handle => { state with
      signals := state.signals.enter signal (checkSig signal).1
      output := state.output ++ (checkSig signal).2 }

/-- A step, as long as the process has not ended; `main` waits for the handlers. -/
def next (state : State) (action : Action) : Option State :=
  if state.ended.isSome then none
  else match action with
  | .main => if state.signals.running = [] then some state.goMain else none
  | .arrives signal => some { state with signals := state.signals.arrive signal }
  | .expires =>
      if state.alarm then
        some { state with signals := state.signals.arrive .sigalrm, alarm := false }
      else none
  | .delivers signal =>
      if state.signals.Deliverable signal then some (state.deliver signal) else none
  | .chooses nr =>
      match state.signals.running with
      | ⟨_, _, .asking⟩ :: _ => some (state.choose nr)
      | _ => none
  | .handler =>
      match state.signals.running with
      | ⟨_, _, .leaving⟩ :: _ => some { state with signals := state.signals.leave }
      | ⟨_, _, .raising⟩ :: _ => some { state with ended := some .sigkill }
      | _ => none

/-- What the process has from the one that has called `exec`; there are no handlers yet. -/
structure Inherited where
  action : Signal → SigAction Signal
  blocked : Finset Signal
  pending : Finset Signal
  without : ∀ signal, (action signal).handler ≠ .handle

/-- The program at its start. -/
def start (inherited : Inherited) : State where
  main := .mySignal
  signals := ⟨inherited.action, inherited.blocked, inherited.pending, []⟩
  alarm := false
  output := []
  choices := []
  ended := none

/-- What `main` has already asked for. -/
def MainAt.set : MainAt → List Signal
  | .mySignal => []
  | .addAlarm => [.sigint]
  | .addAbort => [.sigint, .sigalrm]
  | .checking _ | .looping => [.sigint, .sigalrm, .sigabrt]

/-- What is done with a signal that `main` has asked for; `1` in the menu takes `SIGINT` back. -/
def asked (choices : List ℤ) : Signal → Disposition
  | .sigint => if 1 ∈ choices then .default else .handle
  | .sigalrm => .handle
  | .sigabrt => .ignore
  | .sigfpe => .default

/-- What is done with a signal. -/
def State.disposition (inherited : Inherited) (state : State) (signal : Signal) : Disposition :=
  if signal ∈ state.main.set then asked state.choices signal
  else (inherited.action signal).handler

/-- What `check_signal` may say. -/
def Reported (inherited : Inherited) (choices : List ℤ) (handler : Disposition) : Signal → Prop
  | .sigint => handler = .handle ∨ 1 ∈ choices ∧ handler = .default
  | .sigalrm => handler = .handle
  | .sigabrt => handler = .ignore
  | .sigfpe => handler = (inherited.action .sigfpe).handler

/-- How many menus have been shown. -/
def State.menus (state : State) : ℕ :=
  state.output.count .menu

/-- What a step can do. -/
inductive Moves (before : State) : Action → State → Prop
  | main (idle : before.signals.running = []) : Moves before .main before.goMain
  | arrives (signal : Signal) :
      Moves before (.arrives signal) { before with signals := before.signals.arrive signal }
  | expires : Moves before .expires
      { before with signals := before.signals.arrive .sigalrm, alarm := false }
  | dies {signal : Signal} (default_ : (before.signals.action signal).handler = .default) :
      Moves before (.delivers signal) { before with ended := some (.byDefault signal) }
  | drops {signal : Signal} (ignored : (before.signals.action signal).handler = .ignore) :
      Moves before (.delivers signal) { before with signals := before.signals.drop signal }
  | enters {signal : Signal} (pending : signal ∈ before.signals.pending)
      (open_ : signal ∉ before.signals.blocked)
      (handled : (before.signals.action signal).handler = .handle) :
      Moves before (.delivers signal) { before with
        signals := before.signals.enter signal (checkSig signal).1
        output := before.output ++ (checkSig signal).2 }
  | chooses {nr : ℤ} {handler : RunningHandler Signal At}
      {interrupted : List (RunningHandler Signal At)}
      (here : before.signals.running = handler :: interrupted) (asks : handler.place = .asking) :
      Moves before (.chooses nr) (before.choose nr)
  | leaves {handler : RunningHandler Signal At} {interrupted : List (RunningHandler Signal At)}
      (here : before.signals.running = handler :: interrupted) (left : handler.place = .leaving) :
      Moves before .handler { before with signals := before.signals.leave }
  | raises {handler : RunningHandler Signal At} (here : handler ∈ before.signals.running)
      (raising : handler.place = .raising) :
      Moves before .handler { before with ended := some .sigkill }

variable {inherited : Inherited} {before after state : State} {action : Action} {signal : Signal}
  {nr : ℤ}

theorem moves_of_next (moved : next before action = some after) :
    before.ended = none ∧ Moves before action after := by
  unfold next at moved
  split at moved
  · cases moved
  · rename_i alive
    refine ⟨Option.not_isSome_iff_eq_none.mp alive, ?_⟩
    cases action with
    | main =>
        dsimp only at moved
        split at moved
        · cases moved
          exact .main ‹_›
        · cases moved
    | arrives signal =>
        cases moved
        exact .arrives signal
    | expires =>
        dsimp only at moved
        split at moved
        · cases moved
          exact .expires
        · cases moved
    | delivers signal =>
        dsimp only at moved
        split at moved
        · rename_i deliverable
          cases moved
          rw [State.deliver]
          split
          · exact .dies ‹_›
          · exact .drops ‹_›
          · exact .enters deliverable.1 deliverable.2 ‹_›
        · cases moved
    | chooses nr =>
        dsimp only at moved
        split at moved
        · cases moved
          exact .chooses ‹_› rfl
        · cases moved
    | handler =>
        dsimp only at moved
        split at moved
        · cases moved
          exact .leaves ‹_› rfl
        · rename_i here
          cases moved
          exact .raises (here ▸ List.mem_cons_self) rfl
        · cases moved

/-- A handler that runs belongs to a signal that `main` has asked for. -/
def Belongs (main : MainAt) (handler : RunningHandler Signal At) : Prop :=
  handler.signal ∈ main.set ∧
    (handler.signal = .sigint ∧ handler.place ≠ .raising ∨
      handler.signal = .sigalrm ∧ handler.place = .raising)

/-- What holds in every state. -/
structure Sound (inherited : Inherited) (state : State) : Prop where
  nested : SignalState.Nested state.signals.running state.signals.blocked
  actions : ∀ signal,
    (state.signals.action signal).handler = state.disposition inherited signal
  belongs : ∀ handler ∈ state.signals.running, Belongs state.main handler
  early : .sigint ∉ state.main.set → state.choices = []
  four : 4 ∈ state.choices → state.ended = some .sigkill
  sigkill : state.ended = some .sigkill → 4 ∈ state.choices ∨ .alarm ∈ state.output
  alarmed : .alarm ∈ state.output →
    state.ended.isSome ∨ ∃ handler ∈ state.signals.running, handler.signal = .sigalrm
  announced : ∀ handler ∈ state.signals.running, handler.signal = .sigalrm →
    .alarm ∈ state.output
  byDefault : ∀ signal, state.ended = some (.byDefault signal) →
    state.disposition inherited signal = .default
  reported : ∀ signal handler, .action signal handler ∈ state.output →
    Reported inherited state.choices handler signal

theorem sound_start (inherited : Inherited) : Sound inherited (start inherited) where
  nested := .none _
  actions _ := rfl
  belongs := nofun
  early _ := rfl
  four := nofun
  sigkill := nofun
  alarmed := nofun
  announced := nofun
  byDefault := nofun
  reported := nofun

/-- A signal with a handler has been asked for by `main`. -/
theorem handled_of_disposition (handled : state.disposition inherited signal = .handle) :
    signal ∈ state.main.set ∧ (signal = .sigint ∨ signal = .sigalrm) := by
  rw [State.disposition] at handled
  split at handled
  · rename_i set
    refine ⟨set, ?_⟩
    cases signal with
    | sigint => exact .inl rfl
    | sigalrm => exact .inr rfl
    | sigabrt => cases handled
    | sigfpe => cases handled
  · exact absurd handled (inherited.without signal)

/-- What `check_signal` finds after `main` has asked for everything. -/
theorem reported_of_disposition (set : state.main.set = [.sigint, .sigalrm, .sigabrt]) :
    Reported inherited state.choices (state.disposition inherited signal) signal := by
  rw [State.disposition, set]
  cases signal with
  | sigint =>
      rw [if_pos (by decide), asked]
      split
      · exact .inr ⟨‹_›, rfl⟩
      · exact .inl rfl
  | sigalrm => rfl
  | sigabrt => rfl
  | sigfpe => rfl

/-- `main` has asked for another signal. -/
theorem Sound.asks (sound : Sound inherited state) (alive : state.ended = none)
    (idle : state.signals.running = []) {main : MainAt} {action : SigAction Signal}
    (set : main.set = state.main.set ++ [signal])
    (wanted : action.handler = asked state.choices signal) :
    Sound inherited { state with
      main := main, signals := state.signals.sigaction signal action } where
  nested := sound.nested
  actions other := by
    have former := sound.actions other
    rw [State.disposition] at former ⊢
    dsimp only [SignalState.sigaction]
    rw [set]
    by_cases same : other = signal
    · rw [if_pos same, if_pos (same ▸ List.mem_append_right _ List.mem_cons_self), wanted, same]
    · have member : other ∈ state.main.set ++ [signal] ↔ other ∈ state.main.set := by
        rw [List.mem_append, List.mem_singleton, or_iff_left same]
      rw [if_neg same, former]
      exact (if_congr member rfl rfl).symm
  belongs handler there := absurd there (idle ▸ List.not_mem_nil)
  early missing := sound.early fun there => missing (set ▸ List.mem_append_left _ there)
  four := sound.four
  sigkill := sound.sigkill
  alarmed := sound.alarmed
  announced handler there := absurd there (idle ▸ List.not_mem_nil)
  byDefault signal died := absurd (alive ▸ died) (Option.some_ne_none _).symm
  reported := sound.reported

theorem Sound.main (sound : Sound inherited state) (alive : state.ended = none)
    (idle : state.signals.running = []) : Sound inherited state.goMain := by
  obtain ⟨main, signals, alarm, output, choices, ended⟩ := state
  cases main with
  | mySignal =>
      refine sound.asks alive idle rfl ?_
      rw [sound.early List.not_mem_nil]
      rfl
  | addAlarm => exact sound.asks alive idle rfl rfl
  | addAbort => exact sound.asks alive idle rfl rfl
  | looping => exact sound
  | checking left =>
      cases left with
      | nil =>
          refine { sound with sigkill := ?_, alarmed := ?_, announced := ?_, reported := ?_ }
          · exact fun died => (sound.sigkill died).imp_right fun there => List.mem_append_left _ there
          · intro there
            exact sound.alarmed ((List.mem_append.mp there).resolve_right (by decide))
          · exact fun handler there => absurd there (idle ▸ List.not_mem_nil)
          · intro signal handler there
            exact sound.reported signal handler ((List.mem_append.mp there).resolve_right (by simp))
      | cons signal left =>
          refine { sound with sigkill := ?_, alarmed := ?_, announced := ?_, reported := ?_ }
          · exact fun died => (sound.sigkill died).imp_right fun there => List.mem_append_left _ there
          · intro there
            refine sound.alarmed ((List.mem_append.mp there).resolve_right ?_)
            rw [checkSignal, List.mem_singleton]
            exact nofun
          · exact fun handler there => absurd there (idle ▸ List.not_mem_nil)
          · intro other handler there
            rcases List.mem_append.mp there with there | there
            · exact sound.reported other handler there
            · cases List.mem_singleton.mp there
              rw [sound.actions signal]
              exact reported_of_disposition rfl

theorem Sound.arrive (sound : Sound inherited state) (signal : Signal) (alarm : Bool) :
    Sound inherited { state with signals := state.signals.arrive signal, alarm := alarm } where
  nested := by
    simp only [SignalState.running_arrive, SignalState.blocked_arrive]
    exact sound.nested
  actions other := by
    rw [SignalState.action_arrive]
    exact sound.actions other
  belongs := by
    simp only [SignalState.running_arrive]
    exact sound.belongs
  early := sound.early
  four := sound.four
  sigkill := sound.sigkill
  alarmed := by
    simp only [SignalState.running_arrive]
    exact sound.alarmed
  announced := by
    simp only [SignalState.running_arrive]
    exact sound.announced
  byDefault := sound.byDefault
  reported := sound.reported

/-- A handler begins. -/
theorem Sound.enter (sound : Sound inherited state) (open_ : signal ∉ state.signals.blocked)
    (handled : (state.signals.action signal).handler = .handle) :
    Sound inherited { state with
      signals := state.signals.enter signal (checkSig signal).1
      output := state.output ++ (checkSig signal).2 } := by
  have asked_ := handled_of_disposition ((sound.actions signal).symm.trans handled)
  refine { sound with
    nested := sound.nested.enter open_
    belongs := ?_, sigkill := ?_, alarmed := ?_, announced := ?_, reported := ?_ }
  · intro handler there
    rcases List.mem_cons.mp there with rfl | there
    · refine ⟨asked_.1, ?_⟩
      rcases asked_.2 with rfl | rfl
      · exact .inl ⟨rfl, nofun⟩
      · exact .inr ⟨rfl, rfl⟩
    · exact sound.belongs handler there
  · exact fun died => (sound.sigkill died).imp_right fun there => List.mem_append_left _ there
  · intro there
    rcases List.mem_append.mp there with there | there
    · rcases sound.alarmed there with died | ⟨handler, there, alarm⟩
      · exact .inl died
      · exact .inr ⟨handler, List.mem_cons_of_mem _ there, alarm⟩
    · rcases asked_.2 with rfl | rfl
      · exact absurd there (by decide)
      · exact .inr ⟨_, List.mem_cons_self, rfl⟩
  · intro handler there same
    rcases List.mem_cons.mp there with rfl | there
    · cases same
      exact List.mem_append_right _ List.mem_cons_self
    · exact List.mem_append_left _ (sound.announced handler there same)
  · intro other handler there
    refine sound.reported other handler ((List.mem_append.mp there).resolve_right ?_)
    rcases asked_.2 with rfl | rfl
    · exact fun there => nomatch List.mem_singleton.mp there
    · exact fun there => nomatch List.mem_singleton.mp there

/-- What has been reported stays right whatever is chosen. -/
theorem Reported.mono {choices more : List ℤ} {handler : Disposition} (part : choices ⊆ more)
    (reported : Reported inherited choices handler signal) :
    Reported inherited more handler signal := by
  cases signal with
  | sigint => exact reported.imp_right fun removed => ⟨part removed.1, removed.2⟩
  | sigalrm => exact reported
  | sigabrt => exact reported
  | sigfpe => exact reported

/-- A choice other than `1` changes nothing about the signals. -/
theorem disposition_of_ne_one (other : nr ≠ 1) :
    { state with choices := state.choices ++ [nr] }.disposition inherited signal =
      state.disposition inherited signal := by
  have member : 1 ∈ state.choices ++ [nr] ↔ 1 ∈ state.choices := by
    rw [List.mem_append, List.mem_singleton, or_iff_left other.symm]
  cases signal with
  | sigint => exact if_congr Iff.rfl (if_congr member rfl rfl) rfl
  | sigalrm => rfl
  | sigabrt => rfl
  | sigfpe => rfl

variable {handler : RunningHandler Signal At} {interrupted : List (RunningHandler Signal At)}

/-- Only the handler of `SIGINT` asks. -/
theorem Sound.sigint_of_asking (sound : Sound inherited state)
    (here : state.signals.running = handler :: interrupted) (asks : handler.place = .asking) :
    handler.signal = .sigint ∧ .sigint ∈ state.main.set := by
  obtain ⟨set, ⟨same, -⟩ | ⟨-, raising⟩⟩ := sound.belongs handler (here ▸ List.mem_cons_self)
  · exact ⟨same, same ▸ set⟩
  · exact nomatch asks.symm.trans raising

/-- A choice other than `4` has been made. -/
theorem Sound.answer (sound : Sound inherited state) (alive : state.ended = none)
    (here : state.signals.running = handler :: interrupted) (asks : handler.place = .asking)
    (stays : nr ≠ 4) {signals : SignalState Signal At}
    (running : signals.running = { handler with place := .leaving } :: interrupted)
    (blocked : signals.blocked = state.signals.blocked)
    (actions : ∀ signal, (signals.action signal).handler =
      { state with choices := state.choices ++ [nr] }.disposition inherited signal)
    {output : List Output} (alarm_ : .alarm ∈ output ↔ .alarm ∈ state.output)
    (reports : ∀ signal handler, .action signal handler ∈ output →
      .action signal handler ∈ state.output) (alarm : Bool) :
    Sound inherited { state with
      choices := state.choices ++ [nr], signals := signals, output := output, alarm := alarm } where
  nested := by
    have nested : SignalState.Nested (state.signals.goTo .leaving).running
        (state.signals.goTo .leaving).blocked := sound.nested.goTo
    rw [SignalState.goTo_of_running here] at nested
    rw [running, blocked]
    exact nested
  actions := actions
  belongs other there := by
    have asker := sound.sigint_of_asking here asks
    rcases List.mem_cons.mp (running ▸ there) with rfl | there
    · exact ⟨asker.1 ▸ asker.2, .inl ⟨asker.1, nofun⟩⟩
    · exact sound.belongs other (here ▸ List.mem_cons_of_mem _ there)
  early missing := absurd (sound.sigint_of_asking here asks).2 missing
  four chosen := by
    rcases List.mem_append.mp chosen with chosen | chosen
    · exact sound.four chosen
    · exact absurd (List.mem_singleton.mp chosen).symm stays
  sigkill died := nomatch alive.symm.trans died
  alarmed there := by
    rcases sound.alarmed (alarm_.mp there) with died | ⟨other, there, same⟩
    · exact .inl died
    · refine .inr ⟨other, ?_, same⟩
      rw [here] at there
      rw [running]
      rcases List.mem_cons.mp there with rfl | there
      · exact nomatch (sound.sigint_of_asking here asks).1.symm.trans same
      · exact List.mem_cons_of_mem _ there
  announced other there same := by
    rcases List.mem_cons.mp (running ▸ there) with rfl | there
    · exact nomatch (sound.sigint_of_asking here asks).1.symm.trans same
    · exact alarm_.mpr (sound.announced other (here ▸ List.mem_cons_of_mem _ there) same)
  byDefault signal died := nomatch alive.symm.trans died
  reported signal handler there :=
    (sound.reported signal handler (reports signal handler there)).mono (List.subset_append_left ..)

theorem Sound.choose (sound : Sound inherited state) (alive : state.ended = none)
    (here : state.signals.running = handler :: interrupted) (asks : handler.place = .asking) :
    Sound inherited (state.choose nr) := by
  have asker := sound.sigint_of_asking here asks
  have same (other : nr ≠ 1) (signal : Signal) : ((state.signals.goTo .leaving).action
      signal).handler = { state with choices := state.choices ++ [nr] }.disposition inherited
        signal := by
    rw [SignalState.goTo_of_running here, disposition_of_ne_one other]
    exact sound.actions signal
  have running : (state.signals.goTo .leaving).running =
      { handler with place := .leaving } :: interrupted := by
    rw [SignalState.goTo_of_running here]
  have blocked : (state.signals.goTo .leaving).blocked = state.signals.blocked := by
    rw [SignalState.goTo_of_running here]
  have plain (output : Output) (harmless : output = .removed ∨ output = .unknown) :
      (.alarm ∈ state.output ++ [output] ↔ .alarm ∈ state.output) ∧ ∀ signal handler,
        .action signal handler ∈ state.output ++ [output] →
          .action signal handler ∈ state.output := by
    rcases harmless with rfl | rfl <;> simp
  unfold State.choose
  dsimp only
  split
  · rename_i one
    subst one
    have removed : (signalDel state.signals .sigint).running = handler :: interrupted := here
    refine sound.answer alive here asks (by decide) ?_ ?_ (fun signal => ?_)
      (plain _ (.inl rfl)).1 (plain _ (.inl rfl)).2 state.alarm
    · rw [SignalState.goTo_of_running removed]
    · rw [SignalState.goTo_of_running removed]
      rfl
    · rw [SignalState.goTo_of_running removed]
      cases signal with
      | sigint =>
          rw [State.disposition, if_pos asker.2, asked,
            if_pos (List.mem_append_right _ List.mem_cons_self)]
          rfl
      | sigalrm => exact sound.actions .sigalrm
      | sigabrt => exact sound.actions .sigabrt
      | sigfpe => exact sound.actions .sigfpe
  · rename_i other
    split
    · rename_i two
      exact sound.answer alive here asks (by omega) running blocked (same other) Iff.rfl
        (fun _ _ there => there) state.alarm
    · split
      · rename_i three
        exact sound.answer alive here asks (by omega) running blocked (same other) Iff.rfl
          (fun _ _ there => there) true
      · split
        · rename_i four
          refine { sound with
            actions := fun signal => ?_, early := ?_, four := fun _ => rfl, sigkill := fun _ => ?_,
            alarmed := fun _ => .inl rfl, byDefault := nofun, reported := ?_ }
          · exact (sound.actions signal).trans (disposition_of_ne_one other).symm
          · exact fun missing => absurd asker.2 missing
          · exact .inl (List.mem_append_right _ (List.mem_singleton.mpr four.symm))
          · intro signal handler there
            exact (sound.reported signal handler there).mono (List.subset_append_left ..)
        · rename_i stays
          exact sound.answer alive here asks stays running blocked (same other)
            (plain _ (.inr rfl)).1 (plain _ (.inr rfl)).2 state.alarm

/-- The handler of `SIGINT` returns. -/
theorem Sound.leave (sound : Sound inherited state)
    (here : state.signals.running = handler :: interrupted) (left : handler.place = .leaving) :
    Sound inherited { state with signals := state.signals.leave } := by
  have nested := sound.nested.leave
  have part : interrupted ⊆ state.signals.running := here ▸ List.subset_cons_self ..
  rw [SignalState.leave_of_running here] at nested ⊢
  refine { sound with
    nested := nested, belongs := ?_, alarmed := ?_, announced := ?_ }
  · exact fun other there => sound.belongs other (part there)
  · intro there
    rcases sound.alarmed there with died | ⟨other, there, same⟩
    · exact .inl died
    · refine .inr ⟨other, ?_, same⟩
      rcases List.mem_cons.mp (here ▸ there) with rfl | there
      · obtain ⟨-, ⟨sigint, -⟩ | ⟨-, raising⟩⟩ :=
          sound.belongs other (here ▸ List.mem_cons_self)
        · exact nomatch sigint.symm.trans same
        · exact nomatch left.symm.trans raising
      · exact there
  · exact fun other there => sound.announced other (part there)

theorem Sound.step (sound : Sound inherited before) (moved : next before action = some after) :
    Sound inherited after := by
  obtain ⟨alive, moves⟩ := moves_of_next moved
  cases moves with
  | main idle => exact sound.main alive idle
  | arrives signal => exact sound.arrive signal before.alarm
  | expires => exact sound.arrive .sigalrm false
  | enters _ open_ handled => exact sound.enter open_ handled
  | chooses here asks => exact sound.choose alive here asks
  | drops ignored => exact { sound with }
  | @dies signal default_ =>
      refine { sound with
        four := ?_, sigkill := nofun, alarmed := fun _ => .inl rfl, byDefault := ?_ }
      · exact fun chosen => nomatch alive.symm.trans (sound.four chosen)
      · rintro _ ⟨⟩
        exact (sound.actions signal).symm.trans default_
  | @raises handler here raising =>
      refine { sound with
        four := fun _ => rfl, sigkill := fun _ => .inr ?_, alarmed := fun _ => .inl rfl,
        byDefault := nofun }
      obtain ⟨-, ⟨-, other⟩ | ⟨same, -⟩⟩ := sound.belongs handler here
      · exact absurd raising other
      · exact sound.announced handler here same
  | @leaves handler interrupted here left => exact sound.leave here left

/-- What a step does for `SIGINT`. -/
inductive Serves (before after : State) : Action → Prop
  | comes (menus : after.menus = before.menus)
      (pending : (before.signals.action .sigint).handler ≠ .ignore →
        .sigint ∈ after.signals.pending) : Serves before after (.arrives .sigint)
  | shows (was : .sigint ∈ before.signals.pending) (menus : after.menus = before.menus + 1)
      (gone : .sigint ∉ after.signals.pending) : Serves before after (.delivers .sigint)
  | drops (ignored : (before.signals.action .sigint).handler = .ignore)
      (menus : after.menus = before.menus) (gone : .sigint ∉ after.signals.pending) :
      Serves before after (.delivers .sigint)
  | other {action : Action} (menus : after.menus = before.menus)
      (pending : .sigint ∈ after.signals.pending ↔ .sigint ∈ before.signals.pending) :
      Serves before after action

/-- A signal that is not `SIGINT` comes. -/
theorem mem_pending_arrive_iff {signals : SignalState Signal At} (differs : .sigint ≠ signal) :
    .sigint ∈ (signals.arrive signal).pending ↔ .sigint ∈ signals.pending :=
  ⟨SignalState.mem_pending_of_arrive differs, fun there => SignalState.pending_arrive there⟩

theorem serves_main : Serves before before.goMain .main := by
  obtain ⟨main, signals, alarm, output, choices, ended⟩ := before
  cases main with
  | mySignal => exact .other rfl Iff.rfl
  | addAlarm => exact .other rfl Iff.rfl
  | addAbort => exact .other rfl (Finset.mem_erase.trans (and_iff_right nofun))
  | looping => exact .other rfl Iff.rfl
  | checking left =>
      cases left with
      | nil => exact .other (List.count_append ..) Iff.rfl
      | cons signal left => exact .other (List.count_append ..) Iff.rfl

theorem serves_choose (here : before.signals.running = handler :: interrupted) :
    Serves before (before.choose nr) (.chooses nr) := by
  have removed : (signalDel before.signals .sigint).running = handler :: interrupted := here
  unfold State.choose
  dsimp only
  split
  · refine .other (List.count_append ..) ?_
    rw [SignalState.goTo_of_running removed]
    exact Iff.rfl
  · have pending : .sigint ∈ (before.signals.goTo .leaving).pending ↔
        .sigint ∈ before.signals.pending := by
      rw [SignalState.goTo_of_running here]
    split
    · exact .other rfl pending
    · split
      · exact .other rfl pending
      · split
        · exact .other rfl Iff.rfl
        · exact .other (List.count_append ..) pending

theorem serves_of_next (sound : Sound inherited before) (moved : next before action = some after) :
    Serves before after action := by
  obtain ⟨-, moves⟩ := moves_of_next moved
  cases moves with
  | main idle => exact serves_main
  | arrives signal =>
      by_cases same : .sigint = signal
      · subst same
        exact .comes rfl SignalState.mem_pending_arrive
      · exact .other rfl (mem_pending_arrive_iff same)
  | expires => exact .other rfl (mem_pending_arrive_iff nofun)
  | dies default_ => exact .other rfl Iff.rfl
  | @drops signal ignored =>
      by_cases same : .sigint = signal
      · subst same
        exact .drops ignored rfl (Finset.notMem_erase _ before.signals.pending)
      · exact .other rfl (Finset.mem_erase.trans (and_iff_right same))
  | @enters signal pending open_ handled =>
      have asked_ := handled_of_disposition ((sound.actions signal).symm.trans handled)
      rcases asked_.2 with rfl | rfl
      · exact .shows pending (List.count_append ..) (Finset.notMem_erase _ before.signals.pending)
      · exact .other (List.count_append ..) (Finset.mem_erase.trans (and_iff_right nofun))
  | chooses here asks => exact serves_choose here
  | leaves here left =>
      refine .other rfl ?_
      rw [SignalState.leave_of_running here]
  | raises here raising => exact .other rfl Iff.rfl

/-- The menus that have been shown, and the one that is still due. -/
def State.due (state : State) : ℕ :=
  state.menus + if .sigint ∈ state.signals.pending then 1 else 0

theorem Serves.due_le (serves : Serves before after action) :
    after.due ≤ before.due + if action = .arrives .sigint then 1 else 0 := by
  unfold State.due
  cases serves with
  | comes menus pending =>
      rw [menus, if_pos rfl]
      split <;> omega
  | shows was menus gone =>
      rw [menus, if_pos was, if_neg gone]
      omega
  | drops ignored menus gone =>
      rw [menus, if_neg gone]
      omega
  | other menus pending =>
      rw [menus, if_congr pending rfl rfl]
      omega

/-- Whatever comes, no menu is shown without a `SIGINT`. -/
theorem due_le_of_run {actions : List Action} (sound : Sound inherited before)
    (executed : run next before actions = some after) :
    after.due ≤ before.due + actions.count (.arrives .sigint) := by
  induction actions generalizing before with
  | nil =>
      cases executed
      exact Nat.le_refl _
  | cons action actions ih =>
      obtain ⟨middle, moved, rest⟩ := Option.bind_eq_some_iff.mp executed
      have first := (serves_of_next sound moved).due_le
      have later := ih (sound.step moved) rest
      rw [List.count_cons, if_congr beq_iff_eq rfl rfl]
      omega

/-- A `SIGINT` that has come after so many menus is pending, has led to another menu, or the
process has ended. -/
def Kept (menus : ℕ) (state : State) : Prop :=
  menus ≤ state.menus ∧
    (.sigint ∈ state.signals.pending ∨ menus < state.menus ∨ state.ended.isSome)

theorem main_choose : (state.choose nr).main = state.main := by
  unfold State.choose
  dsimp only
  split_ifs <;> rfl

/-- `main` does not take back what it has asked for. -/
theorem set_of_next (set : signal ∈ before.main.set) (moved : next before action = some after) :
    signal ∈ after.main.set := by
  obtain ⟨-, moves⟩ := moves_of_next moved
  cases moves with
  | main idle =>
      obtain ⟨main, signals, alarm, output, choices, ended⟩ := before
      cases main with
      | mySignal => cases set
      | addAlarm => exact List.mem_append_left [.sigalrm] set
      | addAbort => exact List.mem_append_left [.sigabrt] set
      | looping => exact set
      | checking left => cases left <;> exact set
  | chooses here asks =>
      rw [main_choose]
      exact set
  | arrives | expires | dies | drops | enters | leaves | raises => exact set

/-- `SIGINT` is not ignored after `main` has asked for a handler. -/
theorem Sound.hears (sound : Sound inherited state) (set : .sigint ∈ state.main.set) :
    (state.signals.action .sigint).handler ≠ .ignore := by
  rw [sound.actions, State.disposition, if_pos set, asked]
  split <;> exact nofun

theorem Kept.step {menus : ℕ} (kept : Kept menus before) (sound : Sound inherited before)
    (set : .sigint ∈ before.main.set) (moved : next before action = some after) :
    Kept menus after := by
  obtain ⟨most, pending | more | died⟩ := kept
  · cases serves_of_next sound moved with
    | comes same pending => exact ⟨same ▸ most, .inl (pending (sound.hears set))⟩
    | shows was same gone => exact ⟨by omega, .inr (.inl (by omega))⟩
    | drops ignored same gone => exact absurd ignored (sound.hears set)
    | other same stays => exact ⟨same ▸ most, .inl (stays.mpr pending)⟩
  · have grows : before.menus ≤ after.menus := by
      cases serves_of_next sound moved with
      | comes same | drops _ same | other same => exact same.ge
      | shows was same => omega
    exact ⟨most.trans grows, .inr (.inl (Nat.lt_of_lt_of_le more grows))⟩
  · rw [(moves_of_next moved).1] at died
    cases died

/-- A `SIGINT` that comes after `main` has asked for the handler is not lost. -/
theorem kept_of_run {actions : List Action} {menus : ℕ} (kept : Kept menus before)
    (sound : Sound inherited before) (set : .sigint ∈ before.main.set)
    (executed : run next before actions = some after) : Kept menus after := by
  induction actions generalizing before with
  | nil =>
      cases executed
      exact kept
  | cons action actions ih =>
      obtain ⟨middle, moved, rest⟩ := Option.bind_eq_some_iff.mp executed
      exact ih (kept.step sound set moved) (sound.step moved) (set_of_next set moved) rest

/-- What is promised after these actions. -/
structure Answered (inherited : Inherited) (actions : List Action) (state : State) : Prop where
  /-- no handler runs twice at a time -/
  once : (state.signals.running.map (·.signal)).Nodup
  /-- signals are treated as `main` and the choices have asked for -/
  treated : ∀ signal, (state.signals.action signal).handler = state.disposition inherited signal
  reported : ∀ signal handler, .action signal handler ∈ state.output →
    Reported inherited state.choices handler signal
  /-- the process has killed itself if that has been chosen, or a `SIGALRM` has been handled -/
  sigkill : state.ended = some .sigkill → 4 ∈ state.choices ∨ .alarm ∈ state.output
  four : 4 ∈ state.choices → state.ended = some .sigkill
  /-- a handler that has been called for `SIGALRM` does not return -/
  alarmed : .alarm ∈ state.output →
    state.ended.isSome ∨ ∃ handler ∈ state.signals.running, handler.signal = .sigalrm
  byDefault : ∀ signal, state.ended = some (.byDefault signal) →
    state.disposition inherited signal = .default
  /-- no menu has been shown without a `SIGINT` -/
  menus : state.menus ≤ actions.count (.arrives .sigint) +
    if .sigint ∈ inherited.pending then 1 else 0
  /-- a `SIGINT` that comes now stays pending until there is another menu, or the process ends -/
  kept : .sigint ∈ state.main.set → ∀ later after,
    run next state (.arrives .sigint :: later) = some after → Kept state.menus after

/-- **The menu.** However the signals come and whatever is chosen, no handler interrupts itself, no
`SIGINT` is lost and none is invented, and the process ends only as it has been asked to. -/
theorem answered_of_run {actions : List Action}
    (executed : run next (start inherited) actions = some state) :
    Answered inherited actions state := by
  have sound : Sound inherited state :=
    run_preserves (fun _ _ _ sound moved => sound.step moved) (sound_start inherited) executed
  refine { sound with once := sound.nested.nodup, treated := sound.actions, menus := ?_, kept := ?_ }
  · have due := due_le_of_run (sound_start inherited) executed
    have none_ : (start inherited).due = if .sigint ∈ inherited.pending then 1 else 0 :=
      Nat.zero_add _
    have most : state.menus ≤ state.due := Nat.le_add_right ..
    omega
  · intro set later after ran
    obtain ⟨middle, moved, rest⟩ := Option.bind_eq_some_iff.mp ran
    refine kept_of_run ?_ (sound.step moved) (set_of_next set moved) rest
    cases (moves_of_next moved).2 with
    | arrives => exact ⟨Nat.le_refl _, .inl (SignalState.mem_pending_arrive (sound.hears set))⟩

/-- A process for which nothing special has been set up. -/
def plain : Inherited := ⟨fun _ => ⟨.default, ∅⟩, ∅, ∅, nofun⟩

/-- Two `SIGINT`s come while the menu is open; `alarm(5)` is chosen. -/
def alarmed : List Action :=
  [.main, .main, .main, .arrives .sigint, .delivers .sigint, .arrives .sigint, .arrives .sigint,
    .chooses 3, .handler, .delivers .sigint, .expires, .delivers .sigalrm, .handler]

theorem answered_of_alarmed : ∃ state, run next (start plain) alarmed = some state ∧
    state.menus = 2 ∧ state.ended = some .sigkill ∧ Answered plain alarmed state := by
  obtain ⟨state, executed⟩ :=
    Option.isSome_iff_exists.mp (show (run next (start plain) alarmed).isSome by decide)
  have answered := answered_of_run executed
  cases executed
  exact ⟨_, rfl, by decide, rfl, answered⟩

end LinuxUnix.SignalMenu

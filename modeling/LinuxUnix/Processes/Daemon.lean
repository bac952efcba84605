import LinuxUnix.Foundation.DescriptorTable
import LinuxUnix.Foundation.ProcessCount
import LinuxUnix.Foundation.SignalHandling
import LinuxUnix.Foundation.TransitionSystem
import LinuxUnix.Ipc.BlockPipe

/-! # daemon.c

`start_deamon` forks, makes the child the leader of a session, has it ignore `SIGHUP`, and forks
again. The third process changes its directory and its mask, closes its descriptors, and writes to
the log. However the three take turns, and whenever a `SIGHUP` comes, only the third one gets
behind `start_deamon`; it is no leader of a session and has no terminal, and nothing hangs it up.
The standard input remains open, and the process that has been started reports a failure in any
case (`LinuxUnix.Daemon.daemonized_of_reachable`).

A new PID is one that is not in use as the PID, the group or the session of the process that forks.
What is printed if `setsid` fails is left out, and so is what `syslog` does with the lines.
-/

namespace LinuxUnix.Daemon

open BlockPipe TransitionSystem

/-- The lines for `syslog`. -/
inductive Message
  | started
  | running
  | ended
  deriving DecidableEq

/-- The lines of `main` in their order. -/
def messages : List Message := [.started, .running, .ended]

/-- Where a process is. -/
inductive At
  | forking
  | settingSid
  | ignoring
  | forkingAgain
  /-- before `exit(EXIT_FAILURE)` -/
  | leaving
  /-- before `chdir("/")` -/
  | changing
  /-- before `umask(0)` -/
  | masking
  /-- before `i > 0` -/
  | closing (i : ℤ)
  /-- before `openlog` -/
  | opening
  /-- behind `start_deamon`: the descriptor of the log, if there is one, and the lines to come -/
  | logging (fd : Option ℕ) (left : List Message)
  | ended (status : Status)
  /-- by `SIGHUP` -/
  | killed
  deriving DecidableEq

/-- What a descriptor stands for. -/
inductive Object
  | inherited (number : ℕ)
  | log
  deriving DecidableEq

/-- A process, with its group and its session, and whether that has a terminal. -/
structure Process where
  place : At
  pid : ℕ
  group : ℕ
  session : ℕ
  terminal : Bool
  hangup : Disposition
  cwd : String
  umask : ℕ
  table : DescriptorTable Object

/-- The processes in the order of the forks, the lines with those who have written them, and which
calls have failed. -/
structure State where
  processes : List Process
  log : List (ℕ × Message)
  failures : List At

inductive Action
  /-- a call that succeeds -/
  | step (who : ℕ)
  /-- `fork` returns this PID -/
  | forks (who pid : ℕ)
  /-- `openlog` gets this descriptor -/
  | opens (who fd : ℕ)
  | fails (who : ℕ)
  /-- a `SIGHUP` comes -/
  | hangsUp (who : ℕ)
  deriving DecidableEq

/-- A step that does not involve others, and the line it writes. -/
def Process.go (openMax : ℤ) (process : Process) : Option (Process × List Message) :=
  match process.place with
  | .settingSid =>
      if process.group = process.pid then some ({ process with place := .leaving }, [])
      else some ({ process with
        place := .ignoring
        group := process.pid
        session := process.pid
        terminal := false }, [])
  | .ignoring => some ({ process with place := .forkingAgain, hangup := .ignore }, [])
  | .changing => some ({ process with place := .masking, cwd := "/" }, [])
  | .masking => some ({ process with place := .closing openMax, umask := 0 }, [])
  | .closing i =>
      if 0 < i then
        some ({ process with place := .closing (i - 1), table := process.table.release i }, [])
      else some ({ process with place := .opening }, [])
  | .logging fd (message :: left) => some ({ process with place := .logging fd left }, [message])
  | .logging none [] => some ({ process with place := .ended .exitSuccess }, [])
  | .logging (some fd) [] =>
      some ({ process with place := .ended .exitSuccess, table := process.table.release fd }, [])
  | .leaving => some ({ process with place := .ended .exitFailure }, [])
  | .forking | .forkingAgain | .opening | .ended _ | .killed => none

/-- `fork`: the process behind it, and the new one. -/
def Process.fork (process : Process) (pid : ℕ) : Option (Process × Process) :=
  if pid = process.pid ∨ pid = process.group ∨ pid = process.session then none
  else match process.place with
  | .forking =>
      some ({ process with place := .leaving }, { process with place := .settingSid, pid := pid })
  | .forkingAgain =>
      some ({ process with place := .leaving }, { process with place := .changing, pid := pid })
  | _ => none

/-- `openlog` -/
def Process.openLog (process : Process) (fd : ℕ) : Option Process :=
  if process.place = .opening ∧ process.table.Lowest fd then
    some { process with
      place := .logging (some fd) messages
      table := process.table.install fd .log }
  else none

/-- A call that fails. -/
def Process.fail (process : Process) : Option Process :=
  match process.place with
  | .forking | .forkingAgain => some { process with place := .leaving }
  | .changing => some { process with place := .masking }
  | .opening => some { process with place := .logging none messages }
  | _ => none

/-- A process that has come to its end. -/
def At.finished : At → Bool
  | .ended _ | .killed => true
  | _ => false

/-- `SIGHUP` -/
def Process.hangUp (process : Process) : Process :=
  if process.place.finished = false ∧ process.hangup = .default then
    { process with place := .killed }
  else process

def next (openMax : ℤ) (state : State) : Action → Option State
  | .step who => do
      let process ← state.processes[who]?
      let (after, lines) ← process.go openMax
      some { state with
        processes := state.processes.set who after
        log := state.log ++ lines.map fun line => (process.pid, line) }
  | .forks who pid => do
      let process ← state.processes[who]?
      let (after, child) ← process.fork pid
      some { state with processes := state.processes.set who after ++ [child] }
  | .opens who fd => do
      let process ← state.processes[who]?
      let after ← process.openLog fd
      some { state with processes := state.processes.set who after }
  | .fails who => do
      let process ← state.processes[who]?
      let after ← process.fail
      some { state with
        processes := state.processes.set who after
        failures := state.failures ++ [process.place] }
  | .hangsUp who => do
      let process ← state.processes[who]?
      some { state with processes := state.processes.set who process.hangUp }

/-- What the program is started with; it has no handlers. -/
structure Launched where
  process : Process
  place : process.place = .forking
  hangup : process.hangup ≠ .handle

/-- The program at its start. -/
def start (launched : Launched) : State := ⟨[launched.process], [], []⟩

def daemon (launched : Launched) (openMax : ℤ) : TransitionSystem State Action :=
  .ofFunction (· = start launched) (next openMax)

/-- A process that cannot get a terminal, nor lose its life with one. -/
structure Detached (process : Process) : Prop where
  session : process.session ≠ process.pid
  group : process.group ≠ process.pid
  terminal : process.terminal = false
  hangup : process.hangup = .ignore

/-- The descriptors that remain: the log, and those that the loop has not closed. -/
def remaining (launched : Launched) (openMax : ℤ) (fd : Option ℕ) : DescriptorTable Object :=
  fun number =>
    if fd = some number then some .log
    else if 0 < number ∧ (number : ℤ) ≤ openMax then none
    else launched.process.table number

/-- A process that does not get behind `start_deamon`. -/
inductive Process.Gone (process : Process) : Prop
  | leaving (here : process.place = .leaving)
  | ended (here : process.place = .ended .exitFailure)
  | killed (here : process.place = .killed)

/-- How far the third process has come: where it is, its mask, its descriptors, and the lines that it
has written. -/
inductive Stage (launched : Launched) (openMax : ℤ) :
    At → ℕ → DescriptorTable Object → List Message → Prop
  | changing (umask : ℕ) : Stage launched openMax .changing umask launched.process.table []
  | masking (umask : ℕ) : Stage launched openMax .masking umask launched.process.table []
  | closing {i : ℤ} {table : DescriptorTable Object} (below : i ≤ openMax)
      (range : 0 ≤ i ∨ i = openMax)
      (closed : ∀ number : ℕ, table number =
        if i < number ∧ (number : ℤ) ≤ openMax then none else launched.process.table number) :
      Stage launched openMax (.closing i) 0 table []
  | opening : Stage launched openMax .opening 0 (remaining launched openMax none) []
  | logging {fd : Option ℕ} {past left : List Message} (lines : past ++ left = messages)
      (lowest : ∀ number, fd = some number →
        (remaining launched openMax none).Lowest number) :
      Stage launched openMax (.logging fd left) 0 (remaining launched openMax fd) past
  | ended (table : DescriptorTable Object) :
      Stage launched openMax (.ended .exitSuccess) 0 table messages

/-- The youngest process, by its number: all before it are gone. -/
inductive Youngest (launched : Launched) (openMax : ℤ) (failures : List At) :
    ℕ → Process → List (ℕ × Message) → Prop
  | gone {number : ℕ} {process : Process} (few : number < 2) (gone : process.Gone)
      (reason : process.place = .killed ∨ .forking ∈ failures ∨ .forkingAgain ∈ failures) :
      Youngest launched openMax failures number process []
  | forking : Youngest launched openMax failures 0 launched.process []
  | settingSid {pid : ℕ} (differs : launched.process.group ≠ pid) :
      Youngest launched openMax failures 1
        { launched.process with place := .settingSid, pid := pid } []
  | ignoring (pid : ℕ) : Youngest launched openMax failures 1
      { launched.process with
        place := .ignoring, pid := pid, group := pid, session := pid, terminal := false } []
  | forkingAgain (pid : ℕ) : Youngest launched openMax failures 1
      { launched.process with
        place := .forkingAgain, pid := pid, group := pid, session := pid, terminal := false,
        hangup := .ignore } []
  | third {process : Process} {lines : List Message} (detached : Detached process)
      (cwd : process.place = .changing ∨ process.cwd = "/" ∨ .changing ∈ failures)
      (stage : Stage launched openMax process.place process.umask process.table lines) :
      Youngest launched openMax failures 2 process (lines.map fun line => (process.pid, line))

/-- What holds in every state. -/
inductive Sound (launched : Launched) (openMax : ℤ) (state : State) : Prop
  | family {elders : List Process} {youngest : Process}
      (processes : state.processes = elders ++ [youngest])
      (gone : ∀ process ∈ elders, process.Gone)
      (fits : Youngest launched openMax state.failures elders.length youngest state.log)

variable {launched : Launched} {openMax : ℤ} {failures : List At} {before after state : State}
  {process next_ child : Process} {lines : List Message} {number who pid fd : ℕ}
  {log : List (ℕ × Message)} {action : Action}

/-! ## Those that are gone -/

theorem Process.Gone.go (gone : process.Gone) (moved : process.go openMax = some (next_, lines)) :
    next_.Gone ∧ lines = [] := by
  rw [Process.go] at moved
  cases gone with
  | leaving here =>
      simp only [here] at moved
      cases moved
      exact ⟨.ended rfl, rfl⟩
  | ended here =>
      simp only [here] at moved
      cases moved
  | killed here =>
      simp only [here] at moved
      cases moved

theorem Process.Gone.fork (gone : process.Gone) (pid : ℕ) : process.fork pid = none := by
  rw [Process.fork]
  split
  · rfl
  · cases gone with
    | leaving here | ended here | killed here => simp only [here]

theorem Process.Gone.openLog (gone : process.Gone) (fd : ℕ) : process.openLog fd = none := by
  apply if_neg
  rintro ⟨opening, -⟩
  cases gone with
  | leaving here | ended here | killed here => cases opening.symm.trans here

theorem Process.Gone.fail (gone : process.Gone) : process.fail = none := by
  rw [Process.fail]
  cases gone with
  | leaving here | ended here | killed here => simp only [here]

theorem Process.Gone.hangUp (gone : process.Gone) : process.hangUp.Gone := by
  rw [Process.hangUp]
  split
  · exact .killed rfl
  · exact gone

/-! ## The third process -/

/-- A `close` in the loop. -/
theorem Stage.close {i : ℤ} {table : DescriptorTable Object} (more : 0 < i)
    (closed : ∀ number : ℕ, table number =
      if i < number ∧ (number : ℤ) ≤ openMax then none else launched.process.table number)
    (below : i ≤ openMax) (number : ℕ) : table.release i number =
      if i - 1 < number ∧ (number : ℤ) ≤ openMax then none else launched.process.table number := by
  rw [DescriptorTable.release, if_neg (by omega)]
  by_cases same : number = i.toNat
  · rw [same, Function.update_self, if_pos (by omega)]
  · rw [Function.update_of_ne same, closed]
    exact if_congr (by omega) rfl rfl

/-- The loop is over. -/
theorem Stage.remaining_of_closed {i : ℤ} {table : DescriptorTable Object} (past : ¬ 0 < i)
    (range : 0 ≤ i ∨ i = openMax) (closed : ∀ number : ℕ, table number =
      if i < number ∧ (number : ℤ) ≤ openMax then none else launched.process.table number) :
    table = remaining launched openMax none := by
  funext number
  rw [closed, remaining, if_neg (Option.some_ne_none number).symm]
  exact if_congr (by omega) rfl rfl

theorem Youngest.third_go {process : Process} (detached : Detached process)
    (cwd : process.place = .changing ∨ process.cwd = "/" ∨ .changing ∈ failures)
    {past : List Message}
    (stage : Stage launched openMax process.place process.umask process.table past)
    (moved : process.go openMax = some (next_, lines)) :
    Youngest launched openMax failures 2 next_
      ((past ++ lines).map fun line => (process.pid, line)) := by
  obtain ⟨place, pid, group, session, terminal, hangup, cwd_, umask, table⟩ := process
  obtain ⟨leader, member, without, ignored⟩ := detached
  dsimp only at stage cwd
  cases stage with
  | changing =>
      cases moved
      exact .third ⟨leader, member, without, ignored⟩ (.inr (.inl rfl)) (.masking umask)
  | masking =>
      cases moved
      have there := cwd.resolve_left nofun
      refine .third ⟨leader, member, without, ignored⟩ (.inr there)
        (.closing (Int.le_refl _) (.inr rfl) fun number => ?_)
      rw [if_neg (by omega)]
  | closing below range closed =>
      have there := cwd.resolve_left nofun
      dsimp only [Process.go] at moved
      split at moved
      · rename_i more
        cases moved
        refine .third ⟨leader, member, without, ignored⟩ (.inr there)
          (.closing (by omega) (.inl (by omega)) fun number => ?_)
        exact Stage.close more closed below number
      · rename_i past
        cases moved
        have same := Stage.remaining_of_closed past range closed
        refine .third ⟨leader, member, without, ignored⟩ (.inr there) ?_
        rw [same]
        exact .opening
  | opening => cases moved
  | ended table => cases moved
  | @logging fd past left split lowest =>
      have there := cwd.resolve_left nofun
      cases left with
      | cons message left =>
          cases moved
          refine .third ⟨leader, member, without, ignored⟩ (.inr there) (.logging ?_ lowest)
          rw [List.append_assoc]
          exact split
      | nil =>
          have whole : past = messages := by rw [← split, List.append_nil]
          cases fd with
          | none =>
              cases moved
              rw [whole]
              exact .third ⟨leader, member, without, ignored⟩ (.inr there) (.ended _)
          | some fd =>
              cases moved
              rw [whole]
              exact .third ⟨leader, member, without, ignored⟩ (.inr there) (.ended _)

/-! ## The youngest process -/

/-- The third process has not written anything yet. -/
theorem Youngest.third_silent {process : Process} (detached : Detached process)
    (cwd : process.place = .changing ∨ process.cwd = "/" ∨ .changing ∈ failures)
    (stage : Stage launched openMax process.place process.umask process.table []) :
    Youngest launched openMax failures 2 process [] :=
  .third detached cwd stage

/-- The descriptor of the log. -/
theorem install_remaining (fd : ℕ) : (remaining launched openMax none).install fd .log =
    remaining launched openMax (some fd) := by
  funext number
  by_cases same : number = fd
  · rw [same, DescriptorTable.install_self, remaining, if_pos rfl]
  · have other : some fd ≠ some number := fun there => same (Option.some_inj.mp there).symm
    rw [DescriptorTable.install_of_ne same, remaining, remaining,
      if_neg (Option.some_ne_none number).symm, if_neg other]

theorem Youngest.go (fits : Youngest launched openMax failures number process log)
    (moved : process.go openMax = some (next_, lines)) :
    Youngest launched openMax failures number next_
      (log ++ lines.map fun line => (process.pid, line)) := by
  cases fits with
  | gone few gone reason =>
      obtain ⟨later, rfl⟩ := gone.go moved
      refine .gone few later (.inr (reason.resolve_left fun killed => ?_))
      rw [Process.go, killed] at moved
      cases moved
  | forking =>
      rw [Process.go, launched.place] at moved
      cases moved
  | settingSid differs =>
      dsimp only [Process.go] at moved
      rw [if_neg differs] at moved
      cases moved
      exact .ignoring _
  | ignoring pid =>
      cases moved
      exact .forkingAgain pid
  | forkingAgain pid => cases moved
  | third detached cwd stage =>
      rw [← List.map_append]
      exact .third_go detached cwd stage moved

/-- After a `fork` the child is the youngest. -/
theorem Youngest.fork (fits : Youngest launched openMax failures number process log)
    (moved : process.fork pid = some (next_, child)) :
    next_.Gone ∧ Youngest launched openMax failures (number + 1) child log := by
  cases fits with
  | gone few gone reason =>
      rw [gone.fork] at moved
      cases moved
  | forking =>
      rw [Process.fork, launched.place] at moved
      split at moved
      · cases moved
      · rename_i fresh
        cases moved
        refine ⟨.leaving rfl, .settingSid ?_⟩
        rintro rfl
        exact fresh (.inr (.inl rfl))
  | settingSid differs =>
      rw [Process.fork] at moved
      split at moved <;> cases moved
  | ignoring pid =>
      rw [Process.fork] at moved
      split at moved <;> cases moved
  | forkingAgain leader =>
      rw [Process.fork] at moved
      split at moved
      · cases moved
      · rename_i fresh
        cases moved
        have differs : leader ≠ pid := fun same => fresh (.inl same.symm)
        exact ⟨.leaving rfl, .third_silent ⟨differs, differs, rfl, rfl⟩ (.inl rfl) (.changing _)⟩
  | third detached cwd stage =>
      obtain ⟨place, pid, group, session, terminal, hangup, cwd_, umask, table⟩ := process
      rw [Process.fork] at moved
      split at moved
      · cases moved
      · dsimp only at stage
        cases stage <;> cases moved

theorem Youngest.openLog (fits : Youngest launched openMax failures number process log)
    (moved : process.openLog fd = some next_) :
    Youngest launched openMax failures number next_ log := by
  rw [Process.openLog] at moved
  split at moved
  · rename_i opens
    obtain ⟨opening, lowest⟩ := opens
    cases moved
    cases fits with
    | gone few gone reason =>
        cases gone with
        | leaving here | ended here | killed here => cases opening.symm.trans here
    | forking => cases opening.symm.trans launched.place
    | settingSid differs => cases opening
    | ignoring pid => cases opening
    | forkingAgain pid => cases opening
    | third detached cwd stage =>
        obtain ⟨place, pid, group, session, terminal, hangup, cwd_, umask, table⟩ := process
        dsimp only at stage cwd opening lowest
        subst opening
        cases stage with
        | opening =>
            have there := cwd.resolve_left nofun
            refine .third_silent ⟨detached.1, detached.2, detached.3, detached.4⟩ (.inr there) ?_
            rw [install_remaining]
            refine .logging rfl fun number same => ?_
            rw [← Option.some_inj.mp same]
            exact lowest
  · cases moved

theorem Youngest.fail (fits : Youngest launched openMax failures number process log)
    (moved : process.fail = some next_) :
    Youngest launched openMax (failures ++ [process.place]) number next_ log := by
  cases fits with
  | gone few gone reason =>
      rw [gone.fail] at moved
      cases moved
  | forking =>
      rw [Process.fail, launched.place] at moved
      cases moved
      rw [launched.place]
      exact .gone (by decide) (.leaving rfl)
        (.inr (.inl (List.mem_append_right _ List.mem_cons_self)))
  | settingSid differs => cases moved
  | ignoring pid => cases moved
  | forkingAgain pid =>
      cases moved
      exact .gone (by decide) (.leaving rfl)
        (.inr (.inr (List.mem_append_right _ List.mem_cons_self)))
  | third detached cwd stage =>
      obtain ⟨place, pid, group, session, terminal, hangup, cwd_, umask, table⟩ := process
      obtain ⟨leader, member, without, ignored⟩ := detached
      dsimp only at stage cwd
      cases stage with
      | changing =>
          cases moved
          exact .third_silent ⟨leader, member, without, ignored⟩
            (.inr (.inr (List.mem_append_right _ List.mem_cons_self))) (.masking umask)
      | opening =>
          cases moved
          have there := (cwd.resolve_left nofun).imp_right
            (List.mem_append_left [At.opening])
          exact .third_silent ⟨leader, member, without, ignored⟩ (.inr there)
            (.logging rfl nofun)
      | masking | closing | logging | ended => cases moved

theorem Youngest.hangUp (fits : Youngest launched openMax failures number process log) :
    Youngest launched openMax failures number process.hangUp log := by
  by_cases hung : process.place.finished = false ∧ process.hangup = .default
  · have dies : process.hangUp = { process with place := .killed } := if_pos hung
    rw [dies]
    cases fits with
    | gone few gone reason => exact .gone few (.killed rfl) (.inl rfl)
    | forking => exact .gone (by decide) (.killed rfl) (.inl rfl)
    | settingSid differs => exact .gone (by decide) (.killed rfl) (.inl rfl)
    | ignoring pid => exact .gone (by decide) (.killed rfl) (.inl rfl)
    | forkingAgain pid => cases hung.2
    | third detached cwd stage => cases detached.hangup.symm.trans hung.2
  · rw [Process.hangUp, if_neg hung]
    exact fits

/-! ## All of them -/

/-- What it takes to replace the youngest process, and to add another one. -/
structure Replaceable (launched : Launched) (openMax : ℤ) (before : State) (who number : ℕ)
    (process : Process) : Prop where
  fits : Youngest launched openMax before.failures number process before.log
  replaces : ∀ next_ log failures, Youngest launched openMax failures number next_ log →
    Sound launched openMax ⟨before.processes.set who next_, log, failures⟩
  adds : ∀ next_ child, next_.Gone →
    Youngest launched openMax before.failures (number + 1) child before.log →
      Sound launched openMax ⟨before.processes.set who next_ ++ [child], before.log, before.failures⟩

/-- A process is one of those that are gone, or it is the youngest. -/
theorem Sound.elder_or_youngest (sound : Sound launched openMax before)
    (there : before.processes[who]? = some process) :
    process.Gone ∧ (∀ next_, next_.Gone →
      Sound launched openMax { before with processes := before.processes.set who next_ }) ∨
    ∃ number, Replaceable launched openMax before who number process := by
  obtain @⟨elders, youngest, processes, gone, fits⟩ := sound
  rw [processes] at there ⊢
  rcases Nat.lt_trichotomy who elders.length with elder | rfl | behind
  · left
    rw [List.getElem?_append_left elder] at there
    refine ⟨gone process (List.mem_of_getElem? there), fun next_ later => ?_⟩
    refine .family (List.set_append_left _ _ elder) (fun other member => ?_) ?_
    · rcases List.mem_or_eq_of_mem_set member with member | rfl
      · exact gone other member
      · exact later
    · rw [List.length_set]
      exact fits
  · right
    rw [List.getElem?_concat_length] at there
    cases there
    have sets (next_ : Process) : before.processes.set elders.length next_ = elders ++ [next_] := by
      rw [processes, List.set_append_right _ _ (Nat.le_refl _), Nat.sub_self]
      rfl
    refine ⟨elders.length, fits, fun next_ log failures later => ?_, fun next_ child later young => ?_⟩
    · exact .family (sets next_) gone later
    · have split : before.processes.set elders.length next_ ++ [child] =
          (elders ++ [next_]) ++ [child] := congrArg (· ++ [child]) (sets next_)
      refine .family split (fun other member => ?_) ?_
      · rcases List.mem_append.mp member with member | member
        · exact gone other member
        · rw [List.mem_singleton.mp member]
          exact later
      · rw [List.length_append, List.length_singleton]
        exact young
  · rw [List.getElem?_eq_none (by rw [List.length_append, List.length_singleton]; omega)] at there
    cases there

theorem sound_start : Sound launched openMax (start launched) :=
  .family (List.nil_append _).symm nofun .forking

theorem Sound.step (sound : Sound launched openMax before)
    (moved : next openMax before action = some after) : Sound launched openMax after := by
  cases action with
  | step who =>
      obtain ⟨process, there, moved⟩ := Option.bind_eq_some_iff.mp moved
      obtain ⟨⟨next_, lines⟩, went, moved⟩ := Option.bind_eq_some_iff.mp moved
      cases moved
      rcases sound.elder_or_youngest there with ⟨gone, replaces⟩ | ⟨number, youngest⟩
      · obtain ⟨later, rfl⟩ := gone.go went
        have replaced := replaces next_ later
        rw [List.map_nil, List.append_nil]
        exact replaced
      · exact youngest.replaces _ _ _ (youngest.fits.go went)
  | forks who pid =>
      obtain ⟨process, there, moved⟩ := Option.bind_eq_some_iff.mp moved
      obtain ⟨⟨next_, child⟩, forked, moved⟩ := Option.bind_eq_some_iff.mp moved
      cases moved
      rcases sound.elder_or_youngest there with ⟨gone, -⟩ | ⟨number, youngest⟩
      · rw [gone.fork] at forked
        cases forked
      · obtain ⟨later, young⟩ := youngest.fits.fork forked
        exact youngest.adds next_ child later young
  | opens who fd =>
      obtain ⟨process, there, moved⟩ := Option.bind_eq_some_iff.mp moved
      obtain ⟨next_, opened, moved⟩ := Option.bind_eq_some_iff.mp moved
      cases moved
      rcases sound.elder_or_youngest there with ⟨gone, -⟩ | ⟨number, youngest⟩
      · rw [gone.openLog] at opened
        cases opened
      · exact youngest.replaces _ _ _ (youngest.fits.openLog opened)
  | fails who =>
      obtain ⟨process, there, moved⟩ := Option.bind_eq_some_iff.mp moved
      obtain ⟨next_, failed, moved⟩ := Option.bind_eq_some_iff.mp moved
      cases moved
      rcases sound.elder_or_youngest there with ⟨gone, -⟩ | ⟨number, youngest⟩
      · rw [gone.fail] at failed
        cases failed
      · exact youngest.replaces _ _ _ (youngest.fits.fail failed)
  | hangsUp who =>
      obtain ⟨process, there, moved⟩ := Option.bind_eq_some_iff.mp moved
      cases moved
      rcases sound.elder_or_youngest there with ⟨gone, replaces⟩ | ⟨number, youngest⟩
      · exact replaces _ gone.hangUp
      · exact youngest.replaces _ _ _ youngest.fits.hangUp

theorem sound_invariant (launched : Launched) (openMax : ℤ) :
    (daemon launched openMax).Invariant (Sound launched openMax) where
  initial _ started := by
    rw [started]
    exact sound_start
  step _ _ _ sound moved := sound.step moved

/-! ## Every run ends -/

/-- How many steps are left from a place, at most. -/
def At.left (openMax : ℤ) : At → ℕ
  | .forking => openMax.toNat + 14
  | .settingSid => openMax.toNat + 12
  | .ignoring => openMax.toNat + 11
  | .forkingAgain => openMax.toNat + 10
  | .changing => openMax.toNat + 8
  | .masking => openMax.toNat + 7
  | .closing i => i.toNat + 6
  | .opening => 5
  | .logging _ left => left.length + 1
  | .leaving => 1
  | .ended _ | .killed => 0

def Process.left (openMax : ℤ) (process : Process) : ℕ := process.place.left openMax

def State.left (openMax : ℤ) (state : State) : ℕ :=
  (state.processes.map (Process.left openMax)).sum

theorem left_go (moved : process.go openMax = some (next_, lines)) :
    next_.left openMax < process.left openMax := by
  obtain ⟨place, pid, group, session, terminal, hangup, cwd, umask, table⟩ := process
  cases place with
  | settingSid =>
      dsimp only [Process.go] at moved
      split at moved <;> cases moved <;> simp only [Process.left, At.left] <;> omega
  | closing i =>
      dsimp only [Process.go] at moved
      split at moved <;> cases moved <;> simp only [Process.left, At.left] <;> omega
  | logging fd left =>
      cases left with
      | cons message left =>
          cases moved
          exact Nat.lt_succ_self _
      | nil => cases fd <;> cases moved <;> exact Nat.zero_lt_one
  | ignoring | changing | masking =>
      cases moved
      exact Nat.lt_succ_self _
  | leaving =>
      cases moved
      exact Nat.zero_lt_one
  | forking | forkingAgain | opening | ended | killed => cases moved

theorem left_fork (moved : process.fork pid = some (next_, child)) :
    next_.left openMax + child.left openMax < process.left openMax := by
  obtain ⟨place, own, group, session, terminal, hangup, cwd, umask, table⟩ := process
  rw [Process.fork] at moved
  split at moved
  · cases moved
  · cases place with
    | forking | forkingAgain =>
        cases moved
        simp only [Process.left, At.left]
        omega
    | _ => cases moved

theorem left_openLog (moved : process.openLog fd = some next_) :
    next_.left openMax < process.left openMax := by
  rw [Process.openLog] at moved
  split at moved
  · rename_i opens
    cases moved
    simp only [Process.left, At.left, opens.1]
    decide
  · cases moved

theorem left_fail (moved : process.fail = some next_) :
    next_.left openMax < process.left openMax := by
  obtain ⟨place, pid, group, session, terminal, hangup, cwd, umask, table⟩ := process
  cases place with
  | forking | forkingAgain | changing =>
      cases moved
      simp only [Process.left, At.left]
      omega
  | opening =>
      cases moved
      exact Nat.lt_succ_self _
  | _ => cases moved

theorem left_lt (quiet : ∀ who, action ≠ .hangsUp who)
    (moved : next openMax before action = some after) : after.left openMax < before.left openMax := by
  cases action with
  | step who =>
      obtain ⟨process, there, moved⟩ := Option.bind_eq_some_iff.mp moved
      obtain ⟨⟨next_, lines⟩, went, moved⟩ := Option.bind_eq_some_iff.mp moved
      cases moved
      have sum := sum_map_set (Process.left openMax) there next_
      have less := left_go went
      simp only [State.left]
      omega
  | forks who pid =>
      obtain ⟨process, there, moved⟩ := Option.bind_eq_some_iff.mp moved
      obtain ⟨⟨next_, child⟩, forked, moved⟩ := Option.bind_eq_some_iff.mp moved
      cases moved
      have sum := sum_map_set (Process.left openMax) there next_
      have less := @left_fork openMax _ _ _ _ forked
      simp only [State.left, List.map_append, List.sum_append, List.map_cons, List.map_nil,
        List.sum_cons, List.sum_nil]
      omega
  | opens who fd =>
      obtain ⟨process, there, moved⟩ := Option.bind_eq_some_iff.mp moved
      obtain ⟨next_, opened, moved⟩ := Option.bind_eq_some_iff.mp moved
      cases moved
      have sum := sum_map_set (Process.left openMax) there next_
      have less := @left_openLog openMax _ _ _ opened
      simp only [State.left]
      omega
  | fails who =>
      obtain ⟨process, there, moved⟩ := Option.bind_eq_some_iff.mp moved
      obtain ⟨next_, failed, moved⟩ := Option.bind_eq_some_iff.mp moved
      cases moved
      have sum := sum_map_set (Process.left openMax) there next_
      have less := @left_fail openMax _ _ failed
      simp only [State.left]
      omega
  | hangsUp who => exact absurd rfl (quiet who)

/-- A process that has not come to its end can go on. -/
theorem exists_next (there : state.processes[who]? = some process)
    (alive : process.place.finished = false) :
    ∃ action after, (∀ other, action ≠ .hangsUp other) ∧
      next openMax state action = some after := by
  obtain ⟨place, pid, group, session, terminal, hangup, cwd, umask, table⟩ := process
  have steps {after : Process × List Message}
      (went : Process.go openMax ⟨place, pid, group, session, terminal, hangup, cwd, umask, table⟩ =
        some after) : ∃ action after, (∀ other, action ≠ .hangsUp other) ∧
      next openMax state action = some after := by
    exact ⟨.step who, _, fun _ => nofun, Option.bind_eq_some_iff.mpr
      ⟨_, there, Option.bind_eq_some_iff.mpr ⟨_, went, rfl⟩⟩⟩
  have fails {after : Process}
      (failed : Process.fail ⟨place, pid, group, session, terminal, hangup, cwd, umask, table⟩ =
        some after) : ∃ action after, (∀ other, action ≠ .hangsUp other) ∧
      next openMax state action = some after := by
    exact ⟨.fails who, _, fun _ => nofun, Option.bind_eq_some_iff.mpr
      ⟨_, there, Option.bind_eq_some_iff.mpr ⟨_, failed, rfl⟩⟩⟩
  cases place with
  | forking | forkingAgain | changing | opening => exact fails rfl
  | settingSid =>
      by_cases leads : group = pid
      · exact steps (if_pos leads)
      · exact steps (if_neg leads)
  | closing i =>
      by_cases more : 0 < i
      · exact steps (if_pos more)
      · exact steps (if_neg more)
  | logging fd left =>
      cases left with
      | cons message left => exact steps rfl
      | nil => cases fd <;> exact steps rfl
  | ignoring | masking | leaving => exact steps rfl
  | ended status => cases alive
  | killed => cases alive

/-- The process has got behind the second `fork`. -/
def At.apart : At → Bool
  | .changing | .masking | .closing _ | .opening | .logging .. | .ended .exitSuccess => true
  | _ => false

/-- What is promised for a state. -/
structure Daemonized (launched : Launched) (openMax : ℤ) (state : State) : Prop where
  few : state.processes.length ≤ 3
  /-- the first two processes do not get behind the second `fork`, and report a failure -/
  early : ∀ number process, number < 2 → state.processes[number]? = some process →
    process.place.apart = false
  /-- the third one is not at the mercy of a terminal -/
  detached : ∀ process, state.processes[2]? = some process →
    Detached process ∧ process.place.apart
  /-- and has everything set up when it writes to the log -/
  ready : ∀ process fd left, state.processes[2]? = some process →
    process.place = .logging fd left → process.umask = 0 ∧
      (process.cwd = "/" ∨ .changing ∈ state.failures) ∧
      process.table = remaining launched openMax fd ∧
      ∀ number, fd = some number → (remaining launched openMax none).Lowest number
  /-- it writes its lines in their order, and nobody else does -/
  log : ∀ process, state.processes[2]? = some process → ∃ past left, past ++ left = messages ∧
    state.log = past.map (fun line => (process.pid, line)) ∧
      (process.place = .ended .exitSuccess → left = [])
  silent : state.processes[2]? = none → state.log = []
  /-- in the end they are all there, if no `fork` has failed and no process has been killed -/
  whole : (∀ process ∈ state.processes, process.place.finished) →
    (∃ process, state.processes[2]? = some process ∧ process.place = .ended .exitSuccess) ∨
      .forking ∈ state.failures ∨ .forkingAgain ∈ state.failures ∨
        ∃ process ∈ state.processes, process.place = .killed
  /-- a process can go on, or all have come to their end -/
  goesOn : (∃ action after, (∀ who, action ≠ .hangsUp who) ∧
    next openMax state action = some after) ∨ ∀ process ∈ state.processes, process.place.finished
  ends : ((daemon launched openMax).restrict fun _ action =>
    ∀ who, action ≠ .hangsUp who).Terminates state

theorem Process.Gone.apart (gone : process.Gone) : process.place.apart = false := by
  cases gone with
  | leaving here | ended here | killed here =>
      rw [here]
      rfl

theorem Youngest.apart (fits : Youngest launched openMax failures number process log)
    (few : number < 2) : process.place.apart = false := by
  cases fits with
  | gone few gone reason => exact gone.apart
  | forking =>
      rw [launched.place]
      rfl
  | settingSid | ignoring | forkingAgain => rfl
  | third => exact absurd few (by decide)

theorem Youngest.lt_three (fits : Youngest launched openMax failures number process log) :
    number < 3 := by
  cases fits with
  | gone few => omega
  | forking | settingSid | ignoring | forkingAgain | third => decide

/-- What is known about the third process. -/
structure Third (launched : Launched) (openMax : ℤ) (state : State) (process : Process) : Prop where
  detached : Detached process
  cwd : process.place = .changing ∨ process.cwd = "/" ∨ .changing ∈ state.failures
  stage : ∃ past, Stage launched openMax process.place process.umask process.table past ∧
    state.log = past.map fun line => (process.pid, line)

theorem Sound.third (sound : Sound launched openMax state)
    (there : state.processes[2]? = some process) : Third launched openMax state process := by
  obtain ⟨list, log, failures⟩ := state
  obtain @⟨elders, youngest, processes, gone, fits⟩ := sound
  dsimp only at processes fits there
  have most := fits.lt_three
  have inside := (List.getElem?_eq_some_iff.mp there).1
  rw [processes, List.length_append, List.length_singleton] at inside
  have two : elders.length = 2 := by omega
  rw [processes, ← two, List.getElem?_concat_length] at there
  cases there
  rw [two] at fits
  cases fits with
  | gone few => exact absurd few (by decide)
  | third detached cwd stage => exact ⟨detached, cwd, _, stage, rfl⟩

/-- The stages are behind the second `fork`. -/
theorem Stage.apart {place : At} {umask : ℕ} {table : DescriptorTable Object} {past : List Message}
    (stage : Stage launched openMax place umask table past) : place.apart := by
  cases stage <;> rfl

theorem Sound.few (sound : Sound launched openMax state) : state.processes.length ≤ 3 := by
  obtain @⟨elders, youngest, processes, gone, fits⟩ := sound
  have most := fits.lt_three
  rw [processes, List.length_append, List.length_singleton]
  exact most

theorem Sound.early (sound : Sound launched openMax state) (first : number < 2)
    (there : state.processes[number]? = some process) : process.place.apart = false := by
  rcases sound.elder_or_youngest there with ⟨gone, -⟩ | ⟨position, youngest⟩
  · exact gone.apart
  · obtain @⟨elders, youngest_, processes, gone, fits⟩ := sound
    rw [processes] at there
    by_cases elder : number < elders.length
    · rw [List.getElem?_append_left elder] at there
      exact (gone process (List.mem_of_getElem? there)).apart
    · have same : number = elders.length := by
        have inside := (List.getElem?_eq_some_iff.mp there).1
        rw [List.length_append, List.length_singleton] at inside
        omega
      rw [same, List.getElem?_concat_length] at there
      cases there
      exact fits.apart (same ▸ first)

theorem Sound.silent (sound : Sound launched openMax state) (two : state.processes[2]? = none) :
    state.log = [] := by
  obtain ⟨list, log, failures⟩ := state
  obtain @⟨elders, youngest, processes, gone, fits⟩ := sound
  dsimp only at processes fits two
  rw [processes, List.getElem?_eq_none_iff, List.length_append, List.length_singleton] at two
  have few : elders.length < 2 := by omega
  generalize elders.length = number at fits few
  cases fits with
  | gone | forking | settingSid | ignoring | forkingAgain => rfl
  | third => exact absurd few (by decide)

theorem Sound.whole (sound : Sound launched openMax state)
    (finished : ∀ process ∈ state.processes, process.place.finished) :
    (∃ process, state.processes[2]? = some process ∧ process.place = .ended .exitSuccess) ∨
      .forking ∈ state.failures ∨ .forkingAgain ∈ state.failures ∨
        ∃ process ∈ state.processes, process.place = .killed := by
  obtain ⟨list, log, failures⟩ := state
  obtain @⟨elders, youngest, processes, gone, fits⟩ := sound
  dsimp only at processes fits finished ⊢
  have member : youngest ∈ list := processes ▸ List.mem_append_right _ List.mem_cons_self
  have ended := finished youngest member
  generalize number_ : elders.length = number at fits
  cases fits with
  | gone few gone reason =>
      rcases reason with killed | failed | failed
      · exact .inr (.inr (.inr ⟨youngest, member, killed⟩))
      · exact .inr (.inl failed)
      · exact .inr (.inr (.inl failed))
  | forking =>
      rw [launched.place] at ended
      cases ended
  | settingSid | ignoring | forkingAgain => cases ended
  | third detached cwd stage =>
      refine .inl ⟨youngest, ?_, ?_⟩
      · rw [processes, ← number_, List.getElem?_concat_length]
      · obtain ⟨place, pid, group, session, terminal, hangup, cwd_, umask, table⟩ := youngest
        dsimp only at stage ended ⊢
        cases stage with
        | ended => rfl
        | changing | masking | closing | opening | logging => cases ended

theorem Third.ready (third : Third launched openMax state process) {fd : Option ℕ}
    {left : List Message} (here : process.place = .logging fd left) :
    process.umask = 0 ∧ (process.cwd = "/" ∨ .changing ∈ state.failures) ∧
      process.table = remaining launched openMax fd ∧
      ∀ number, fd = some number → (remaining launched openMax none).Lowest number := by
  obtain ⟨place, pid, group, session, terminal, hangup, cwd, umask, table⟩ := process
  obtain ⟨-, there, past, stage, -⟩ := third
  dsimp only at here there stage
  subst here
  cases stage with
  | logging split lowest => exact ⟨rfl, there.resolve_left nofun, rfl, lowest⟩

theorem Third.writes (third : Third launched openMax state process) : ∃ past left,
    past ++ left = messages ∧ state.log = past.map (fun line => (process.pid, line)) ∧
      (process.place = .ended .exitSuccess → left = []) := by
  obtain ⟨-, -, past, stage, log⟩ := third
  obtain ⟨place, pid, group, session, terminal, hangup, cwd, umask, table⟩ := process
  dsimp only at stage log ⊢
  cases stage with
  | changing | masking | closing | opening => exact ⟨[], messages, rfl, log, nofun⟩
  | @logging fd past left split lowest => exact ⟨past, left, split, log, nofun⟩
  | ended => exact ⟨messages, [], rfl, log, fun _ => rfl⟩

/-- **Only the daemon is left.** Whatever calls fail and whenever a `SIGHUP` comes, at most one
process gets behind the second `fork`. It has no terminal and cannot get one, and it writes all its
lines, unless a `fork` fails or one of the others is killed; and every run ends. -/
theorem daemonized_of_reachable (reached : (daemon launched openMax).Reachable state) :
    Daemonized launched openMax state := by
  have sound := (sound_invariant launched openMax).reachable reached
  refine ⟨sound.few, fun number process => sound.early, fun process there => ?_,
    fun process fd left there here => (sound.third there).ready here,
    fun process there => (sound.third there).writes, sound.silent, sound.whole, ?_, ?_⟩
  · have third := sound.third there
    obtain ⟨past, stage, -⟩ := third.stage
    exact ⟨third.detached, stage.apart⟩
  · by_cases all : ∀ process ∈ state.processes, process.place.finished
    · exact .inr all
    · obtain ⟨process, member, alive⟩ := by simpa only [not_forall] using all
      obtain ⟨who, there⟩ := List.getElem?_of_mem member
      exact .inl (exists_next there (Bool.not_eq_true _ ▸ alive))
  · have always : ((daemon launched openMax).restrict fun _ action =>
        ∀ who, action ≠ .hangsUp who).Invariant fun _ => True :=
      ⟨fun _ _ => trivial, fun _ _ _ _ _ => trivial⟩
    exact always.terminates (State.left openMax)
      (fun _ _ _ _ moved => left_lt moved.1 moved.2) trivial

/-- A shell in its own session has started the program. -/
def fromShell : Launched where
  process := {
    place := .forking, pid := 101, group := 101, session := 100, terminal := true
    hangup := .default, cwd := "/root", umask := 18
    table := fun number => if number < 3 then some (.inherited number) else none }
  place := rfl
  hangup := nofun

/-- The third process is in its loop when the other two are hung up. -/
def hungUp : List Action :=
  [.forks 0 102, .step 1, .step 1, .forks 1 103, .step 2, .step 2, .step 2, .hangsUp 1, .hangsUp 2,
    .hangsUp 0, .step 2, .step 2, .step 2, .opens 2 1, .step 2, .step 2]

/-- The log has got the number of the standard output. -/
theorem daemonized_of_hungUp : ∃ state,
    run (next 3) (start fromShell) hungUp = some state ∧
      state.log = [(103, .started), (103, .running)] ∧
        Daemonized fromShell 3 state := by
  obtain ⟨state, executed⟩ := Option.isSome_iff_exists.mp
    (show (run (next 3) (start fromShell) hungUp).isSome by decide)
  have reached : (daemon fromShell 3).Reachable state := .of_execution (.initial rfl) executed
  have daemonized := daemonized_of_reachable reached
  cases executed
  exact ⟨_, rfl, rfl, daemonized⟩

end LinuxUnix.Daemon

import LinuxUnix.Network.ForkingServer

/-! # No child of the forking server stays a zombie

Several children can end while one `SIGCHLD` is pending, and more while `no_zombie` runs. A
child that ends makes the signal pending, and the handler leaves its loop only when `waitpid`
has found no child that has ended. So as long as one has not been waited for, the signal is
pending or the handler is in its loop (`LinuxUnix.ForkingServer.reaped_of_reachable`).
-/

namespace LinuxUnix.ForkingServer

open FileTransfer TransitionSystem

/-- As long as a process has a child that has ended and has not been waited for, `SIGCHLD` is
pending for it or `no_zombie` runs in it; otherwise it has waited once for each child that
has ended. A process that has ended itself leaves its children to others. -/
structure Reaped (state : State) : Prop where
  zombies : ∀ who process child, state.processes who = some process → process.place ≠ .ended →
    state.Zombie who child → process.pending = true ∨ process.handler ≠ .idle
  once : ∀ who process, state.processes who = some process → process.place ≠ .ended →
    process.pending = false → process.handler = .idle →
      ∀ child ended, state.processes child = some ended → ended.parent = some who →
        ended.place = .ended → ended.waited = 1

/-- The process will still call `waitpid`. -/
def Watches (process : Process) : Prop :=
  process.pending = true ∨ process.handler = .waiting ∨ process.handler = .reporting

/-- Zombies are watched, but for one that has just ended. -/
structure Watched (state : State) (except : Option ℕ) : Prop where
  fresh : ∀ who, state.started ≤ who → state.processes who = none
  parents : ∀ who process parent, state.processes who = some process →
    process.parent = some parent → parent < state.started
  once : ∀ who process, state.processes who = some process →
    process.waited = 0 ∨ process.waited = 1 ∧ process.place = .ended
  zombies : ∀ who process child, state.processes who = some process → process.place ≠ .ended →
    state.Zombie who child → some child ≠ except → Watches process

variable {home : List Byte} {state : State} {who : ℕ} {old process : Process} {except : Option ℕ}

/-- What new data keep of a process: its parent, and that it has ended, unless it is the
exception. -/
structure Continues (old process : Process) (exempt : Prop) : Prop where
  parent : process.parent = old.parent
  waited : process.waited = 0 → old.waited = 0
  alive : process.place ≠ .ended → old.place ≠ .ended
  ended : process.place = .ended → old.place = .ended ∨ exempt

/-- New data of a process bring no zombie but the exception. -/
theorem zombie_of_set {parent child : ℕ} (there : state.processes who = some old)
    (continues : Continues old process (some who = except))
    (zombie : (state.set who process).Zombie parent child) (other : some child ≠ except) :
    state.Zombie parent child := by
  obtain ⟨found, foundAt, parents, ended, unwaited⟩ := zombie
  by_cases same : child = who
  · subst same
    rw [Option.mem_def, processes_set_self] at foundAt
    cases foundAt
    have before := (continues.ended ended).resolve_right other
    exact ⟨old, there, continues.parent ▸ parents, before, continues.waited unwaited⟩
  · rw [Option.mem_def, processes_set_of_ne same] at foundAt
    exact ⟨found, foundAt, parents, ended, unwaited⟩

/-- New data of a process keep the zombies watched if the process still watches its own. -/
theorem Watched.set (kept : Watched state except) (there : state.processes who = some old)
    (continues : Continues old process (some who = except))
    (once : process.waited = 0 ∨ process.waited = 1 ∧ process.place = .ended)
    (own : Watches old → Watches process ∨ ∀ child, ¬ state.Zombie who child) :
    Watched (state.set who process) except where
  fresh other large := processes_set_of_none there (kept.fresh other large)
  parents other found parent foundAt parents := by
    by_cases same : other = who
    · subst same
      rw [processes_set_self] at foundAt
      cases foundAt
      exact kept.parents other old parent there (continues.parent ▸ parents)
    · rw [processes_set_of_ne same] at foundAt
      exact kept.parents other found parent foundAt parents
  once other found foundAt := by
    by_cases same : other = who
    · subst same
      rw [processes_set_self] at foundAt
      cases foundAt
      exact once
    · rw [processes_set_of_ne same] at foundAt
      exact kept.once other found foundAt
  zombies other found child foundAt alive zombie unexempt := by
    have before := zombie_of_set there continues zombie unexempt
    by_cases same : other = who
    · subst same
      rw [processes_set_self] at foundAt
      cases foundAt
      have watched := kept.zombies other old child there (continues.alive alive) before unexempt
      exact (own watched).resolve_right fun clear => clear child before
    · rw [processes_set_of_ne same] at foundAt
      exact kept.zombies other found child foundAt alive before unexempt

/-- A step that changes neither the signals of a process nor its end. -/
theorem Watched.go (kept : Watched state none) (there : state.processes who = some old)
    (parent : process.parent = old.parent) (alive : old.place ≠ .ended)
    (goes : process.place ≠ .ended) (waited : process.waited = old.waited)
    (watches : Watches old → Watches process) : Watched (state.set who process) none :=
  kept.set there
    { parent
      waited := fun unwaited => waited ▸ unwaited
      alive := fun _ => alive
      ended := fun ended => absurd ended goes }
    (.inl (by
      rw [waited]
      exact (kept.once _ _ there).resolve_right fun both => alive both.2))
    (fun watched => .inl (watches watched))

/-- What a signal leaves of a process. -/
theorem parent_of_signal {other : ℕ} (there : state.processes other = some old)
    (foundAt : (state.signal who).processes other = some process) :
    process.parent = old.parent := by
  unfold State.signal at foundAt
  split at foundAt
  · rename_i signalled signalledAt
    by_cases same : other = who
    · subst same
      rw [processes_set_self] at foundAt
      cases there.symm.trans signalledAt
      cases foundAt
      rfl
    · rw [processes_set_of_ne same, there] at foundAt
      cases foundAt
      rfl
  · cases there.symm.trans foundAt
    rfl

theorem pending_of_signal (foundAt : (state.signal who).processes who = some process) :
    process.pending = true := by
  unfold State.signal at foundAt
  split at foundAt
  · rw [processes_set_self] at foundAt
    cases foundAt
    rfl
  · rename_i missing
    cases missing.symm.trans foundAt

theorem Watched.signal (kept : Watched state except) (who : ℕ) :
    Watched (state.signal who) except := by
  unfold State.signal
  split
  · rename_i process there
    exact kept.set there
      { parent := rfl, waited := id, alive := id, ended := .inl }
      (kept.once who process there) (fun _ => .inl (.inl rfl))
  · exact kept

/-- The end of a process makes the signal of its parent pending. -/
theorem Watched.reap (kept : Watched state (some who))
    (there : state.processes who = some process) :
    Watched (state.reap process) none := by
  unfold State.reap
  split
  · rename_i parent ended parents
    have signalled := kept.signal parent
    refine { signalled with zombies := ?_ }
    intro other found child foundAt alive zombie _
    by_cases same : child = who
    · -- the process that has just ended
      subst same
      obtain ⟨last, lastAt, lastParent, _⟩ := zombie
      rw [parent_of_signal there lastAt, parents] at lastParent
      cases lastParent
      exact .inl (pending_of_signal foundAt)
    · exact signalled.zombies other found child foundAt alive zombie fun exempt =>
        same (Option.some.inj exempt)
  · rename_i unparented
    refine { kept with zombies := ?_ }
    intro other found child foundAt alive zombie _
    refine kept.zombies other found child foundAt alive zombie ?_
    rintro ⟨⟩
    obtain ⟨last, lastAt, parents, ended, _⟩ := zombie
    cases there.symm.trans lastAt
    exact unparented other ended parents

/-- A process ends, or goes on where it ends if it has ended. -/
theorem Watched.end (kept : Watched state none) (there : state.processes who = some old)
    (parent : process.parent = old.parent) (alive : old.place ≠ .ended)
    (waited : process.waited = old.waited) (watches : Watches old → Watches process) :
    Watched ((state.set who process).reap process) none := by
  have once : process.waited = 0 :=
    waited.trans ((kept.once _ _ there).resolve_right fun both => alive both.2)
  have weaker : Watched state (some who) :=
    { kept with zombies := fun other found child foundAt goes zombie _ =>
        kept.zombies other found child foundAt goes zombie nofun }
  refine Watched.reap (weaker.set there ?_ (.inl once) fun watched => .inl (watches watched))
    (processes_set_self ..)
  exact {
    parent
    waited := fun unwaited => waited ▸ unwaited
    alive := fun _ => alive
    ended := fun _ => .inr rfl }

/-- A new process has no children. -/
theorem Watched.start (kept : Watched state none) {parent : ℕ}
    (child : process.parent = some parent) (known : parent < state.started)
    (alive : process.place ≠ .ended) (waited : process.waited = 0) :
    Watched { state.set state.started process with started := state.started + 1 } none where
  fresh other large := by
    have different : other ≠ state.started := by
      rintro rfl
      exact absurd large (by simp)
    exact (processes_set_of_ne different).trans (kept.fresh other (by simp at large; omega))
  parents other found parent foundAt parents := by
    by_cases same : other = state.started
    · subst same
      cases (processes_set_self ..).symm.trans foundAt
      cases child.symm.trans parents
      exact Nat.lt_succ_of_lt known
    · exact Nat.lt_succ_of_lt
        (kept.parents other found parent ((processes_set_of_ne same).symm.trans foundAt) parents)
  once other found foundAt := by
    by_cases same : other = state.started
    · subst same
      cases (processes_set_self ..).symm.trans foundAt
      exact .inl waited
    · exact kept.once other found ((processes_set_of_ne same).symm.trans foundAt)
  zombies other found child foundAt goes zombie _ := by
    obtain ⟨last, lastAt, parents, ended, unwaited⟩ := zombie
    have childIs : child ≠ state.started := by
      rintro rfl
      cases (processes_set_self ..).symm.trans lastAt
      exact alive ended
    have lastAt := (processes_set_of_ne childIs).symm.trans lastAt
    have parentIs : other ≠ state.started := by
      rintro rfl
      exact absurd (kept.parents child last _ lastAt parents) (Nat.lt_irrefl _)
    exact kept.zombies other found child ((processes_set_of_ne parentIs).symm.trans foundAt) goes
      ⟨last, lastAt, parents, ended, unwaited⟩ nofun

/-- `waitpid` takes a child out of those that have to be waited for. -/
theorem Watched.wait (kept : Watched state none) {child : ℕ} {ended : Process}
    (there : state.processes who = some process) (alive : process.place ≠ .ended)
    (childAt : state.processes child = some ended) (zombie : state.Zombie who child) :
    Watched ((state.set child { ended with waited := ended.waited + 1 }).set who
      { process with handler := .reporting }) none := by
  obtain ⟨last, lastAt, _, isEnded, unwaited⟩ := zombie
  cases childAt.symm.trans lastAt
  have different : who ≠ child := by
    rintro rfl
    cases there.symm.trans childAt
    exact alive isEnded
  have taken : Watched (state.set child { ended with waited := ended.waited + 1 }) none :=
    kept.set childAt { parent := rfl, waited := nofun, alive := id, ended := .inl }
      (.inr ⟨congrArg (· + 1) unwaited, isEnded⟩) .inl
  exact taken.go ((processes_set_of_ne different).trans there) rfl alive alive rfl
    fun _ => .inr (.inr rfl)

/-- Every step keeps the zombies watched. -/
theorem watched_next {after : State} {action : Action} (kept : Watched state none)
    (moved : next home state action = some after) : Watched after none := by
  cases moves_of_next moved with
  | @accept who fd process there place _ _ _ =>
      have gone : Watched (state.set who (process.accept state.connections fd)) none :=
        kept.go there rfl (by rw [place]; nofun) nofun rfl id
      exact { gone with }
  | interrupted => exact kept
  | acceptFails there place _ => exact kept.end there rfl (by rw [place]; nofun) rfl id
  | @fork who process there place _ =>
      have gone : Watched (state.set who { process with place := .closing }) none :=
        kept.go there rfl (by rw [place]; nofun) nofun rfl id
      refine gone.start rfl ?_ nofun rfl
      by_contra large
      cases there.symm.trans (kept.fresh who (Nat.le_of_not_lt large))
  | forkFails there place _ => exact kept.go there rfl (by rw [place]; nofun) nofun rfl id
  | detach there place _ => exact kept.go there rfl (by rw [place]; nofun) nofun rfl id
  | @call who process call _ there place _ _ _ =>
      have read : Watched { state with log := state.log ++ reading who process.table call } none :=
        { kept with }
      exact read.end there rfl (by rw [place]; nofun) rfl id
  | overrun there place _ _ => exact kept.end there rfl (by rw [place]; nofun) rfl id
  | close there place _ => exact kept.go there rfl (by rw [place]; nofun) nofun rfl id
  | kill there alive => exact kept.end there rfl alive rfl id
  | @notify who => exact kept.signal who
  | deliver there alive _ _ => exact kept.go there rfl alive alive rfl fun _ => .inr (.inl rfl)
  | wait there alive _ childAt zombie => exact kept.wait there alive childAt zombie
  | @waitNone who process there alive _ nobody =>
      refine kept.set there { parent := rfl, waited := id, alive := id, ended := .inl }
        (kept.once who process there) fun _ => .inr ?_
      intro child zombie
      refine nobody child ?_ zombie
      obtain ⟨last, lastAt, _⟩ := zombie
      by_contra large
      cases (kept.fresh child (Nat.le_of_not_lt large)).symm.trans lastAt
  | report there alive _ => exact kept.go there rfl alive alive rfl fun _ => .inr (.inl rfl)
  | return_ there alive leaving =>
      refine kept.go there rfl alive alive rfl ?_
      rintro (pending | waiting | reporting)
      · exact .inl pending
      · cases leaving.symm.trans waiting
      · cases leaving.symm.trans reporting

theorem watched_invariant (home : List Byte) :
    (forkingServer home).Invariant fun state => Watched state none where
  initial := by
    rintro _ ⟨inherited, sockfd, locals, _, _, rfl⟩
    have only : ∀ who process, (listening (original inherited sockfd locals)).processes who =
        some process → process = original inherited sockfd locals := by
      intro who process there
      rw [listening, Option.ite_none_right_eq_some, Option.some.injEq] at there
      exact there.2.symm
    exact {
      fresh := fun who large => if_neg (Nat.ne_of_gt large)
      parents := by
        intro who process parent there parents
        cases only who process there
        cases parents
      once := by
        intro who process there
        cases only who process there
        exact .inl rfl
      zombies := by
        rintro who process child _ _ ⟨last, lastAt, _, ended, _⟩ _
        cases only child last lastAt
        cases ended }
  step _ _ _ kept moved := watched_next kept moved

/-- No zombie is left behind. -/
theorem Watched.reaped (kept : Watched state none) : Reaped state where
  zombies who process child there alive zombie := by
    rcases kept.zombies who process child there alive zombie nofun with pending | running | running
    · exact .inl pending
    · exact .inr (by rw [running]; nofun)
    · exact .inr (by rw [running]; nofun)
  once who process there alive quiet idle child ended childAt parents isEnded := by
    refine (kept.once child ended childAt).elim (fun unwaited => ?_) And.left
    have zombie : state.Zombie who child := ⟨ended, childAt, parents, isEnded, unwaited⟩
    rcases kept.zombies who process child there alive zombie nofun with pending | running | running
    · cases quiet.symm.trans pending
    · cases idle.symm.trans running
    · cases idle.symm.trans running

/-- In every run, whatever children there are and whenever they end: as long as one has not
been waited for, `SIGCHLD` is pending or `no_zombie` runs, and otherwise each child that has
ended has been waited for once. -/
theorem reaped_of_reachable (reached : (forkingServer home).Reachable state) : Reaped state :=
  ((watched_invariant home).reachable reached).reaped

/-- Two children are forked and end before the signal is delivered, and the handler waits for
both. -/
def twoChildren : List Action :=
  [.accept 0 4, .fork 0, .close 0, .accept 0 4, .fork 0, .kill 1, .close 0, .kill 2, .deliver 0,
    .wait 0 2, .report 0, .wait 0 1, .report 0, .waitNone 0, .return_ 0]

theorem reaped_of_twoChildren : ∃ state : State,
    run (guarded (fun _ _ => True) (next [47])) (listening (original streams 3 blank)) twoChildren =
      some state ∧ Reaped state := by
  have executed : (run (guarded (fun _ _ => True) (next [47]))
      (listening (original streams 3 blank)) twoChildren).isSome = true := by
    decide +kernel
  obtain ⟨state, executed⟩ := Option.isSome_iff_exists.mp executed
  have reached : ((forkingServer [47]).restrict fun _ _ => True).Reachable state :=
    .of_run (.initial ⟨streams, 3, blank, streams_standard, by decide, rfl⟩) executed
  exact ⟨state, executed, reaped_of_reachable reached.of_restrict⟩

end LinuxUnix.ForkingServer

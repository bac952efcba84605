import LinuxUnix.Network.ForkingServer

/-! # Only the original process serves the listening socket

The child of `pserver` does not exit after its transfer: it calls `accept` again. It has closed
the listening socket before, and although `open` may have handed out the number once more, this
number is closed again before the child gets there. So `accept` fails in every child, and every
child serves the one connection for which it has been forked
(`LinuxUnix.ForkingServer.separate_of_reachable`).
-/

namespace LinuxUnix.ForkingServer

open FileTransfer DescriptorTable TransitionSystem

/-- What a child has read from: its connection. If it has left its buffers, it may also have
read from something that is no connection. -/
def ReadsOwn (process : Process) (object : Option Object) : Prop :=
  ∃ conn, process.served = some conn ∧ (object = some (.connection conn) ∨
    process.overrun = true ∧ ∀ other, object ≠ some (.connection other))

/-- Only the original process accepts, in a child `accept` fails because its descriptor is not
open, and each child has a connection of its own, the only one that it reads. -/
structure Separate (state : State) : Prop where
  accepts : ∀ who conn, .accepted who conn ∈ state.log → who = 0
  refused : ∀ who process, who ≠ 0 → state.processes who = some process →
    process.place = .accepting → process.table.lookup process.sockfd ≠ some .listening ∧
      (process.overrun = false → process.table.lookup process.sockfd = none)
  served : ∀ who process, who ≠ 0 → state.processes who = some process →
    ∃ conn, process.served = some conn ∧ .accepted 0 conn ∈ state.log
  distinct : ∀ first second left right conn, state.processes first = some left →
    state.processes second = some right → left.served = some conn → right.served = some conn →
      first = second
  reads : ∀ who object, .read who object ∈ state.log →
    ∃ process, state.processes who = some process ∧ ReadsOwn process object

/-- The descriptors between `accept` and the next `close`. -/
structure Accepted (conn : ℕ) (process : Process) : Prop where
  entries : ∀ fd object, process.table fd = some object → object = .standard ∨
    object = .listening ∧ (fd : ℤ) = process.sockfd ∨
      object = .connection conn ∧ (fd : ℤ) = process.locals.connfd
  connection : process.table.lookup process.locals.connfd = some (.connection conn)
  apart : process.locals.connfd ≠ process.sockfd

/-- The descriptors in the branch of the child, depending on where it is. The file may have got
the number of the listening socket. -/
def Serving (table : DescriptorTable Object) (sockfd : ℤ) (conn : ℕ) (locals : Locals) : Prop :=
  match locals.pc with
  | .header _ | .openFile | .refused | .closeConn =>
      table.lookup locals.connfd = some (.connection conn) ∧ table.lookup sockfd = none
  | .block | .writing _ | .closeFile =>
      table.lookup locals.connfd = some (.connection conn) ∧
        table.lookup locals.fd = some .file ∧ (sockfd = locals.fd ∨ table.lookup sockfd = none)
  | .closeAgain | .done => table.lookup sockfd = none
  | .exited | .undefined => True

/-- What the descriptors of a child can denote. -/
def Confined (conn : ℕ) (table : DescriptorTable Object) : Prop :=
  ∀ fd object, table fd = some object →
    object = .standard ∨ object = .file ∨ object = .connection conn

/-- A child that has been forked for the connection. -/
structure Child (conn : ℕ) (process : Process) : Prop where
  behind : process.place ≠ .forking ∧ process.place ≠ .closing
  detaching : process.place = .detaching → Accepted conn process
  confined : process.place = .copying ∨ process.place = .accepting → Confined conn process.table
  serving : process.overrun = false → process.place = .copying →
    Serving process.table process.sockfd conn process.locals
  accepting : process.overrun = false → process.place = .accepting →
    process.table.lookup process.sockfd = none

/-- The original process, after this number of connections. -/
structure Original (connections : ℕ) (process : Process) : Prop where
  served : process.served = none
  before : process.place ≠ .detaching ∧ process.place ≠ .copying
  accepting : process.place = .accepting → ∀ fd object, process.table fd = some object →
    object = .standard ∨ object = .listening ∧ (fd : ℤ) = process.sockfd
  forking : process.place = .forking → ∃ conn, connections = conn + 1 ∧ Accepted conn process
  closing : process.place = .closing → ∃ conn, Accepted conn process

/-- The invariant. -/
structure Kept (state : State) : Prop where
  positive : 0 < state.started
  fresh : ∀ who, state.started ≤ who → state.processes who = none
  original : ∀ process, state.processes 0 = some process → Original state.connections process
  children : ∀ who process, who ≠ 0 → state.processes who = some process →
    ∃ conn, process.served = some conn ∧ conn < state.connections ∧ Child conn process
  distinct : ∀ first second left right conn, state.processes first = some left →
    state.processes second = some right → left.served = some conn → right.served = some conn →
      first = second
  unserved : ∀ process, state.processes 0 = some process → process.place = .forking →
    ∀ who child conn, state.processes who = some child → child.served = some conn →
      conn + 1 < state.connections
  accepts : ∀ who conn, .accepted who conn ∈ state.log → who = 0
  logged : ∀ conn, conn < state.connections → .accepted 0 conn ∈ state.log
  reads : ∀ who object, .read who object ∈ state.log →
    ∃ process, state.processes who = some process ∧ ReadsOwn process object

variable {home : List Byte} {state : State} {who conn connections : ℕ} {old process : Process}
  {table : DescriptorTable Object} {locals : Locals} {call : Request} {reply : Reply} {sockfd : ℤ}

theorem ReadsOwn.mono {object : Option Object} (own : ReadsOwn old object)
    (served : process.served = old.served) (overrun : old.overrun = true → process.overrun = true) :
    ReadsOwn process object := by
  obtain ⟨conn, servedOld, read⟩ := own
  exact ⟨conn, served.trans servedOld, read.imp id fun left => ⟨overrun left.1, left.2⟩⟩

theorem served_of_set {other : ℕ} {found : Process} (there : state.processes who = some old)
    (served : process.served = old.served)
    (foundAt : (state.set who process).processes other = some found)
    (foundServed : found.served = some conn) :
    ∃ earlier, state.processes other = some earlier ∧ earlier.served = some conn := by
  by_cases same : other = who
  · subst same
    cases (processes_set_self ..).symm.trans foundAt
    exact ⟨old, there, served ▸ foundServed⟩
  · exact ⟨found, (processes_set_of_ne same).symm.trans foundAt, foundServed⟩

/-- New data of a process keep the invariant if they keep what it says of this process. -/
theorem Kept.set (kept : Kept state) (there : state.processes who = some old)
    (served : process.served = old.served) (overrun : old.overrun = true → process.overrun = true)
    (unserved : who = 0 → process.place = .forking → ∀ other found conn,
      state.processes other = some found → found.served = some conn → conn + 1 < state.connections)
    (original : who = 0 → Original state.connections old → Original state.connections process)
    (child : ∀ conn, process.served = some conn → Child conn old → Child conn process) :
    Kept (state.set who process) where
  positive := kept.positive
  fresh other large := processes_set_of_none there (kept.fresh other large)
  original found foundAt := by
    by_cases same : 0 = who
    · subst same
      cases (processes_set_self ..).symm.trans foundAt
      exact original rfl (kept.original old there)
    · exact kept.original found ((processes_set_of_ne same).symm.trans foundAt)
  children other found nonzero foundAt := by
    by_cases same : other = who
    · subst same
      cases (processes_set_self ..).symm.trans foundAt
      obtain ⟨conn, servedOld, small, childOld⟩ := kept.children other old nonzero there
      exact ⟨conn, served.trans servedOld, small, child conn (served.trans servedOld) childOld⟩
    · exact kept.children other found nonzero ((processes_set_of_ne same).symm.trans foundAt)
  distinct first second left right conn leftAt rightAt leftServed rightServed := by
    obtain ⟨_, firstAt, firstServed⟩ := served_of_set there served leftAt leftServed
    obtain ⟨_, secondAt, secondServed⟩ := served_of_set there served rightAt rightServed
    exact kept.distinct first second _ _ conn firstAt secondAt firstServed secondServed
  unserved server serverAt place other found conn foundAt foundServed := by
    obtain ⟨earlier, earlierAt, earlierServed⟩ := served_of_set there served foundAt foundServed
    by_cases same : 0 = who
    · subst same
      cases (processes_set_self ..).symm.trans serverAt
      exact unserved rfl place other earlier conn earlierAt earlierServed
    · exact kept.unserved server ((processes_set_of_ne same).symm.trans serverAt) place other
        earlier conn earlierAt earlierServed
  accepts := kept.accepts
  logged := kept.logged
  reads other object read := by
    obtain ⟨found, foundAt, own⟩ := kept.reads other object read
    by_cases same : other = who
    · subst same
      cases there.symm.trans foundAt
      exact ⟨process, processes_set_self .., own.mono served overrun⟩
    · exact ⟨found, (processes_set_of_ne same).trans foundAt, own⟩

/-- The descriptors and the variables of a process stay as they are, and it stays where it is,
or ends. -/
structure Same (old process : Process) : Prop where
  served : process.served = old.served
  table : process.table = old.table
  sockfd : process.sockfd = old.sockfd
  locals : process.locals = old.locals
  overrun : process.overrun = old.overrun
  place : process.place = old.place ∨ process.place = .ended

theorem Same.at (same : Same old process) {place : Place} (alive : place ≠ .ended)
    (there : process.place = place) : old.place = place := by
  rcases same.place with still | ended
  · exact still.symm.trans there
  · exact absurd (there.symm.trans ended) alive

theorem Accepted.keep (accepted : Accepted conn old) (same : Same old process) :
    Accepted conn process where
  entries := by
    rw [same.table, same.sockfd, same.locals]
    exact accepted.entries
  connection := by
    rw [same.table, same.locals]
    exact accepted.connection
  apart := by
    rw [same.sockfd, same.locals]
    exact accepted.apart

theorem Original.keep (original : Original connections old) (same : Same old process) :
    Original connections process where
  served := same.served.trans original.served
  before :=
    ⟨fun there => original.before.1 (same.at nofun there),
      fun there => original.before.2 (same.at nofun there)⟩
  accepting there := by
    rw [same.table, same.sockfd]
    exact original.accepting (same.at nofun there)
  forking there := by
    obtain ⟨conn, last, accepted⟩ := original.forking (same.at nofun there)
    exact ⟨conn, last, accepted.keep same⟩
  closing there := by
    obtain ⟨conn, accepted⟩ := original.closing (same.at nofun there)
    exact ⟨conn, accepted.keep same⟩

theorem Child.keep (child : Child conn old) (same : Same old process) : Child conn process where
  behind :=
    ⟨fun there => child.behind.1 (same.at nofun there),
      fun there => child.behind.2 (same.at nofun there)⟩
  detaching there := (child.detaching (same.at nofun there)).keep same
  confined there := by
    rw [same.table]
    exact child.confined (there.imp (same.at nofun) (same.at nofun))
  serving sound there := by
    rw [same.table, same.sockfd, same.locals]
    exact child.serving (same.overrun ▸ sound) (same.at nofun there)
  accepting sound there := by
    rw [same.table, same.sockfd]
    exact child.accepting (same.overrun ▸ sound) (same.at nofun there)

theorem Kept.keep (kept : Kept state) (there : state.processes who = some old)
    (same : Same old process) : Kept (state.set who process) :=
  kept.set there same.served (fun overrun => same.overrun.trans overrun)
    (fun zero there' => by
      subst zero
      exact kept.unserved old there (same.at nofun there'))
    (fun _ original => original.keep same) (fun _ _ child => child.keep same)

theorem Kept.signal (kept : Kept state) (who : ℕ) : Kept (state.signal who) := by
  unfold State.signal
  split
  · rename_i process there
    exact kept.keep there ⟨rfl, rfl, rfl, rfl, rfl, .inl rfl⟩
  · exact kept

theorem Kept.reap (kept : Kept state) (process : Process) : Kept (state.reap process) := by
  unfold State.reap
  split
  · exact kept.signal _
  · exact kept

/-- A process that ends. -/
theorem Kept.end (kept : Kept state) (there : state.processes who = some old)
    (same : Same old process) : Kept ((state.set who process).reap process) :=
  (kept.keep there same).reap process

theorem lookup_of_confined (confined : Confined conn table) (fd : ℤ) {object : Object}
    (denotes : table.lookup fd = some object) :
    object = .standard ∨ object = .file ∨ object = .connection conn := by
  unfold lookup at denotes
  split at denotes
  · cases denotes
  · exact confined _ _ denotes

/-- The descriptor with which a child calls `accept` is not that of the socket. -/
theorem Child.refused (child : Child conn process) (there : process.place = .accepting) :
    process.table.lookup process.sockfd ≠ some .listening := by
  intro open_
  rcases lookup_of_confined (child.confined (.inr there)) _ open_ with other | other | other <;>
    cases other

/-- So only the original process accepts. -/
theorem Kept.accepting_zero (kept : Kept state) (there : state.processes who = some process)
    (place : process.place = .accepting)
    (open_ : process.table.lookup process.sockfd = some .listening) : who = 0 := by
  by_contra nonzero
  obtain ⟨conn, _, _, child⟩ := kept.children who process nonzero there
  exact child.refused place open_

theorem Kept.parent_zero (kept : Kept state) (there : state.processes who = some process)
    (place : process.place = .forking ∨ process.place = .closing) : who = 0 := by
  by_contra nonzero
  obtain ⟨conn, _, _, child⟩ := kept.children who process nonzero there
  exact place.elim child.behind.1 child.behind.2

theorem Kept.child_nonzero (kept : Kept state) (there : state.processes who = some process)
    (place : process.place = .detaching ∨ process.place = .copying) : who ≠ 0 := by
  rintro rfl
  have original := kept.original process there
  exact place.elim original.before.1 original.before.2

/-- The original process accepts a connection. -/
theorem Original.accept (original : Original connections process)
    (there : process.place = .accepting) {fd : ℕ} (lowest : process.table.Lowest fd)
    (open_ : process.table.lookup process.sockfd = some .listening) :
    Accepted connections (process.accept connections fd) where
  entries number object denotes := by
    by_cases same : number = fd
    · subst same
      cases install_self.symm.trans denotes
      exact .inr (.inr ⟨rfl, rfl⟩)
    · exact (original.accepting there number object
        ((install_of_ne same).symm.trans denotes)).imp id .inl
  connection := lookup_install_self
  apart same := by
    change (fd : ℤ) = process.sockfd at same
    rw [← same, lookup_natCast, lowest.1] at open_
    cases open_

/-- Children have been forked for earlier connections. -/
theorem Kept.served_lt (kept : Kept state) (there : state.processes who = some process)
    (served : process.served = some conn) : conn < state.connections := by
  by_cases zero : who = 0
  · subst zero
    cases (kept.original process there).served.symm.trans served
  · obtain ⟨_, servedIs, small, _⟩ := kept.children who process zero there
    cases servedIs.symm.trans served
    exact small

/-- A connection arrives while the original process is in `accept`. -/
theorem Kept.connect (kept : Kept state) (there : state.processes 0 = some process)
    (place : process.place = .accepting) :
    Kept { state with
      connections := state.connections + 1
      log := state.log ++ [.accepted 0 state.connections] } where
  positive := kept.positive
  fresh := kept.fresh
  original found foundAt := by
    cases there.symm.trans foundAt
    have original := kept.original process there
    exact { original with forking := fun forking => by cases place.symm.trans forking }
  children other found nonzero foundAt := by
    obtain ⟨conn, served, small, child⟩ := kept.children other found nonzero foundAt
    exact ⟨conn, served, Nat.lt_succ_of_lt small, child⟩
  distinct := kept.distinct
  unserved _ _ _ other found conn foundAt served :=
    Nat.succ_lt_succ (kept.served_lt foundAt served)
  accepts who conn accepted := by
    rcases List.mem_append.mp accepted with earlier | last
    · exact kept.accepts who conn earlier
    · cases List.mem_singleton.mp last
      rfl
  logged conn small := by
    rcases Nat.lt_succ_iff_lt_or_eq.mp small with earlier | rfl
    · exact List.mem_append_left _ (kept.logged conn earlier)
    · exact List.mem_append_right _ List.mem_cons_self
  reads who object read := by
    rcases List.mem_append.mp read with earlier | last
    · exact kept.reads who object earlier
    · cases List.mem_singleton.mp last

theorem Kept.accept (kept : Kept state) (there : state.processes who = some process)
    (place : process.place = .accepting) {fd : ℕ} (lowest : process.table.Lowest fd)
    (open_ : process.table.lookup process.sockfd = some .listening) :
    Kept { state.set who (process.accept state.connections fd) with
      connections := state.connections + 1
      log := state.log ++ [.accepted who state.connections] } := by
  have zero := kept.accepting_zero there place open_
  subst zero
  have original := kept.original process there
  refine (kept.connect there place).set there rfl id ?_ ?_ ?_
  · intro _ _ other found conn foundAt served
    exact Nat.succ_lt_succ (kept.served_lt foundAt served)
  · intro _ _
    exact {
      served := original.served
      before := ⟨nofun, nofun⟩
      accepting := nofun
      forking := fun _ => ⟨state.connections, rfl, original.accept place lowest open_⟩
      closing := nofun }
  · intro conn served
    cases original.served.symm.trans served

/-- `fork` succeeds or fails: the parent goes on to `close(connfd)`. -/
theorem Original.forked (original : Original connections process)
    (place : process.place = .forking) :
    Original connections { process with place := .closing } where
  served := original.served
  before := ⟨nofun, nofun⟩
  accepting := nofun
  forking := nofun
  closing _ := by
    obtain ⟨conn, _, accepted⟩ := original.forking place
    exact ⟨conn, ⟨accepted.entries, accepted.connection, accepted.apart⟩⟩

theorem Kept.forkFails (kept : Kept state) (there : state.processes who = some process)
    (place : process.place = .forking) :
    Kept (state.set who { process with place := .closing }) := by
  have zero := kept.parent_zero there (.inl place)
  subst zero
  refine kept.set there rfl id nofun (fun _ original => original.forked place) ?_
  intro conn served
  cases (kept.original process there).served.symm.trans served

/-- The child has the descriptors of its parent. -/
theorem Original.child (accepted : Accepted conn process) (who : ℕ) :
    (process.child who).served = some conn ∧ Child conn (process.child who) := by
  have served : (process.child who).served = some conn := by
    rw [Process.child, accepted.connection]
  refine ⟨served, ?_⟩
  exact {
    behind := ⟨nofun, nofun⟩
    detaching := fun _ => ⟨accepted.entries, accepted.connection, accepted.apart⟩
    confined := by rintro (there | there) <;> cases there
    serving := nofun
    accepting := nofun }

/-- A new process with a connection of its own. -/
theorem Kept.start (kept : Kept state) (served : process.served = some conn)
    (small : conn < state.connections) (child : Child conn process)
    (only : ∀ other found, state.processes other = some found → found.served ≠ some conn)
    (forked : ∀ server, state.processes 0 = some server → server.place ≠ .forking) :
    Kept { state.set state.started process with started := state.started + 1 } where
  positive := Nat.succ_pos _
  fresh other large := by
    have larger : state.started < other := large
    exact (processes_set_of_ne (Nat.ne_of_gt larger)).trans (kept.fresh other (Nat.le_of_lt larger))
  original found foundAt :=
    kept.original found ((processes_set_of_ne (Nat.ne_of_lt kept.positive)).symm.trans foundAt)
  children other found nonzero foundAt := by
    by_cases same : other = state.started
    · subst same
      cases (processes_set_self ..).symm.trans foundAt
      exact ⟨conn, served, small, child⟩
    · exact kept.children other found nonzero ((processes_set_of_ne same).symm.trans foundAt)
  distinct first second left right other leftAt rightAt leftServed rightServed := by
    by_cases newFirst : first = state.started
    · by_cases newSecond : second = state.started
      · exact newFirst.trans newSecond.symm
      · subst newFirst
        cases (processes_set_self ..).symm.trans leftAt
        cases served.symm.trans leftServed
        exact absurd rightServed
          (only second right ((processes_set_of_ne newSecond).symm.trans rightAt))
    · have leftAt := (processes_set_of_ne newFirst).symm.trans leftAt
      by_cases newSecond : second = state.started
      · subst newSecond
        cases (processes_set_self ..).symm.trans rightAt
        cases served.symm.trans rightServed
        exact absurd leftServed (only first left leftAt)
      · exact kept.distinct first second left right other leftAt
          ((processes_set_of_ne newSecond).symm.trans rightAt) leftServed rightServed
  unserved server serverAt place :=
    absurd place (forked server
      ((processes_set_of_ne (Nat.ne_of_lt kept.positive)).symm.trans serverAt))
  accepts := kept.accepts
  logged := kept.logged
  reads other object read := by
    obtain ⟨found, foundAt, own⟩ := kept.reads other object read
    have different : other ≠ state.started := by
      rintro rfl
      cases (kept.fresh state.started (Nat.le_refl _)).symm.trans foundAt
    exact ⟨found, (processes_set_of_ne different).trans foundAt, own⟩

/-- A child is forked for the last connection, which no other child has. -/
theorem Kept.fork (kept : Kept state) (there : state.processes who = some process)
    (place : process.place = .forking) :
    Kept { (state.set who { process with place := .closing }).set state.started
        (process.child who) with
      started := state.started + 1 } := by
  have zero := kept.parent_zero there (.inl place)
  subst zero
  obtain ⟨conn, last, accepted⟩ := (kept.original process there).forking place
  obtain ⟨served, child⟩ := Original.child accepted 0
  have goesOn : ({ process with place := .closing } : Process).served = process.served := rfl
  refine (kept.forkFails there place).start served ?_ child ?_ ?_
  · exact last ▸ Nat.lt_succ_self conn
  · intro other found foundAt same
    obtain ⟨earlier, earlierAt, earlierServed⟩ := served_of_set there goesOn foundAt same
    have small := kept.unserved process there place other earlier conn earlierAt earlierServed
    omega
  · intro server serverAt
    cases (processes_set_self ..).symm.trans serverAt
    nofun

/-- The parent closes the connection. -/
theorem Kept.close (kept : Kept state) (there : state.processes who = some process)
    (place : process.place = .closing) : Kept (state.set who process.close) := by
  have zero := kept.parent_zero there (.inr place)
  subst zero
  refine kept.set there rfl id nofun ?_ ?_
  · intro _ original
    obtain ⟨conn, accepted⟩ := original.closing place
    exact {
      served := original.served
      before := ⟨nofun, nofun⟩
      accepting := by
        intro _ fd object denotes
        obtain ⟨different, denotes⟩ := of_release_eq_some denotes
        exact (accepted.entries fd object denotes).imp id fun others =>
          others.resolve_right fun last => different last.2
      forking := nofun
      closing := nofun }
  · intro conn served
    cases (kept.original process there).served.symm.trans served

/-- The child closes the listening socket. -/
theorem Child.detach (child : Child conn process) (there : process.place = .detaching) :
    Child conn process.detach := by
  have accepted := child.detaching there
  exact {
    behind := ⟨nofun, nofun⟩
    detaching := nofun
    confined := by
      intro _ fd object denotes
      obtain ⟨different, denotes⟩ := of_release_eq_some denotes
      rcases accepted.entries fd object denotes with standard | listening | connection
      · exact .inl standard
      · exact absurd listening.2 different
      · exact .inr (.inr connection.1)
    serving := by
      intro _ _
      exact ⟨(lookup_release_of_ne accepted.apart).trans accepted.connection,
        lookup_release_self ..⟩
    accepting := nofun }

theorem confined_settle (confined : Confined conn table) :
    Confined conn (settle table call reply) := by
  unfold settle
  split
  · rename_i fd
    intro number object denotes
    by_cases same : number = fd
    · subst same
      cases install_self.symm.trans denotes
      exact .inr (.inl rfl)
    · exact confined number object ((install_of_ne same).symm.trans denotes)
  · intro number object denotes
    exact confined number object (of_release_eq_some denotes).2
  all_goals exact confined

theorem serving_enterOpen (conn_ : table.lookup locals.connfd = some (.connection conn))
    (closed : table.lookup sockfd = none) :
    Serving table sockfd conn (locals.enterOpen home) := by
  unfold Locals.enterOpen
  split
  · exact ⟨conn_, closed⟩
  · trivial

theorem serving_takeByte (conn_ : table.lookup locals.connfd = some (.connection conn))
    (closed : table.lookup sockfd = none) (j : ℕ) (byte : Byte) :
    Serving table sockfd conn (locals.takeByte home j byte) := by
  unfold Locals.takeByte
  split
  · split
    · exact serving_enterOpen conn_ closed
    · exact ⟨conn_, closed⟩
  · trivial

/-- The number that `open` hands out may be that of the listening socket, which has been
closed; it is closed again with the file. -/
theorem Serving.resume (serving : Serving table sockfd conn locals)
    (issued : request locals = some call) (permitted : Returns table call reply) :
    Serving (settle table call reply) sockfd conn
      (resume FileTransfer.pserver home locals reply) := by
  cases pc : locals.pc with
  | header j =>
      simp only [Serving, request, pc, Option.some.injEq] at serving issued
      subst issued
      simp only [FileTransfer.resume, pc, settle]
      split
      · exact serving_takeByte serving.1 serving.2 ..
      · exact serving_enterOpen serving.1 serving.2
      all_goals trivial
  | openFile =>
      simp only [Serving, request, pc, Option.some.injEq] at serving issued
      subst issued
      cases reply with
      | failed =>
          simp only [FileTransfer.resume, pc, settle]
          exact serving
      | data bytes => exact permitted.elim
      | value fd =>
          have unused : table.lookup (fd : ℤ) = none := (lookup_natCast ..).trans permitted.1
          have other : locals.connfd ≠ fd := by
            intro same
            rw [same, unused] at serving
            cases serving.1
          simp only [FileTransfer.resume, pc, settle]
          refine ⟨(lookup_install_of_ne other).trans serving.1, lookup_install_self, ?_⟩
          by_cases reused : sockfd = fd
          · exact .inl reused
          · exact .inr ((lookup_install_of_ne reused).trans serving.2)
  | refused =>
      simp only [Serving, request, pc, Option.some.injEq] at serving issued
      subst issued
      simp only [FileTransfer.resume, pc, settle]
      exact lookup_release_eq_none serving.2 _
  | block =>
      simp only [Serving, request, pc, Option.some.injEq] at serving issued
      subst issued
      cases reply with
      | failed =>
          simp only [FileTransfer.resume, pc, settle]
          trivial
      | value fd => exact permitted.elim
      | data bytes =>
          simp only [FileTransfer.resume, pc, settle]
          cases bytes with
          | nil => exact serving
          | cons byte bytes => exact serving
  | writing n =>
      simp only [Serving, request, pc, Option.some.injEq] at serving issued
      subst issued
      simp only [FileTransfer.resume, pc, settle]
      split
      · exact serving
      · trivial
  | closeFile =>
      simp only [Serving, request, pc, Option.some.injEq] at serving issued
      subst issued
      have other : locals.connfd ≠ locals.fd := by
        intro same
        rw [same] at serving
        cases serving.1.symm.trans serving.2.1
      simp only [FileTransfer.resume, pc, settle]
      refine ⟨(lookup_release_of_ne other).trans serving.1, ?_⟩
      rcases serving.2.2 with reused | closed
      · rw [reused]
        exact lookup_release_self ..
      · exact lookup_release_eq_none closed _
  | closeConn =>
      simp only [Serving, request, pc, Option.some.injEq] at serving issued
      subst issued
      simp only [FileTransfer.resume, pc, settle]
      exact lookup_release_eq_none serving.2 _
  | closeAgain =>
      simp only [Serving, request, pc, Option.some.injEq] at serving issued
      subst issued
      simp only [FileTransfer.resume, pc, settle]
      exact lookup_release_eq_none serving _
  | done | exited | undefined =>
      simp only [request, pc] at issued
      cases issued

/-- Where the branch of the child can lead. -/
theorem placeAt_cases (pc : At) :
    placeAt pc = .copying ∨ placeAt pc = .accepting ∧ pc = .done ∨ placeAt pc = .ended := by
  cases pc with
  | done => exact .inr (.inl ⟨rfl, rfl⟩)
  | exited => exact .inr (.inr rfl)
  | header | openFile | refused | block | writing | closeFile | closeConn | closeAgain
  | undefined =>
      exact .inl rfl

/-- A process in the branch of the child, or behind it. -/
theorem Child.of_placeAt (place : process.place = placeAt process.locals.pc)
    (confined : Confined conn process.table)
    (serving : process.overrun = false →
      Serving process.table process.sockfd conn process.locals) : Child conn process where
  behind := by
    rw [place]
    rcases placeAt_cases process.locals.pc with there | there | there
    · rw [there]; exact ⟨nofun, nofun⟩
    · rw [there.1]; exact ⟨nofun, nofun⟩
    · rw [there]; exact ⟨nofun, nofun⟩
  detaching detaching := by
    rcases placeAt_cases process.locals.pc with there | there | there
    · cases detaching.symm.trans (place.trans there)
    · cases detaching.symm.trans (place.trans there.1)
    · cases detaching.symm.trans (place.trans there)
  confined _ := confined
  serving sound _ := serving sound
  accepting sound accepting := by
    have served := serving sound
    rcases placeAt_cases process.locals.pc with there | there | there
    · cases accepting.symm.trans (place.trans there)
    · simp only [Serving, there.2] at served
      exact served
    · cases accepting.symm.trans (place.trans there)

/-- What a child reads from. -/
theorem Child.reads (child : Child conn process) (there : process.place = .copying)
    (served : process.served = some conn) {fd : ℤ} {count : ℕ}
    (issued : request process.locals = some (.read fd count)) :
    ReadsOwn process (process.table.lookup fd) := by
  refine ⟨conn, served, ?_⟩
  cases sound : process.overrun with
  | true =>
      by_cases own : process.table.lookup fd = some (.connection conn)
      · exact .inl own
      · refine .inr ⟨rfl, fun other denotes => ?_⟩
        rcases lookup_of_confined (child.confined (.inl there)) _ denotes with same | same | same
        · cases same
        · cases same
        · cases same
          exact own denotes
  | false =>
      have serving := child.serving sound there
      cases pc : process.locals.pc with
      | header | block =>
          simp only [Serving, request, pc, Option.some.injEq] at serving issued
          cases issued
          exact .inl serving.1
      | openFile | refused | writing | closeFile | closeConn | closeAgain | done | exited |
          undefined =>
          simp only [request, pc] at issued
          cases issued

/-- What a child reads is added to the log. -/
theorem Kept.read (kept : Kept state) (there : state.processes who = some process)
    (place : process.place = .copying) (issued : request process.locals = some call) :
    Kept { state with log := state.log ++ reading who process.table call } := by
  obtain ⟨conn, served, _, child⟩ :=
    kept.children who process (kept.child_nonzero there (.inr place)) there
  have logs : ∀ event ∈ reading who process.table call, ∃ fd count,
      call = .read fd count ∧ event = .read who (process.table.lookup fd) := by
    intro event logged
    cases call with
    | read fd count => exact ⟨fd, count, rfl, List.mem_singleton.mp logged⟩
    | write | create | close => cases logged
  exact { kept with
    accepts := by
      intro other number accepted
      rcases List.mem_append.mp accepted with earlier | last
      · exact kept.accepts other number earlier
      · obtain ⟨_, _, _, same⟩ := logs _ last
        cases same
    logged := fun number small => List.mem_append_left _ (kept.logged number small)
    reads := by
      intro other object read
      rcases List.mem_append.mp read with earlier | last
      · exact kept.reads other object earlier
      · obtain ⟨fd, count, rfl, same⟩ := logs _ last
        cases same
        exact ⟨process, there, child.reads place served issued⟩ }

/-- A system call in the branch of the child. -/
theorem Kept.resume (kept : Kept state) (there : state.processes who = some process)
    (place : process.place = .copying) (issued : request process.locals = some call)
    (permitted : Returns process.table call reply) :
    Kept (state.set who (process.resume home call reply)) := by
  have nonzero := kept.child_nonzero there (.inr place)
  refine kept.set there rfl id (fun zero => absurd zero nonzero) (fun zero => absurd zero nonzero)
    fun conn _ child => .of_placeAt rfl ?_ ?_
  · exact confined_settle (child.confined (.inl place))
  · exact fun sound => (child.serving sound place).resume issued permitted

/-- After an access outside its buffers a child can still not reach the listening socket. -/
theorem Kept.wander (kept : Kept state) (there : state.processes who = some process)
    (place : process.place = .copying) (sockfd : ℤ) (locals : Locals) :
    Kept (state.set who (process.wander sockfd locals)) := by
  have nonzero := kept.child_nonzero there (.inr place)
  exact kept.set there rfl (fun _ => rfl) (fun zero => absurd zero nonzero)
    (fun zero => absurd zero nonzero)
    fun conn _ child => .of_placeAt rfl (child.confined (.inl place)) nofun

theorem Kept.detach (kept : Kept state) (there : state.processes who = some process)
    (place : process.place = .detaching) : Kept (state.set who process.detach) := by
  have nonzero := kept.child_nonzero there (.inl place)
  exact kept.set there rfl id (fun zero => absurd zero nonzero) (fun zero => absurd zero nonzero)
    fun conn _ child => child.detach place

theorem kept_next {after : State} {action : Action} (kept : Kept state)
    (moved : next home state action = some after) : Kept after := by
  cases moves_of_next moved with
  | accept there place _ open_ lowest => exact kept.accept there place lowest open_
  | interrupted => exact kept
  | acceptFails there _ _ => exact kept.end there ⟨rfl, rfl, rfl, rfl, rfl, .inr rfl⟩
  | fork there place _ => exact kept.fork there place
  | forkFails there place _ => exact kept.forkFails there place
  | detach there place _ => exact kept.detach there place
  | call there place _ issued permitted =>
      exact ((kept.read there place issued).resume there place issued permitted).reap _
  | @overrun _ _ sockfd locals there place _ _ =>
      exact (kept.wander there place sockfd locals).reap _
  | close there place _ => exact kept.close there place
  | kill there _ => exact kept.end there ⟨rfl, rfl, rfl, rfl, rfl, .inr rfl⟩
  | @notify who => exact kept.signal who
  | @wait who child process ended there alive _ childAt zombie =>
      obtain ⟨_, endedAt, _, isEnded, _⟩ := zombie
      have different : who ≠ child := by
        rintro rfl
        cases there.symm.trans endedAt
        exact alive isEnded
      have taken : Kept (state.set child { ended with waited := ended.waited + 1 }) :=
        kept.keep childAt ⟨rfl, rfl, rfl, rfl, rfl, .inl rfl⟩
      exact taken.keep ((processes_set_of_ne different).trans there)
        ⟨rfl, rfl, rfl, rfl, rfl, .inl rfl⟩
  | deliver there _ _ _ | waitNone there _ _ _ | report there _ _ | return_ there _ _ =>
      exact kept.keep there ⟨rfl, rfl, rfl, rfl, rfl, .inl rfl⟩

theorem kept_invariant (home : List Byte) : (forkingServer home).Invariant Kept where
  initial := by
    rintro _ ⟨inherited, sockfd, locals, standard, _, rfl⟩
    have only : ∀ who process, (listening (original inherited sockfd locals)).processes who =
        some process → who = 0 ∧ process = original inherited sockfd locals := by
      intro who process there
      rw [listening, Option.ite_none_right_eq_some, Option.some.injEq] at there
      exact ⟨there.1, there.2.symm⟩
    exact {
      positive := Nat.one_pos
      fresh := fun who large => if_neg (Nat.ne_of_gt large)
      original := by
        intro process there
        cases (only 0 process there).2
        exact {
          served := rfl
          before := ⟨nofun, nofun⟩
          accepting := by
            intro _ fd object denotes
            by_cases same : fd = sockfd
            · subst same
              cases install_self.symm.trans denotes
              exact .inr ⟨rfl, rfl⟩
            · exact .inl (standard fd object ((install_of_ne same).symm.trans denotes))
          forking := nofun
          closing := nofun }
      children := fun who process nonzero there => absurd (only who process there).1 nonzero
      distinct := by
        intro first second left right _ leftAt rightAt _ _
        exact (only first left leftAt).1.trans (only second right rightAt).1.symm
      unserved := by
        intro process there forking
        cases (only 0 process there).2
        cases forking
      accepts := fun _ _ accepted => absurd accepted List.not_mem_nil
      logged := fun _ small => absurd small (Nat.not_lt_zero _)
      reads := fun _ _ read => absurd read List.not_mem_nil }
  step _ _ _ kept moved := kept_next kept moved

theorem Kept.separate (kept : Kept state) : Separate state where
  accepts := kept.accepts
  refused who process nonzero there place := by
    obtain ⟨conn, _, _, child⟩ := kept.children who process nonzero there
    exact ⟨child.refused place, fun sound => child.accepting sound place⟩
  served who process nonzero there := by
    obtain ⟨conn, served, small, _⟩ := kept.children who process nonzero there
    exact ⟨conn, served, kept.logged conn small⟩
  distinct := kept.distinct
  reads := kept.reads

/-- In every run, whatever the calls return and whatever the order of the processes, only the
original process accepts, and every child serves the one connection for which it has been
forked. -/
theorem separate_of_reachable (reached : (forkingServer home).Reachable state) : Separate state :=
  ((kept_invariant home).reachable reached).separate

/-- A child receives an empty file, whose descriptor has the number of the listening socket,
and calls `accept` again. -/
def emptyFile : List Action :=
  [.accept 0 4, .fork 0, .close 0, .detach 1, .call 1 (.data [97]), .call 1 (.data [10]),
    .call 1 (.value 3), .call 1 (.data []), .call 1 (.value 0), .call 1 (.value 0),
    .call 1 .failed]

theorem separate_of_emptyFile : ∃ state : State,
    run (guarded (fun _ _ => True) (next [47])) (listening (original streams 3 blank)) emptyFile =
      some state ∧ Separate state := by
  have executed : (run (guarded (fun _ _ => True) (next [47]))
      (listening (original streams 3 blank)) emptyFile).isSome = true := by
    decide +kernel
  obtain ⟨state, executed⟩ := Option.isSome_iff_exists.mp executed
  have reached : ((forkingServer [47]).restrict fun _ _ => True).Reachable state :=
    .of_run (.initial ⟨streams, 3, blank, streams_standard, by decide, rfl⟩) executed
  exact ⟨state, executed, separate_of_reachable reached.of_restrict⟩

end LinuxUnix.ForkingServer

import LinuxUnix.Foundation.LineInput
import LinuxUnix.Foundation.Paths
import LinuxUnix.Network.FileTransferDelivery

/-! # Where the file servers write

The three servers put the bytes before the newline behind `$HOME/tmp/`, whatever they are;
`client2` sends only what stands behind the last slash of a file name, but another client can
send `..`. Which names lead to a file below the directory is decided by
`LinuxUnix.FileTransfer.confined_iff`.
-/

namespace LinuxUnix.FileTransfer

open CMemory DescriptorTable Paths

/-- `$HOME/tmp` -/
def dropDir (home : List Byte) : List Byte :=
  home ++ ['/'.toUInt8, 't'.toUInt8, 'm'.toUInt8, 'p'.toUInt8]

/-- However far a transfer gets, there has been no access outside the buffers, and a path that is
handed to `open` leads to a file strictly inside `$HOME/tmp`. -/
def Confined (server : Server) (home : List Byte) (working : List (List Byte)) (locals : Locals)
    (connection : Connection) (opens : List Byte → Bool) : Prop :=
  ∀ state, Reaches (tick server home)
      (locals.begin connection.connfd, connection.accepted opens) state →
    state.1.pc ≠ .undefined ∧ ∀ path, request state.1 = some (.create path) →
      StrictlyInside (locate working (dropDir home)) (locate working path)

/-- What `puffer` holds after the name loop, if the loop stays inside. -/
def received (puffer bytes : List Byte) : Option (List Byte) :=
  if 10 ∈ bytes then
    if (bytes.takeWhile (· != 10)).length < maxZeichen then
      some (overwrite puffer 0 (bytes.takeWhile (· != 10) ++ [0]))
    else none
  else if bytes.length ≤ maxZeichen then some (overwrite puffer 0 bytes)
  else none

/-- The name in `puffer` goes no step up, or comes back the same way, and goes on from there. -/
def LeadsBelow (directory : List (List Byte)) (name : List Byte) : Prop :=
  (normal (components name)).lost directory <+: (normal (components name)).names ∧
    (normal (components name)).lost directory ≠ (normal (components name)).names

instance (directory : List (List Byte)) (name : List Byte) :
    Decidable (LeadsBelow directory name) :=
  inferInstanceAs (Decidable (_ ∧ _))

/-- The bytes received fit the buffers, and the name leads below the directory. -/
def Harmless (home : List Byte) (working : List (List Byte)) (puffer bytes : List Byte) : Prop :=
  ∃ stored ∈ received puffer bytes, pathOf home stored ≠ none ∧
    LeadsBelow (locate working (dropDir home)) (cstr stored)

/-- Behind `open`. -/
def Later : At → Prop
  | .header _ | .openFile | .undefined => False
  | .refused | .block | .writing _ | .closeFile | .closeConn | .closeAgain | .done | .exited => True

variable {server : Server} {home : List Byte} {working : List (List Byte)} {locals : Locals}
  {kernel : Kernel} {connection : Connection} {opens : List Byte → Bool} {stored : List Byte}

theorem received_run (home : List Byte)
    (stores : received locals.puffer kernel.stream = some stored)
    (pc : locals.pc = .header 0) (size : locals.puffer.length = maxZeichen)
    (conn : kernel.table.lookup locals.connfd = some .connection) :
    ∃ kernel', Reaches (tick server home) (locals, kernel)
      ({ locals with puffer := stored }.enterOpen home, kernel') := by
  unfold received at stores
  split at stores
  next newline =>
    obtain ⟨name, content, sent, clean⟩ := List.eq_append_cons_of_mem newline
    have taken : kernel.stream.takeWhile (· != 10) = name :=
      sent ▸ LineInput.takeWhile_line clean content
    rw [taken, Option.ite_none_right_eq_some, Option.some.injEq] at stores
    obtain ⟨short, rfl⟩ := stores
    exact ⟨_, name_run server home clean short pc size conn sent⟩
  next cut =>
    rw [Option.ite_none_right_eq_some, Option.some.injEq] at stores
    obtain ⟨short, rfl⟩ := stores
    exact ⟨_, cut_run server home cut short pc size conn rfl⟩

theorem undefined_of_received (home : List Byte)
    (long : received locals.puffer kernel.stream = none) (pc : locals.pc = .header 0)
    (size : locals.puffer.length = maxZeichen)
    (conn : kernel.table.lookup locals.connfd = some .connection) :
    ∃ final, Reaches (tick server home) (locals, kernel) final ∧ final.1.pc = .undefined := by
  have tooLong : maxZeichen < kernel.stream.length ∧ 10 ∉ kernel.stream.take maxZeichen := by
    unfold received at long
    split at long
    next newline =>
      obtain ⟨name, content, sent, clean⟩ := List.eq_append_cons_of_mem newline
      have taken : kernel.stream.takeWhile (· != 10) = name :=
        sent ▸ LineInput.takeWhile_line clean content
      rw [taken] at long
      have beyond : maxZeichen ≤ name.length :=
        Nat.le_of_not_lt fun short => by rw [if_pos short] at long; cases long
      rw [sent, List.length_append, List.length_cons, List.take_append_of_le_length beyond]
      exact ⟨by omega, fun member => clean (List.mem_of_mem_take member)⟩
    next cut =>
      refine ⟨Nat.lt_of_not_le fun short => ?_, fun member => cut (List.mem_of_mem_take member)⟩
      rw [if_pos short] at long
      cases long
  have sent : kernel.stream = kernel.stream.take maxZeichen ++
      kernel.stream[maxZeichen] :: kernel.stream.drop (maxZeichen + 1) := by
    rw [← List.drop_eq_getElem_cons, List.take_append_drop]
  exact overflow_run server home tooLong.2 (List.length_take_of_le tooLong.1.le) pc size conn sent

/-- Behind `open` there is no other `open`, and no access outside the buffers. -/
theorem later_resume (known : server ∈ [server2, pserver, threadingSocket])
    (later : locals.pc = .openFile ∨ Later locals.pc) (reply : Reply) :
    Later (resume server home locals reply).pc := by
  have ends : Later server.afterRefused ∧ Later server.afterClose := by
    simp only [List.mem_cons, List.not_mem_nil, or_false] at known
    rcases known with rfl | rfl | rfl <;> exact ⟨trivial, trivial⟩
  cases pc : locals.pc with
  | header _ | undefined =>
      rw [pc] at later
      rcases later with same | absurd_
      · cases same
      · exact absurd_.elim
  | openFile =>
      simp only [resume, pc]
      cases reply <;> exact trivial
  | refused =>
      simp only [resume, pc]
      exact ends.1
  | block =>
      simp only [resume, pc]
      split <;> exact trivial
  | writing _ =>
      simp only [resume, pc]
      split <;> exact trivial
  | closeConn =>
      simp only [resume, pc]
      exact ends.2
  | closeFile | closeAgain | done | exited =>
      simp only [resume, pc, Later]

theorem later_tick (known : server ∈ [server2, pserver, threadingSocket])
    (state : Locals × Kernel) (later : state.1.pc = .openFile ∨ Later state.1.pc) :
    Later (tick server home state).1.pc := by
  rw [tick]
  split
  next => exact later_resume known later _
  next stopped =>
    refine later.resolve_left fun opening => ?_
    rw [request, opening] at stopped
    cases stopped

/-- Behind `open` no path is handed to `open`. -/
theorem Later.safe {state : Locals × Kernel} (later : Later state.1.pc) :
    state.1.pc ≠ .undefined ∧ ∀ path, request state.1 ≠ some (.create path) := by
  constructor
  · intro undefined
    rw [undefined] at later
    exact later
  · intro path opening
    rw [request] at opening
    cases pc : state.1.pc <;> rw [pc] at later opening
    case header => exact later
    case openFile => exact later
    all_goals cases opening

/-- A run that comes to `open` hands one path to `open`, and accesses nothing outside the
buffers. -/
theorem safe_of_opening (known : server ∈ [server2, pserver, threadingSocket])
    {start opening state : Locals × Kernel} (opens : Reaches (tick server home) start opening)
    (pc : opening.1.pc = .openFile) (reached : Reaches (tick server home) start state) :
    state.1.pc ≠ .undefined ∧
      ∀ path, request state.1 = some (.create path) → path = opening.1.pathFile := by
  have behind : ∀ {first second : Locals × Kernel}, first.1.pc = .openFile →
      Reaches (tick server home) first second → first = second ∨ Later second.1.pc := by
    intro first second opening run
    rcases run.cases_head with same | rest
    · exact .inl same
    · exact .inr (rest.preserves (fun state => Later state.1.pc)
        (fun state later => later_tick known state (.inr later))
        (later_tick known _ (.inl opening)))
  rcases opens.linear reached with after | before
  · rcases behind pc after with rfl | later
    · refine ⟨by rw [pc]; nofun, fun path opening => ?_⟩
      rw [request, pc, Option.some.injEq, Request.create.injEq] at opening
      exact opening.symm
    · exact ⟨later.safe.1, fun path opening => absurd opening (later.safe.2 path)⟩
  · have stopped : request state.1 ≠ none := by
      intro none_
      have fixed : state = opening := by
        refine (before.preserves (fun other => other = state) ?_ rfl).symm
        rintro _ rfl
        rw [tick, none_]
      rw [fixed, request, pc] at none_
      cases none_
    constructor
    · intro undefined
      rw [request, undefined] at stopped
      exact stopped rfl
    · intro path creates
      have there : state.1.pc = .openFile := by
        rw [request] at creates
        cases pc : state.1.pc <;> rw [pc] at creates <;> first | rfl | cases creates
      rcases behind there before with rfl | later
      · rw [request, there, Option.some.injEq, Request.create.injEq] at creates
        exact creates.symm
      · rw [pc] at later
        exact later.elim

theorem locate_pathOf (home : List Byte) (working : List (List Byte)) (name : List Byte) :
    locate working (home ++ tmpDir ++ name) =
      walk (locate working (dropDir home)) (components name) := by
  have split : home ++ tmpDir ++ name = dropDir home ++ '/'.toUInt8 :: name := by
    rw [dropDir, List.append_assoc, List.append_assoc]
    rfl
  have nonempty : dropDir home ≠ [] := List.append_ne_nil_of_right_ne_nil _ (List.cons_ne_nil _ _)
  rw [split, locate_append working nonempty]

/-- A transfer comes to `open` with the path that is made of the bytes received, or leaves the
buffers. -/
theorem run_of_received (server : Server) (home : List Byte) (connection : Connection)
    (opens : List Byte → Bool) (size : locals.puffer.length = maxZeichen) :
    match (received locals.puffer connection.bytes).bind (pathOf home) with
    | none => ∃ final, Reaches (tick server home)
        (locals.begin connection.connfd, connection.accepted opens) final ∧
          final.1.pc = .undefined
    | some file => ∃ opening, Reaches (tick server home)
        (locals.begin connection.connfd, connection.accepted opens) opening ∧
          opening.1.pc = .openFile ∧ opening.1.pathFile = file := by
  cases stores : received locals.puffer connection.bytes with
  | none =>
      exact @undefined_of_received server (locals.begin connection.connfd)
        (connection.accepted opens) home stores rfl size lookup_install_self
  | some stored =>
      obtain ⟨kernel, run⟩ := @received_run server (locals.begin connection.connfd)
        (connection.accepted opens) stored home stores rfl size lookup_install_self
      rw [Locals.enterOpen] at run
      rw [Option.bind_some]
      cases path : pathOf home stored with
      | none =>
          rw [path] at run
          exact ⟨_, run, rfl⟩
      | some file =>
          rw [path] at run
          exact ⟨_, run, rfl, rfl⟩

/-- All three servers write only below `$HOME/tmp` exactly if the bytes received fit the buffers
and the name leads below. -/
theorem confined_iff (known : server ∈ [server2, pserver, threadingSocket])
    (size : locals.puffer.length = maxZeichen) :
    Confined server home working locals connection opens ↔
      Harmless home working locals.puffer connection.bytes := by
  have outcome := run_of_received server home connection opens size
  cases made : (received locals.puffer connection.bytes).bind (pathOf home) with
  | none =>
      rw [made] at outcome
      obtain ⟨final, run, undefined⟩ := outcome
      constructor
      · exact fun confined => absurd undefined (confined final run).1
      · rintro ⟨stored, stores, path, _⟩
        rw [Option.mem_def.mp stores, Option.bind_some] at made
        exact absurd made path
  | some file =>
      rw [made] at outcome
      obtain ⟨opening, run, pc, isFile⟩ := outcome
      obtain ⟨stored, stores, path⟩ := Option.bind_eq_some_iff.mp made
      have same : file = home ++ tmpDir ++ cstr stored := by
        rw [pathOf, Option.ite_none_right_eq_some] at path
        exact (Option.some.inj path.2).symm
      have harmless : Harmless home working locals.puffer connection.bytes ↔
          StrictlyInside (locate working (dropDir home)) (locate working file) := by
        rw [same, locate_pathOf, strictlyInside_iff, Harmless, stores]
        constructor
        · rintro ⟨_, inside, _, below⟩
          cases inside
          exact below
        · exact fun below => ⟨stored, rfl, by rw [path]; exact Option.some_ne_none file, below⟩
      rw [harmless]
      constructor
      · intro confined
        apply (confined opening run).2
        rw [request, pc]
        exact congrArg (fun path => some (Request.create path)) isFile
      · intro inside state reached
        obtain ⟨defined, only⟩ := safe_of_opening known run pc reached
        exact ⟨defined, fun path creates => by rwa [only path creates, isFile]⟩

/-- The client that stores a file named `a` keeps to the directory. -/
theorem confined_upload : Confined threadingSocket [47] [] blank upload (fun _ => true) :=
  (confined_iff (by simp) List.length_replicate).mpr
    ⟨overwrite blank.puffer 0 [97, 0], rfl, by decide, by decide⟩

/-- A client that sends `../x` as a name. -/
def climbing : Connection :=
  { upload with bytes := [46, 46, 47, 120, 10] }

/-- The file is created beside the directory. -/
theorem not_confined_of_climbing :
    ¬ ∀ (server : Server) (home : List Byte) (working : List (List Byte)) (locals : Locals)
      (connection : Connection) (opens : List Byte → Bool),
      server ∈ [server2, pserver, threadingSocket] → locals.puffer.length = maxZeichen →
        Confined server home working locals connection opens := by
  intro confined
  have run := confined server2 [47, 104] [] blank climbing (fun _ => true) (by simp)
    List.length_replicate _ ⟨5, rfl⟩
  have creates : request ((tick server2 [47, 104])^[5]
      (blank.begin climbing.connfd, climbing.accepted fun _ => true)).1 =
        some (.create [47, 104, 47, 116, 109, 112, 47, 46, 46, 47, 120]) := by
    decide +kernel
  have inside := (run.2 _ creates).1
  revert inside
  decide +kernel

end LinuxUnix.FileTransfer

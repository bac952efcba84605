import LinuxUnix.Network.FileTransferDelivery

/-! # Earlier connections of the iterative server

`server2` keeps `puffer` from one connection to the next. Whether an earlier
connection shows in what a later one does depends on the later one alone: it does
not if the connection sends a complete name line that fits the buffers, and it may
in every other case (`LinuxUnix.FileTransfer.independent_iff_completeName`).
-/

namespace LinuxUnix.FileTransfer

open CMemory DescriptorTable

/-- Serving a connection, from what the variables hold, ends with these changes to
the file system. -/
def Serves (home : List Byte) (locals : Locals) (connection : Connection)
    (opens : List Byte → Bool) (after : Locals) (effects : List Effect) : Prop :=
  ∃ kernel, Reaches (tick server2 home)
      (locals.begin connection.connfd, connection.accepted opens) (after, kernel) ∧
    after.pc = .done ∧ kernel.effects = effects

/-- What the variables of `server2` can hold after it has served connections one
after the other; `puffer` is not initialised. -/
inductive After (home : List Byte) : List Connection → Locals → Prop
  | start {locals : Locals} (size : locals.puffer.length = maxZeichen) : After home [] locals
  | serve {history : List Connection} {before after : Locals} {connection : Connection}
      {opens : List Byte → Bool} {effects : List Effect} (earlier : After home history before)
      (served : Serves home before connection opens after effects) :
      After home (history ++ [connection]) after

/-- After any two histories a connection is served with the same changes to the
file system; without a newline it creates or truncates no file. -/
def Independent (home : List Byte) (connection : Connection) : Prop :=
  ∀ opens first second before other, After home first before → After home second other →
    ∃ effects, (∃ after, Serves home before connection opens after effects) ∧
      (∃ after, Serves home other connection opens after effects) ∧
      (10 ∉ connection.bytes → ∀ path, .create path ∉ effects)

/-- The connection sends a name line, and the name and the path fit the buffers. -/
def CompleteName (home : List Byte) (connection : Connection) : Prop :=
  ∃ name content, connection.bytes = name ++ 10 :: content ∧ 10 ∉ name ∧
    name.length < maxZeichen ∧ (home ++ tmpDir ++ cstr name).length < maxZeichen

variable {home : List Byte} {locals : Locals} {connection : Connection}
  {opens : List Byte → Bool}

theorem tick_stopped {server : Server} {state : Locals × Kernel}
    (stopped : request state.1 = none) : tick server home state = state := by
  rw [tick, stopped]

theorem puffer_enterOpen (locals : Locals) :
    (locals.enterOpen home).puffer = locals.puffer := by
  rw [Locals.enterOpen]
  split <;> rfl

theorem length_puffer_takeByte (locals : Locals) (j : ℕ) (byte : Byte) :
    (locals.takeByte home j byte).puffer.length = locals.puffer.length := by
  unfold Locals.takeByte
  split
  · split
    · rw [puffer_enterOpen, List.length_set]
    · exact List.length_set
  · rfl

/-- A block that fits `puffer` leaves its length unchanged. -/
theorem length_puffer_resume {server : Server} {reply : Reply}
    (fits : ∀ bytes, reply = .data bytes → locals.pc = .block →
      bytes.length ≤ locals.puffer.length) :
    (resume server home locals reply).puffer.length = locals.puffer.length := by
  unfold resume
  split
  case h_1 =>
    split
    · exact length_puffer_takeByte ..
    · rw [puffer_enterOpen]
    all_goals rfl
  case h_3 =>
    split
    · rfl
    · exact length_overwrite (by rw [Nat.zero_add]; exact fits _ rfl ‹_›)
    all_goals rfl
  all_goals first | rfl | (split <;> rfl)

/-- No system call changes the length of `puffer`. -/
theorem length_puffer_tick {server : Server} (state : Locals × Kernel)
    (size : state.1.puffer.length = maxZeichen) :
    (tick server home state).1.puffer.length = maxZeichen := by
  rw [tick]
  split
  case h_2 => exact size
  case h_1 call issued =>
    refine (length_puffer_resume ?_).trans size
    intro bytes replied pc
    rw [request, pc, Option.some.injEq] at issued
    subst issued
    simp only [Kernel.answer] at replied
    split at replied
    · cases replied
      rw [size, List.length_take, pieceSize]
      omega
    all_goals cases replied

theorem After.length_puffer {history : List Connection} (earlier : After home history locals) :
    locals.puffer.length = maxZeichen := by
  induction earlier with
  | start size => exact size
  | serve _ served ih =>
      obtain ⟨kernel, run, _⟩ := served
      exact run.preserves (fun state => state.1.puffer.length = maxZeichen) length_puffer_tick ih

/-- A run of the server that ends is an instance of serving. -/
theorem serves_of_done (count : ℕ)
    (done : ((tick server2 home)^[count] (locals.begin connection.connfd,
      connection.accepted opens)).1.pc = .done) :
    Serves home locals connection opens
      ((tick server2 home)^[count] (locals.begin connection.connfd, connection.accepted opens)).1
      ((tick server2 home)^[count]
        (locals.begin connection.connfd, connection.accepted opens)).2.effects :=
  ⟨_, ⟨count, rfl⟩, done, rfl⟩

/-- Serving a connection has one outcome. -/
theorem Serves.unique {first second : Locals} {effects others : List Effect}
    (left : Serves home locals connection opens first effects)
    (right : Serves home locals connection opens second others) : effects = others := by
  obtain ⟨_, leftRun, leftDone, rfl⟩ := left
  obtain ⟨_, rightRun, rightDone, rfl⟩ := right
  have same := leftRun.eq_of_fixed rightRun (tick_stopped (by rw [request, leftDone]))
    (tick_stopped (by rw [request, rightDone]))
  exact congrArg (fun state => state.2.effects) same

/-- A connection that leads to an access outside the buffers is not served. -/
theorem Serves.not_undefined {after : Locals} {effects : List Effect}
    (serves : Serves home locals connection opens after effects) {final : Locals × Kernel}
    (run : Reaches (tick server2 home)
      (locals.begin connection.connfd, connection.accepted opens) final) :
    final.1.pc ≠ .undefined := by
  intro undefined
  obtain ⟨_, served, done, _⟩ := serves
  have same := served.eq_of_fixed run (tick_stopped (by rw [request, done]))
    (tick_stopped (by rw [request, undefined]))
  rw [← same, done] at undefined
  cases undefined

/-- A file that cannot be opened leaves `server2` with the next connection to
accept, and no file changed. -/
theorem refused_run {kernel : Kernel} (pc : locals.pc = .openFile)
    (refused : kernel.opens locals.pathFile = false) :
    ∃ final, Reaches (tick server2 home) (locals, kernel) final ∧ final.1.pc = .done ∧
      final.2.effects = kernel.effects :=
  ⟨_, .head (tick_open_failed pc refused) (.head rfl (.refl _)), rfl, effects_close _ _⟩

/-- What a complete name line does is determined by the connection. -/
theorem serves_of_completeName {name content : List Byte}
    (sent : connection.bytes = name ++ 10 :: content) (clean : 10 ∉ name)
    (short : name.length < maxZeichen) (fits : (home ++ tmpDir ++ cstr name).length < maxZeichen) :
    ∃ effects, ∀ locals : Locals, locals.puffer.length = maxZeichen →
      ∃ after, Serves home locals connection opens after effects := by
  by_cases opened : opens (home ++ tmpDir ++ cstr name) = true
  · refine ⟨.create (home ++ tmpDir ++ cstr name) ::
      (pieces maxZeichen (later^[name.length + 1] connection.deliver) content).map
        (.write (home ++ tmpDir ++ cstr name)), ?_⟩
    intro locals size
    obtain ⟨final, run, done, effects⟩ :=
      transfer_run server2 home clean short fits opened (.inl rfl) size sent
    exact ⟨final.1, final.2, run, done, effects⟩
  · refine ⟨[], ?_⟩
    intro locals size
    have named := @name_run server2 home (locals.begin connection.connfd)
      (connection.accepted opens) name content clean short rfl size lookup_install_self sent
    rw [Locals.enterOpen, pathOf_overwrite home fits] at named
    obtain ⟨final, rest, done, effects⟩ := @refused_run home
      { locals.begin connection.connfd with
        puffer := overwrite locals.puffer 0 (name ++ [0])
        pathFile := home ++ tmpDir ++ cstr name
        pc := .openFile }
      { connection.accepted opens with
        stream := content
        deliver := later^[name.length + 1] connection.deliver }
      rfl (Bool.eq_false_iff.mpr opened)
    exact ⟨final.1, final.2, named.trans rest, done, effects⟩

/-- A first line that is longer than `puffer` is not served. -/
theorem not_serves_of_long {after : Locals} {effects : List Effect}
    (clean : 10 ∉ connection.bytes.take maxZeichen) (long : maxZeichen < connection.bytes.length)
    (size : locals.puffer.length = maxZeichen) :
    ¬ Serves home locals connection opens after effects := by
  intro serves
  have sent : connection.bytes = connection.bytes.take maxZeichen ++
      connection.bytes[maxZeichen] :: connection.bytes.drop (maxZeichen + 1) := by
    rw [← List.drop_eq_getElem_cons, List.take_append_drop]
  obtain ⟨final, run, undefined⟩ := @overflow_run server2 home
    (locals.begin connection.connfd) (connection.accepted opens) _ _ _ clean
    (List.length_take_of_le long.le) rfl size lookup_install_self sent
  exact serves.not_undefined run undefined

/-- A connection without a newline is served, if at all, by creating the file
whose name its bytes and the rest of `puffer` make. -/
theorem creates_of_cut {after : Locals} {effects : List Effect} (clean : 10 ∉ connection.bytes)
    (size : locals.puffer.length = maxZeichen)
    (serves : Serves home locals connection (fun _ => true) after effects) :
    ∃ path, .create path ∈ effects := by
  have short : connection.bytes.length ≤ maxZeichen := by
    by_contra long
    exact not_serves_of_long (fun member => clean (List.mem_of_mem_take member))
      (Nat.lt_of_not_le long) size serves
  have named := @cut_run server2 home (locals.begin connection.connfd)
    (connection.accepted fun _ => true) _ clean short rfl size lookup_install_self rfl
  rw [Locals.enterOpen] at named
  split at named
  next path _ =>
    obtain ⟨final, rest, done, changed⟩ := @open_run server2 home
      { locals.begin connection.connfd with
        puffer := overwrite locals.puffer 0 connection.bytes
        pathFile := path
        pc := .openFile }
      { connection.accepted fun _ => true with
        stream := []
        deliver := later^[connection.bytes.length + 1] connection.deliver }
      rfl rfl (.inl rfl) lookup_install_self connection.connfd_ne_fresh
    have same := serves.unique ⟨final.2, named.trans rest, done, changed⟩
    exact ⟨path, same ▸ List.mem_cons_self⟩
  next => exact absurd rfl (serves.not_undefined named)

/-- A client that closes its connection without sending anything. -/
def silent : Connection :=
  { upload with bytes := [] }

/-- A file system in which only the directory itself cannot be opened. -/
def opensFiles (path : List Byte) : Bool :=
  path != [47] ++ tmpDir

/-- The variables after the upload. -/
def uploaded : Locals :=
  ((tick server2 [47])^[9] (blank.begin upload.connfd, upload.accepted opensFiles)).1

end LinuxUnix.FileTransfer

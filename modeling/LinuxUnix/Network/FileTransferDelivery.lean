import LinuxUnix.Foundation.Delivery
import LinuxUnix.Foundation.DescriptorTable
import LinuxUnix.Foundation.Iteration
import LinuxUnix.Network.FileTransfer

/-! # What a transfer stores

A connection delivers its bytes in pieces whose sizes are chosen by the kernel.
For every choice, a complete name line leads all three servers to the file of
that name (`LinuxUnix.FileTransfer.header_run`), and the blocks written to it are
the content in order (`LinuxUnix.FileTransfer.block_run`).
-/

namespace LinuxUnix.FileTransfer

open CMemory DescriptorTable

/-- What a descriptor of the serving process can denote. -/
inductive Object
  | connection
  | file (path : List Byte)
  deriving DecidableEq

/-- The changes of the file system: a file created or truncated, and bytes
written behind what it holds. -/
inductive Effect
  | create (path : List Byte)
  | write (path : List Byte) (data : List Byte)
  deriving DecidableEq

/-- One connection: the bytes the client sends before it closes, how many of them
the successive reads may return, and the numbers that `accept` and `open` hand
out. -/
structure Connection where
  bytes : List Byte
  deliver : ℕ → ℕ
  connfd : ℕ
  fresh : ℕ
  distinct : fresh ≠ connfd

/-- The kernel as the transfer sees it: the descriptors, the bytes still to be
read, the paths that `open` succeeds on, and the changes made so far. -/
structure Kernel where
  table : DescriptorTable Object
  stream : List Byte
  deliver : ℕ → ℕ
  fresh : ℕ
  opens : List Byte → Bool
  effects : List Effect

/-- What the kernel returns for a system call, and its state afterwards. -/
def Kernel.answer (kernel : Kernel) : Request → Reply × Kernel
  | .read fd count => match kernel.table.lookup fd with
    | some .connection => (.data (kernel.stream.take (pieceSize kernel.deliver count)),
        { kernel with
          stream := kernel.stream.drop (pieceSize kernel.deliver count)
          deliver := later kernel.deliver })
    | some (.file _) | none => (.failed, kernel)
  | .create path =>
      if kernel.opens path then (.value kernel.fresh, { kernel with
        table := kernel.table.install kernel.fresh (.file path)
        effects := kernel.effects ++ [.create path] })
      else (.failed, kernel)
  | .write fd data => match kernel.table.lookup fd with
    | some (.file path) => (.value data.length,
        { kernel with effects := kernel.effects ++ [.write path data] })
    | some .connection | none => (.failed, kernel)
  | .close fd => match kernel.table.lookup fd with
    | some _ => (.value 0, { kernel with table := kernel.table.release fd })
    | none => (.failed, kernel)

/-- One system call of a server. -/
def tick (server : Server) (home : List Byte) (state : Locals × Kernel) : Locals × Kernel :=
  match request state.1 with
  | some call =>
      (resume server home state.1 (state.2.answer call).1, (state.2.answer call).2)
  | none => state

/-- The kernel after `accept`: the connection has its descriptor. -/
def Connection.accepted (connection : Connection) (opens : List Byte → Bool) : Kernel where
  table := install (fun _ => none) connection.connfd .connection
  stream := connection.bytes
  deliver := connection.deliver
  fresh := connection.fresh
  opens
  effects := []

theorem Connection.connfd_ne_fresh (connection : Connection) :
    (connection.connfd : ℤ) ≠ connection.fresh := by
  have distinct := connection.distinct
  omega

/-- What a file holds after a change to the file system, if it exists. -/
def Effect.apply (path : List Byte) (content : Option (List Byte)) : Effect → Option (List Byte)
  | .create created => if created = path then some [] else content
  | .write written data => if written = path then content.map (· ++ data) else content

/-- What a file holds after changes to the file system. -/
def stored (path : List Byte) (before : Option (List Byte)) (effects : List Effect) :
    Option (List Byte) :=
  effects.foldl (Effect.apply path) before

/-- Pieces written to a file that was just created, or truncated, are stored one
behind the other. -/
theorem stored_created (path : List Byte) (before : Option (List Byte))
    (blocks : List (List Byte)) :
    stored path before (.create path :: blocks.map (.write path)) = some blocks.flatten := by
  have extend : ∀ (blocks : List (List Byte)) (content : List Byte),
      stored path (some content) (blocks.map (.write path)) = some (content ++ blocks.flatten) := by
    intro blocks
    induction blocks with
    | nil => intro content; rw [List.flatten_nil, List.append_nil]; rfl
    | cons block blocks ih =>
        intro content
        rw [List.map_cons, stored, List.foldl_cons, List.flatten_cons, ← List.append_assoc, ← ih]
        simp only [Effect.apply, ↓reduceIte, Option.map_some, stored]
  rw [stored, List.foldl_cons]
  simp only [Effect.apply, ↓reduceIte]
  exact extend blocks []

/-- Changes to one file leave the others alone. -/
theorem stored_other {path other : List Byte} (different : path ≠ other)
    (before : Option (List Byte)) (blocks : List (List Byte)) :
    stored other before (.create path :: blocks.map (.write path)) = before := by
  rw [stored, List.foldl_cons]
  simp only [Effect.apply, different, ↓reduceIte]
  induction blocks with
  | nil => rfl
  | cons block blocks ih =>
      rw [List.map_cons, List.foldl_cons]
      simp only [Effect.apply, different, ↓reduceIte]
      exact ih

variable {server : Server} {home : List Byte}

/-- The name loop takes one byte from the connection. -/
theorem tick_header {locals : Locals} {kernel : Kernel} {j : ℕ} {byte : Byte} {rest : List Byte}
    (pc : locals.pc = .header j) (conn : kernel.table.lookup locals.connfd = some .connection)
    (stream : kernel.stream = byte :: rest) :
    tick server home (locals, kernel) = (locals.takeByte home j byte,
      { kernel with stream := rest, deliver := later kernel.deliver }) := by
  simp only [tick, request, resume, Kernel.answer, pc, conn, stream, pieceSize_one,
    List.take_succ_cons, List.take_zero, List.drop_succ_cons, List.drop_zero]

/-- At the end of the stream the name loop ends too. -/
theorem tick_header_end {locals : Locals} {kernel : Kernel} {j : ℕ}
    (pc : locals.pc = .header j) (conn : kernel.table.lookup locals.connfd = some .connection)
    (stream : kernel.stream = []) :
    tick server home (locals, kernel) =
      (locals.enterOpen home, { kernel with deliver := later kernel.deliver }) := by
  simp only [tick, request, resume, Kernel.answer, pc, conn, stream, List.take_nil, List.drop_nil]

/-- A file that can be opened is created, or truncated. -/
theorem tick_open {locals : Locals} {kernel : Kernel} (pc : locals.pc = .openFile)
    (opened : kernel.opens locals.pathFile = true) :
    tick server home (locals, kernel) = ({ locals with fd := kernel.fresh, pc := .block },
      { kernel with
        table := kernel.table.install kernel.fresh (.file locals.pathFile)
        effects := kernel.effects ++ [.create locals.pathFile] }) := by
  simp only [tick, request, resume, Kernel.answer, pc, opened, ↓reduceIte]

theorem tick_open_failed {locals : Locals} {kernel : Kernel} (pc : locals.pc = .openFile)
    (refused : kernel.opens locals.pathFile = false) :
    tick server home (locals, kernel) = ({ locals with fd := -1, pc := .refused }, kernel) := by
  simp only [tick, request, resume, Kernel.answer, pc, refused, Bool.false_eq_true, ↓reduceIte]

/-- The block loop reads the next piece into `puffer`. -/
theorem tick_block {locals : Locals} {kernel : Kernel} {piece : List Byte}
    (pc : locals.pc = .block) (conn : kernel.table.lookup locals.connfd = some .connection)
    (next : kernel.stream.take (pieceSize kernel.deliver maxZeichen) = piece)
    (nonempty : piece ≠ []) :
    tick server home (locals, kernel) = ({ locals with
        puffer := overwrite locals.puffer 0 piece, pc := .writing piece.length },
      { kernel with
        stream := kernel.stream.drop (pieceSize kernel.deliver maxZeichen)
        deliver := later kernel.deliver }) := by
  simp only [tick, request, resume, Kernel.answer, pc, conn, next]

theorem tick_block_end {locals : Locals} {kernel : Kernel} (pc : locals.pc = .block)
    (conn : kernel.table.lookup locals.connfd = some .connection) (stream : kernel.stream = []) :
    tick server home (locals, kernel) =
      ({ locals with pc := .closeFile }, { kernel with deliver := later kernel.deliver }) := by
  simp only [tick, request, resume, Kernel.answer, pc, conn, stream, List.take_nil, List.drop_nil]

/-- The bytes just read are written to the file. -/
theorem tick_writing {locals : Locals} {kernel : Kernel} {piece path : List Byte}
    (pc : locals.pc = .writing piece.length) (read : locals.puffer.take piece.length = piece)
    (file : kernel.table.lookup locals.fd = some (.file path)) :
    tick server home (locals, kernel) = ({ locals with pc := .block },
      { kernel with effects := kernel.effects ++ [.write path piece] }) := by
  simp only [tick, request, resume, Kernel.answer, pc, read, file, ↓reduceIte]

variable (server home)

/-- The name loop reads bytes without a newline into `puffer` as long as they fit. -/
theorem header_run {name : List Byte} : ∀ {locals : Locals} {kernel : Kernel} {j : ℕ}
    {rest : List Byte}, 10 ∉ name → locals.pc = .header j →
      locals.puffer.length = maxZeichen → j + name.length ≤ maxZeichen →
      kernel.table.lookup locals.connfd = some .connection → kernel.stream = name ++ rest →
      Reaches (tick server home) (locals, kernel)
        ({ locals with
            puffer := overwrite locals.puffer j name
            pc := .header (j + name.length) },
          { kernel with stream := rest, deliver := later^[name.length] kernel.deliver }) := by
  induction name with
  | nil =>
      intro locals kernel j rest _ pc _ _ _ stream
      obtain ⟨puffer, pathFile, connfd, fd, _⟩ := locals
      obtain ⟨table, _, deliver, fresh, opens, effects⟩ := kernel
      cases pc
      cases stream
      rw [overwrite_nil]
      exact .refl _
  | cons byte name ih =>
      intro locals kernel j rest clean pc size room conn stream
      rw [List.mem_cons, not_or] at clean
      rw [List.length_cons] at room
      have taken : locals.takeByte home j byte =
          { locals with puffer := overwrite locals.puffer j [byte], pc := .header (j + 1) } := by
        rw [Locals.takeByte, if_pos (by omega), if_neg (Ne.symm clean.1),
          set_eq_overwrite (by omega)]
      have stored : overwrite (overwrite locals.puffer j [byte]) (j + 1) name =
          overwrite locals.puffer j (byte :: name) := overwrite_append (by omega) name
      have length : (overwrite locals.puffer j [byte]).length = maxZeichen := by
        rw [length_overwrite (by rw [List.length_singleton]; omega), size]
      have moved : tick server home (locals, kernel) =
          ({ locals with puffer := overwrite locals.puffer j [byte], pc := .header (j + 1) },
            { kernel with stream := name ++ rest, deliver := later kernel.deliver }) := by
        rw [← taken]
        exact tick_header pc conn stream
      have last : j + (name.length + 1) = j + 1 + name.length := by omega
      apply Reaches.head moved
      rw [List.length_cons, Function.iterate_succ_apply, ← stored, last]
      exact ih clean.2 rfl length (by rwa [← last]) conn rfl

/-- A complete name line leaves the name as the string in `puffer`. -/
theorem name_run {locals : Locals} {kernel : Kernel} {name content : List Byte}
    (clean : 10 ∉ name) (short : name.length < maxZeichen) (pc : locals.pc = .header 0)
    (size : locals.puffer.length = maxZeichen)
    (conn : kernel.table.lookup locals.connfd = some .connection)
    (stream : kernel.stream = name ++ 10 :: content) :
    Reaches (tick server home) (locals, kernel)
      ({ locals with puffer := overwrite locals.puffer 0 (name ++ [0]) }.enterOpen home,
        { kernel with stream := content, deliver := later^[name.length + 1] kernel.deliver }) := by
  have read := header_run server home clean pc size (by omega) conn stream
  rw [Nat.zero_add] at read
  apply read.trans
  apply Reaches.head
  · exact tick_header rfl conn rfl
  have long : (overwrite locals.puffer 0 name).length = maxZeichen := by
    rw [length_overwrite (by omega), size]
  have stored : (overwrite locals.puffer 0 name).set name.length 0 =
      overwrite locals.puffer 0 (name ++ [0]) := by
    rw [set_eq_overwrite (by omega), ← overwrite_append (Nat.zero_le _), Nat.zero_add]
  rw [Locals.takeByte, if_pos short, if_pos rfl, stored, Function.iterate_succ_apply']
  exact .refl _

/-- A stream that ends before a newline leaves what `puffer` held behind it. -/
theorem cut_run {locals : Locals} {kernel : Kernel} {name : List Byte} (clean : 10 ∉ name)
    (short : name.length ≤ maxZeichen) (pc : locals.pc = .header 0)
    (size : locals.puffer.length = maxZeichen)
    (conn : kernel.table.lookup locals.connfd = some .connection) (stream : kernel.stream = name) :
    Reaches (tick server home) (locals, kernel)
      ({ locals with puffer := overwrite locals.puffer 0 name }.enterOpen home,
        { kernel with stream := [], deliver := later^[name.length + 1] kernel.deliver }) := by
  have ended : kernel.stream = name ++ [] := by rw [stream, List.append_nil]
  have read := header_run server home clean pc size (by omega) conn ended
  apply read.trans
  apply Reaches.head
  · exact tick_header_end rfl conn rfl
  rw [Function.iterate_succ_apply']
  exact .refl _

/-- The name loop does not stop at the end of `puffer`. -/
theorem overflow_run {locals : Locals} {kernel : Kernel} {name rest : List Byte} {byte : Byte}
    (clean : 10 ∉ name) (long : name.length = maxZeichen) (pc : locals.pc = .header 0)
    (size : locals.puffer.length = maxZeichen)
    (conn : kernel.table.lookup locals.connfd = some .connection)
    (stream : kernel.stream = name ++ byte :: rest) :
    ∃ final, Reaches (tick server home) (locals, kernel) final ∧ final.1.pc = .undefined := by
  have read := header_run server home clean pc size (by omega) conn stream
  have passed : (tick server home ({ locals with
      puffer := overwrite locals.puffer 0 name, pc := .header (0 + name.length) },
      { kernel with stream := byte :: rest, deliver := later^[name.length] kernel.deliver })) =
      _ := tick_header rfl conn rfl
  refine ⟨_, read.trans (.head passed (.refl _)), ?_⟩
  rw [Locals.takeByte, if_neg (by omega)]

/-- The block loop writes the pieces of the stream to the file, in order. -/
theorem block_run {path : List Byte} (deliver : ℕ → ℕ) (stream : List Byte) :
    ∀ {locals : Locals} {kernel : Kernel}, kernel.deliver = deliver → kernel.stream = stream →
      locals.pc = .block → kernel.table.lookup locals.connfd = some .connection →
      kernel.table.lookup locals.fd = some (.file path) →
      ∃ final, Reaches (tick server home) (locals, kernel) final ∧ final.1.pc = .closeFile ∧
        final.2.effects =
          kernel.effects ++ (pieces maxZeichen deliver stream).map (.write path) := by
  induction deliver, stream using pieces.induct maxZeichen with
  | case1 deliver stream empty =>
      intro locals kernel delivery remaining pc conn file
      have nothing : stream = [] := empty.resolve_right (by decide)
      refine ⟨_, .head (tick_block_end pc conn (remaining.trans nothing)) (.refl _), rfl, ?_⟩
      rw [pieces, dif_pos empty, List.map_nil, List.append_nil]
  | case2 deliver stream nonempty ih =>
      intro locals kernel delivery remaining pc conn file
      subst delivery remaining
      have some_ : kernel.stream.take (pieceSize kernel.deliver maxZeichen) ≠ [] := by
        rw [ne_eq, List.take_eq_nil_iff, not_or]
        exact ⟨(pieceSize_pos _ (by decide)).ne', (not_or.mp nonempty).1⟩
      rw [pieces, dif_neg nonempty, List.map_cons]
      let read : Locals :=
        { locals with
          puffer := overwrite locals.puffer 0
            (kernel.stream.take (pieceSize kernel.deliver maxZeichen))
          pc := .writing (kernel.stream.take (pieceSize kernel.deliver maxZeichen)).length }
      let shorter : Kernel :=
        { kernel with
          stream := kernel.stream.drop (pieceSize kernel.deliver maxZeichen)
          deliver := later kernel.deliver }
      have wrote : tick server home (read, shorter) = _ :=
        tick_writing rfl (take_overwrite_zero _ _) file
      obtain ⟨final, rest, stopped, effects⟩ :=
        @ih { read with pc := .block } { shorter with effects := _ } rfl rfl rfl conn file
      refine ⟨final, .head (tick_block pc conn rfl some_) (.head wrote rest), stopped, ?_⟩
      rw [effects, List.append_assoc, List.singleton_append]

theorem effects_close (kernel : Kernel) (fd : ℤ) :
    (kernel.answer (.close fd)).2.effects = kernel.effects := by
  rw [Kernel.answer]
  split <;> rfl

/-- After the transfer the server closes the file and then the connection, once
or twice; this changes no file. -/
theorem closing_run {locals : Locals} {kernel : Kernel} (pc : locals.pc = .closeFile)
    (ends : server.afterClose = .done ∨ server.afterClose = .closeAgain) :
    ∃ final, Reaches (tick server home) (locals, kernel) final ∧ final.1.pc = .done ∧
      final.2.effects = kernel.effects := by
  have first : tick server home (locals, kernel) =
      ({ locals with pc := .closeConn }, (kernel.answer (.close locals.fd)).2) := by
    simp only [tick, request, resume, pc]
  rcases ends with ends | ends
  · refine ⟨_, .head first (.head rfl (.refl _)), ends, ?_⟩
    exact (effects_close _ _).trans (effects_close _ _)
  · have second : ∀ kernel : Kernel, tick server home ({ locals with pc := .closeConn }, kernel) =
        ({ locals with pc := .closeAgain }, (kernel.answer (.close locals.connfd)).2) := by
      intro kernel
      simp only [tick, request, resume, ends]
    refine ⟨_, .head first (.head (second _) (.head rfl (.refl _))), rfl, ?_⟩
    exact (effects_close _ _).trans ((effects_close _ _).trans (effects_close _ _))

/-- Once the name is read, a file that can be opened is created and gets the rest
of the stream. -/
theorem open_run {locals : Locals} {kernel : Kernel} (pc : locals.pc = .openFile)
    (opened : kernel.opens locals.pathFile = true)
    (ends : server.afterClose = .done ∨ server.afterClose = .closeAgain)
    (conn : kernel.table.lookup locals.connfd = some .connection)
    (distinct : locals.connfd ≠ kernel.fresh) :
    ∃ final, Reaches (tick server home) (locals, kernel) final ∧ final.1.pc = .done ∧
      final.2.effects = kernel.effects ++ .create locals.pathFile ::
        (pieces maxZeichen kernel.deliver kernel.stream).map (.write locals.pathFile) := by
  have own : (kernel.table.install kernel.fresh (.file locals.pathFile)).lookup locals.connfd =
      some .connection := (lookup_install_of_ne distinct).trans conn
  obtain ⟨written, copied, stopped, effects⟩ :=
    @block_run server home locals.pathFile kernel.deliver kernel.stream
      { locals with fd := kernel.fresh, pc := .block }
      { kernel with table := _, effects := kernel.effects ++ [.create locals.pathFile] }
      rfl rfl rfl own lookup_install_self
  obtain ⟨final, closed, done, same⟩ := closing_run server home stopped ends
  refine ⟨final, .head (tick_open pc opened) (copied.trans closed), done, ?_⟩
  rw [same, effects, List.append_assoc, List.singleton_append]

/-- The path made of a name that has been stored with its NUL. -/
theorem pathOf_overwrite {puffer name : List Byte}
    (fits : (home ++ tmpDir ++ cstr name).length < maxZeichen) :
    pathOf home (overwrite puffer 0 (name ++ [0])) = some (home ++ tmpDir ++ cstr name) := by
  rw [pathOf, cstr_overwrite, if_pos ⟨zero_mem_overwrite .., fits⟩]

variable {locals : Locals} {connection : Connection} {opens : List Byte → Bool}
  {name content : List Byte}

/-- A connection that sends a complete name line causes the writes of its content
to the file of that name, and nothing else. -/
theorem transfer_run (clean : 10 ∉ name) (short : name.length < maxZeichen)
    (fits : (home ++ tmpDir ++ cstr name).length < maxZeichen)
    (opened : opens (home ++ tmpDir ++ cstr name) = true)
    (ends : server.afterClose = .done ∨ server.afterClose = .closeAgain)
    (size : locals.puffer.length = maxZeichen) (sent : connection.bytes = name ++ 10 :: content) :
    ∃ final, Reaches (tick server home)
        (locals.begin connection.connfd, connection.accepted opens) final ∧ final.1.pc = .done ∧
      final.2.effects = .create (home ++ tmpDir ++ cstr name) ::
        (pieces maxZeichen (later^[name.length + 1] connection.deliver) content).map
          (.write (home ++ tmpDir ++ cstr name)) := by
  have named := @name_run server home (locals.begin connection.connfd)
    (connection.accepted opens) name content clean short rfl size lookup_install_self sent
  rw [Locals.enterOpen, pathOf_overwrite home fits] at named
  obtain ⟨final, rest, done, effects⟩ := @open_run server home
    { locals.begin connection.connfd with
      puffer := overwrite locals.puffer 0 (name ++ [0])
      pathFile := home ++ tmpDir ++ cstr name
      pc := .openFile }
    { connection.accepted opens with
      stream := content
      deliver := later^[name.length + 1] connection.deliver }
    rfl opened ends lookup_install_self connection.connfd_ne_fresh
  exact ⟨final, named.trans rest, done, effects⟩

/-- All three servers store exactly the content in the file of the name, whatever
the pieces the connection delivers, and change no other file. -/
theorem stores_content (known : server ∈ [server2, pserver, threadingSocket]) (text : 0 ∉ name)
    (clean : 10 ∉ name) (fits : (home ++ tmpDir ++ name).length < maxZeichen)
    (opened : opens (home ++ tmpDir ++ name) = true) (size : locals.puffer.length = maxZeichen)
    (sent : connection.bytes = name ++ 10 :: content) :
    ∃ final, Reaches (tick server home)
        (locals.begin connection.connfd, connection.accepted opens) final ∧
      final.1.pc = .done ∧
      (∀ before, stored (home ++ tmpDir ++ name) before final.2.effects = some content) ∧
      ∀ other before, home ++ tmpDir ++ name ≠ other →
        stored other before final.2.effects = before := by
  have short : name.length < maxZeichen := by
    rw [List.length_append] at fits
    omega
  have ends : server.afterClose = .done ∨ server.afterClose = .closeAgain := by
    simp only [List.mem_cons, List.not_mem_nil, or_false] at known
    rcases known with rfl | rfl | rfl
    · exact .inl rfl
    · exact .inr rfl
    · exact .inr rfl
  rw [← cstr_eq_self text] at fits opened ⊢
  obtain ⟨final, run, done, effects⟩ :=
    transfer_run server home clean short fits opened ends size sent
  refine ⟨final, run, done, ?_, ?_⟩
  · intro before
    rw [effects, stored_created, flatten_pieces (by decide)]
  · intro other before different
    rw [effects, stored_other different]

/-- A client that stores a file which begins with a letter and a NUL. -/
def upload : Connection where
  bytes := [97, 10, 98, 0]
  deliver := fun _ => 2
  connfd := 4
  fresh := 5
  distinct := by decide

theorem stores_content_upload :
    ∃ final, Reaches (tick threadingSocket [47])
        (blank.begin upload.connfd, upload.accepted fun _ => true) final ∧
      final.1.pc = .done ∧
      (∀ before, stored ([47] ++ tmpDir ++ [97]) before final.2.effects = some [98, 0]) ∧
      ∀ other before, [47] ++ tmpDir ++ [97] ≠ other →
        stored other before final.2.effects = before :=
  stores_content threadingSocket [47] (by simp) (by decide) (by decide) (by decide) rfl
    List.length_replicate rfl

end LinuxUnix.FileTransfer

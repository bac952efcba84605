import LinuxUnix.Network.Chat

/-! # The rounds of the chat programs

What holds in every round, if no call fails and each `recv` returns the text that is under way:
where each program is, what its buffer holds of the lines typed at both sides, and that none of
them was `quit` in a round before (`LinuxUnix.Chat.Talk`). The client looks for the line `quit`
twice in a round, behind its `recv` and at the end of the loop, the server only behind its `recv`.
If the server sends `quit`, the client closes without an answer, and the server goes on with what
`recv` has left in its buffer: the line `quit` that it has sent itself.
-/

namespace LinuxUnix.Chat

open CMemory TransitionSystem

/-- The sides that send, one after the other. -/
def turns (count : ℕ) : List Side :=
  (List.range count).map fun index => if index % 2 = 0 then .server else .client

/-- `fgets` delivers a line, `send` takes all of it, `recv` returns what one `send` has taken, or
0 after the other program has closed; and nobody ends the programs. -/
def Whole (state : State) : Action → Prop
  | .fgets _ delivers => delivers = true
  | .send side count => count = (cstr (state.process side).buffer).length
  | .recv side size => size = some (state.stream side.other).length
  | .go _ => True
  | .kill _ => False

instance (state : State) : ∀ action, Decidable (Whole state action)
  | .fgets _ _ | .send _ _ | .recv _ _ => inferInstanceAs (Decidable (_ = _))
  | .go _ => inferInstanceAs (Decidable True)
  | .kill _ => inferInstanceAs (Decidable False)

/-- None of the first lines is `quit`. -/
def Quiet (texts : List (List Byte)) (count : ℕ) : Prop :=
  ∀ index < count, texts[index]? ≠ some quitLine

/-- How many lines a program has read, sent and received. -/
def Counts (process : Process) (lines sent received : ℕ) : Prop :=
  process.lines.length = lines ∧ process.sent.length = sent ∧ process.received.length = received

/-- The server behind its `recv`, which has returned the line of the client, or 0. -/
def Answered (own others : List (List Byte)) (peer : Place) (process : Process) : Prop :=
  Counts process (process.round + 1) (process.round + 1) (process.round + 1) ∧
      others[process.round]? = some (cstr process.buffer) ∨
    Counts process (process.round + 1) (process.round + 1) process.round ∧
      own[process.round]? = some (cstr process.buffer) ∧ peer = .closed ∧
        cstr process.buffer = quitLine

/-- What holds at each place of the server. -/
def ServerAt (own others : List (List Byte)) (peer : Place) (process : Process) : Prop :=
  match process.place with
  | .reading => Counts process process.round process.round process.round
  | .sending => Counts process (process.round + 1) process.round process.round ∧
      own[process.round]? = some (cstr process.buffer)
  | .receiving => Counts process (process.round + 1) (process.round + 1) process.round ∧
      own[process.round]? = some (cstr process.buffer)
  | .printing | .deciding => Answered own others peer process
  | .testing => False
  | .left | .closed => Answered own others peer process ∧ cstr process.buffer = quitLine

/-- The client behind its `send`, or behind the condition around it. -/
def Replied (own others : List (List Byte)) (process : Process) : Prop :=
  Counts process (process.round + 1) (process.round + 1) (process.round + 1) ∧
      Quiet others (process.round + 1) ∧ own[process.round]? = some (cstr process.buffer) ∨
    Counts process process.round process.round (process.round + 1) ∧
      others[process.round]? = some (cstr process.buffer) ∧ cstr process.buffer = quitLine

/-- What holds at each place of the client. -/
def ClientAt (own others : List (List Byte)) (process : Process) : Prop :=
  match process.place with
  | .receiving => Counts process process.round process.round process.round
  | .printing | .testing => Counts process process.round process.round (process.round + 1) ∧
      others[process.round]? = some (cstr process.buffer)
  | .reading => Counts process process.round process.round (process.round + 1) ∧
      Quiet others (process.round + 1)
  | .sending => Counts process (process.round + 1) process.round (process.round + 1) ∧
      Quiet others (process.round + 1) ∧ own[process.round]? = some (cstr process.buffer)
  | .deciding => Replied own others process
  | .left | .closed => Replied own others process ∧ cstr process.buffer = quitLine

/-- What a program has read and sent of the lines typed at it. -/
structure Types (texts : List (List Byte)) (process : Process) : Prop where
  rest : LineInput.pieces buf process.stdin = texts.drop process.lines.length
  clean : 0 ∉ process.stdin
  sent : process.sent = texts.take process.sent.length

/-- The invariant. -/
structure Talk (texts : Side → List (List Byte)) (state : State) : Prop where
  server : ServerAt (texts .server) (texts .client) (state.process .client).place
    (state.process .server)
  client : ClientAt (texts .client) (texts .server) (state.process .client)
  serverQuiet : Quiet (texts .client) (state.process .server).round
  clientQuiet : Quiet (texts .client) (state.process .client).round ∧
    Quiet (texts .server) (state.process .client).round
  types : ∀ side, Types (texts side) (state.process side)
  carries : ∀ side, Carries (state.stream side) (state.process side).sent
    (state.process side.other).received
  sends : state.sends =
    turns ((state.process .server).sent.length + (state.process .client).sent.length)

variable {pair : Pair} {texts : Side → List (List Byte)} {own others : List (List Byte)}
  {state : State} {side : Side} {process : Process} {peer : Place}

theorem Quiet.succ {count : ℕ} (quiet : Quiet own count) {text : List Byte}
    (next : own[count]? = some text) (goesOn : text ≠ quitLine) : Quiet own (count + 1) := by
  intro index small same
  rcases Nat.lt_succ_iff_lt_or_eq.mp small with earlier | rfl
  · exact quiet index earlier same
  · exact goesOn (Option.some.inj (next.symm.trans same))

theorem Quiet.mono {count fewer : ℕ} (quiet : Quiet own count) (less : fewer ≤ count) :
    Quiet own fewer :=
  fun index small => quiet index (Nat.lt_of_lt_of_le small less)

/-- What the client has read and answered was not `quit`. -/
theorem ClientAt.quiet (client : ClientAt own others process)
    (quiet : Quiet others process.round) :
    Quiet others process.sent.length ∧ process.sent.length ≤ process.received.length := by
  have same : process.sent.length = process.round → Quiet others process.sent.length :=
    fun sent => sent ▸ quiet
  have replied : Replied own others process →
      Quiet others process.sent.length ∧ process.sent.length ≤ process.received.length := by
    rintro (⟨⟨_, sent, received⟩, quiet, _⟩ | ⟨⟨_, sent, received⟩, _⟩)
    · exact ⟨sent ▸ quiet, by omega⟩
    · exact ⟨same sent, by omega⟩
  unfold ClientAt at client
  split at client
  · exact ⟨same client.2.1, by have := client.2; omega⟩
  · exact ⟨same client.1.2.1, by have := client.1.2; omega⟩
  · exact ⟨same client.1.2.1, by have := client.1.2; omega⟩
  · exact ⟨same client.1.2.1, by have := client.1.2; omega⟩
  · exact ⟨same client.1.2.1, by have := client.1.2; omega⟩
  · exact replied client
  · exact replied client.1
  · exact replied client.1

/-- The server is at most one text ahead. -/
theorem ServerAt.sent_le (server : ServerAt own others peer process) :
    process.sent.length ≤ process.received.length + 1 ∧
      process.round ≤ process.received.length := by
  have answered : Answered own others peer process →
      process.sent.length ≤ process.received.length + 1 ∧
        process.round ≤ process.received.length := by
    rintro (⟨⟨_, sent, received⟩, _⟩ | ⟨⟨_, sent, received⟩, _⟩)
    · omega
    · omega
  unfold ServerAt at server
  split at server
  · have := server.2; omega
  · have := server.1.2; omega
  · have := server.1.2; omega
  · exact answered server
  · exact answered server
  · exact server.elim
  · exact answered server.1
  · exact answered server.1

/-- `fgets` delivers the next piece. -/
theorem Types.fgets (types : Types own process) (more : process.stdin ≠ []) :
    Types own process.fgets ∧
      own[process.lines.length]? = some (cstr process.fgets.buffer) := by
  have cut := @LineInput.pieces_of_ne_nil buf _ (by decide) more
  rw [types.rest] at cut
  have clean : 0 ∉ piece process.stdin := fun member =>
    types.clean ((LineInput.piece_prefix ..).subset member)
  have text : cstr process.fgets.buffer = piece process.stdin := by
    change cstr (overwrite process.buffer 0 (piece process.stdin ++ [0])) = _
    rw [cstr_overwrite, cstr_eq_self clean]
  refine ⟨⟨?_, ?_, types.sent⟩, ?_⟩
  · change LineInput.pieces buf (process.stdin.drop (piece process.stdin).length) =
      own.drop (process.lines ++ [cstr (piece process.stdin)]).length
    rw [List.length_append, List.length_singleton, ← List.tail_drop, cut]
    rfl
  · exact fun member => types.clean (List.mem_of_mem_drop member)
  · have first : (own.drop process.lines.length)[0]? = own[process.lines.length]? :=
      List.getElem?_drop ..
    rw [text, ← first, cut]
    rfl

/-- The next text is sent. -/
theorem take_succ_of_getElem? {text : List Byte} {sent : List (List Byte)}
    (before : sent = own.take sent.length) (next : own[sent.length]? = some text) :
    sent ++ [text] = own.take (sent ++ [text]).length := by
  rw [List.length_append, List.length_singleton, List.take_add_one, next, ← before]
  rfl

/-- The text under way is the next one. -/
theorem getElem?_of_carries {stream : List Byte} {sent received : List (List Byte)}
    (before : sent = own.take sent.length) (carries : Carries stream sent received)
    (waiting : stream ≠ []) : own[received.length]? = some stream := by
  rcases carries.2 with ⟨empty, _⟩ | ⟨_, same⟩
  · exact absurd empty waiting
  · have there : sent[received.length]? = some stream := by
      rw [same, List.getElem?_concat_length]
    rw [before, List.getElem?_take] at there
    split at there
    · exact there
    · cases there

theorem turns_succ (count : ℕ) :
    turns (count + 1) = turns count ++ [if count % 2 = 0 then .server else .client] := by
  rw [turns, turns, List.range_succ, List.map_append]
  rfl

/-- What holds of the server does not depend on where the client is, unless it has closed. -/
theorem ServerAt.mono {peer' : Place} (server : ServerAt own others peer process)
    (stays : peer = .closed → peer' = .closed) : ServerAt own others peer' process := by
  have answered : Answered own others peer process → Answered own others peer' process :=
    Or.imp id fun zero => ⟨zero.1, zero.2.1, stays zero.2.2.1, zero.2.2.2⟩
  cases place : process.place with
  | reading | sending | receiving =>
      simp only [ServerAt, place] at server ⊢
      exact server
  | testing => simp only [ServerAt, place] at server
  | printing | deciding =>
      simp only [ServerAt, place] at server ⊢
      exact answered server
  | left | closed =>
      simp only [ServerAt, place] at server ⊢
      exact ⟨answered server.1, server.2⟩

/-- A step of the server in which it neither sends nor receives. -/
theorem Talk.ofServer (talk : Talk texts state)
    (server : ServerAt (texts .server) (texts .client) (state.process .client).place process)
    (quiet : Quiet (texts .client) process.round) (types : Types (texts .server) process)
    (sent : process.sent = (state.process .server).sent)
    (received : process.received = (state.process .server).received) :
    Talk texts (state.set .server process) where
  server := server
  client := talk.client
  serverQuiet := quiet
  clientQuiet := talk.clientQuiet
  types := fun
    | .server => types
    | .client => talk.types .client
  carries := fun
    | .server => (congrArg₂ (Carries _) sent rfl).mpr (talk.carries .server)
    | .client => (congrArg₂ (Carries _) rfl received).mpr (talk.carries .client)
  sends := by
    change state.sends = turns (process.sent.length + (state.process .client).sent.length)
    rw [sent]
    exact talk.sends

/-- A step of the client in which it neither sends nor receives. -/
theorem Talk.ofClient (talk : Talk texts state) (open_ : (state.process .client).place ≠ .closed)
    (client : ClientAt (texts .client) (texts .server) process)
    (quiet : Quiet (texts .client) process.round ∧ Quiet (texts .server) process.round)
    (types : Types (texts .client) process)
    (sent : process.sent = (state.process .client).sent)
    (received : process.received = (state.process .client).received) :
    Talk texts (state.set .client process) where
  server := talk.server.mono fun closed => absurd closed open_
  client := client
  serverQuiet := talk.serverQuiet
  clientQuiet := quiet
  types := fun
    | .server => talk.types .server
    | .client => types
  carries := fun
    | .server => (congrArg₂ (Carries _) rfl received).mpr (talk.carries .server)
    | .client => (congrArg₂ (Carries _) sent rfl).mpr (talk.carries .client)
  sends := by
    change state.sends = turns ((state.process .server).sent.length + process.sent.length)
    rw [sent]
    exact talk.sends

theorem Talk.serverFgets (talk : Talk texts state)
    (reading : (state.process .server).place = .reading)
    (more : (state.process .server).stdin ≠ []) :
    Talk texts (state.set .server (state.process .server).fgets) := by
  have server := talk.server
  simp only [ServerAt, reading] at server
  obtain ⟨lines, sent, received⟩ := server
  obtain ⟨types, text⟩ := (talk.types .server).fgets more
  refine talk.ofServer ⟨⟨?_, sent, received⟩, ?_⟩ talk.serverQuiet types rfl rfl
  · exact (List.length_append ..).trans (congrArg (· + 1) lines)
  · exact lines ▸ text

theorem Talk.clientFgets (talk : Talk texts state)
    (reading : (state.process .client).place = .reading)
    (more : (state.process .client).stdin ≠ []) :
    Talk texts (state.set .client (state.process .client).fgets) := by
  have client := talk.client
  simp only [ClientAt, reading] at client
  obtain ⟨⟨lines, sent, received⟩, quiet⟩ := client
  obtain ⟨types, text⟩ := (talk.types .client).fgets more
  refine talk.ofClient (by rw [reading]; nofun) ⟨⟨?_, sent, received⟩, quiet, ?_⟩
    talk.clientQuiet types rfl rfl
  · exact (List.length_append ..).trans (congrArg (· + 1) lines)
  · exact lines ▸ text

/-- `send` takes the whole string in the buffer. -/
theorem sent_send {program : Program} (nonempty : cstr process.buffer ≠ []) :
    (process.send program (cstr process.buffer).length).sent =
      process.sent ++ [cstr process.buffer] := by
  rw [Process.send, if_neg (Nat.ne_of_gt (List.length_pos_iff.mpr nonempty)), List.take_length]

theorem length_sent_send {program : Program} (nonempty : cstr process.buffer ≠ []) :
    (process.send program (cstr process.buffer).length).sent.length =
      process.sent.length + 1 := by
  rw [sent_send nonempty, List.length_append, List.length_singleton]

/-- What is sent is what has been typed. -/
theorem Types.send {program : Program} (types : Types own process)
    (nonempty : cstr process.buffer ≠ [])
    (text : own[process.sent.length]? = some (cstr process.buffer)) :
    Types own (process.send program (cstr process.buffer).length) where
  rest := types.rest
  clean := types.clean
  sent := by
    rw [sent_send nonempty]
    exact take_succ_of_getElem? types.sent text

/-- A text gets into an empty stream. -/
theorem Carries.send {stream text : List Byte} {sent received : List (List Byte)}
    (carries : Carries stream sent received) (arrived : sent.length ≤ received.length)
    (clean : 0 ∉ text) (nonempty : text ≠ []) :
    Carries (stream ++ text.take text.length) (sent ++ [text]) received := by
  obtain ⟨empty, same⟩ := carries.eq_nil arrived
  rw [empty, same, List.nil_append, List.take_length]
  exact ⟨clean, .inr ⟨nonempty, rfl⟩⟩

theorem Talk.serverSend (talk : Talk texts state)
    (sending : (state.process .server).place = .sending)
    (nonempty : cstr (state.process .server).buffer ≠ []) :
    Talk texts { state.set .server ((state.process .server).send (pair.program .server)
        (cstr (state.process .server).buffer).length) with
      stream := Function.update state.stream .server (state.stream .server ++
        (cstr (state.process .server).buffer).take (cstr (state.process .server).buffer).length)
      sends := state.sends ++ [.server] } := by
  have server := talk.server
  simp only [ServerAt, sending] at server
  obtain ⟨⟨lines, sent, received⟩, text⟩ := server
  have behind := (talk.client.quiet talk.clientQuiet.2).2
  have toServer := (talk.carries .client).le
  have toClient := (talk.carries .server).le
  simp only [Side.other] at toServer toClient
  have arrived : (state.process .server).sent.length = (state.process .client).received.length := by
    omega
  have sends : ((state.process .server).send (pair.program .server)
      (cstr (state.process .server).buffer).length).sent =
      (state.process .server).sent ++ [cstr (state.process .server).buffer] := sent_send nonempty
  have longer : ((state.process .server).send (pair.program .server)
      (cstr (state.process .server).buffer).length).sent.length =
      (state.process .server).sent.length + 1 := length_sent_send nonempty
  exact {
    server := by
      have place : (pair.program .server).afterSend = .receiving := by cases pair <;> rfl
      change ServerAt _ _ _ ((state.process .server).send _ _)
      simp only [ServerAt, Process.send, place]
      exact ⟨⟨lines, longer.trans (congrArg (· + 1) sent), received⟩, text⟩
    client := talk.client
    serverQuiet := talk.serverQuiet
    clientQuiet := talk.clientQuiet
    types := fun
      | .server => (talk.types .server).send nonempty (sent ▸ text)
      | .client => talk.types .client
    carries := fun
      | .server => by
          change Carries (Function.update state.stream Side.server _ Side.server)
            ((state.process .server).send _ _).sent (state.process .client).received
          rw [sends, Function.update_self]
          exact (talk.carries .server).send (Nat.le_of_eq arrived) (zero_not_mem_cstr _) nonempty
      | .client => talk.carries .client
    sends := by
      change state.sends ++ [.server] = turns (((state.process .server).send _ _).sent.length +
        (state.process .client).sent.length)
      rw [longer, Nat.add_right_comm, turns_succ, ← talk.sends, if_pos (by omega)] }

theorem Talk.clientSend (talk : Talk texts state)
    (sending : (state.process .client).place = .sending)
    (nonempty : cstr (state.process .client).buffer ≠ []) :
    Talk texts { state.set .client ((state.process .client).send (pair.program .client)
        (cstr (state.process .client).buffer).length) with
      stream := Function.update state.stream .client (state.stream .client ++
        (cstr (state.process .client).buffer).take (cstr (state.process .client).buffer).length)
      sends := state.sends ++ [.client] } := by
  have client := talk.client
  simp only [ClientAt, sending] at client
  obtain ⟨⟨lines, sent, received⟩, quiet, text⟩ := client
  have ahead := talk.server.sent_le.1
  have toServer := (talk.carries .client).le
  have toClient := (talk.carries .server).le
  simp only [Side.other] at toServer toClient
  have arrived : (state.process .client).sent.length = (state.process .server).received.length := by
    omega
  have sends : ((state.process .client).send (pair.program .client)
      (cstr (state.process .client).buffer).length).sent =
      (state.process .client).sent ++ [cstr (state.process .client).buffer] := sent_send nonempty
  have longer : ((state.process .client).send (pair.program .client)
      (cstr (state.process .client).buffer).length).sent.length =
      (state.process .client).sent.length + 1 := length_sent_send nonempty
  exact {
    server := by
      refine talk.server.mono fun closed => ?_
      rw [sending] at closed
      cases closed
    client := by
      have place : (pair.program .client).afterSend = .deciding := by cases pair <;> rfl
      change ClientAt _ _ ((state.process .client).send _ _)
      simp only [ClientAt, Process.send, place]
      exact .inl ⟨⟨lines, longer.trans (congrArg (· + 1) sent), received⟩, quiet, text⟩
    serverQuiet := talk.serverQuiet
    clientQuiet := talk.clientQuiet
    types := fun
      | .server => talk.types .server
      | .client => (talk.types .client).send nonempty (sent ▸ text)
    carries := fun
      | .server => talk.carries .server
      | .client => by
          change Carries (Function.update state.stream Side.client _ Side.client)
            ((state.process .client).send _ _).sent (state.process .server).received
          rw [sends, Function.update_self]
          exact (talk.carries .client).send (Nat.le_of_eq arrived) (zero_not_mem_cstr _) nonempty
    sends := by
      change state.sends ++ [.client] = turns ((state.process .server).sent.length +
        ((state.process .client).send _ _).sent.length)
      rw [longer, ← Nat.add_assoc, turns_succ, ← talk.sends, if_neg (by omega)] }

/-- `recv` takes the text out of the stream. -/
theorem Carries.recv {stream : List Byte} {sent received : List (List Byte)}
    (carries : Carries stream sent received) (waiting : stream ≠ []) :
    Carries [] sent (received ++ [stream]) := by
  rcases carries.2 with ⟨empty, _⟩ | ⟨_, same⟩
  · exact absurd empty waiting
  · exact ⟨List.not_mem_nil, .inl ⟨rfl, same⟩⟩

/-- A text without NUL is the string in the buffer after `recv`. -/
theorem cstr_recv {text : List Byte} (clean : 0 ∉ text) :
    cstr (process.recv text).buffer = text := by
  change cstr (overwrite process.buffer 0 (text ++ [0])) = text
  rw [cstr_overwrite, cstr_eq_self clean]

/-- The text in the buffer after `recv` is the next one of the other side. -/
theorem Types.heard {sender : Process} {stream : List Byte} (types : Types others sender)
    (carries : Carries stream sender.sent process.received) (waiting : stream ≠ []) :
    others[process.received.length]? = some (cstr (process.recv stream).buffer) := by
  rw [cstr_recv carries.1]
  exact getElem?_of_carries types.sent carries waiting

/-- `recv` takes nothing of what has been typed. -/
theorem Types.recv (types : Types own process) (text : List Byte) :
    Types own (process.recv text) :=
  ⟨types.rest, types.clean, types.sent⟩

theorem Talk.serverRecv (talk : Talk texts state)
    (receiving : (state.process .server).place = .receiving)
    (waiting : state.stream .client ≠ []) :
    Talk texts { state.set .server ((state.process .server).recv (state.stream .client)) with
      stream := Function.update state.stream .client [] } := by
  have server := talk.server
  simp only [ServerAt, receiving] at server
  obtain ⟨⟨lines, sent, received⟩, _⟩ := server
  have text := (talk.types .client).heard (talk.carries .client) waiting
  exact {
    server := by
      refine .inl ⟨⟨lines, sent, ?_⟩, received ▸ text⟩
      exact (List.length_append ..).trans (congrArg (· + 1) received)
    client := talk.client
    serverQuiet := talk.serverQuiet
    clientQuiet := talk.clientQuiet
    types := fun
      | .server => (talk.types .server).recv _
      | .client => talk.types .client
    carries := fun
      | .server => talk.carries .server
      | .client => (talk.carries .client).recv waiting
    sends := talk.sends }

theorem Talk.clientRecv (talk : Talk texts state)
    (receiving : (state.process .client).place = .receiving)
    (waiting : state.stream .server ≠ []) :
    Talk texts { state.set .client ((state.process .client).recv (state.stream .server)) with
      stream := Function.update state.stream .server [] } := by
  have client := talk.client
  simp only [ClientAt, receiving] at client
  obtain ⟨lines, sent, received⟩ := client
  have text := (talk.types .server).heard (talk.carries .server) waiting
  exact {
    server := by
      refine talk.server.mono fun closed => ?_
      rw [receiving] at closed
      cases closed
    client := by
      refine ⟨⟨lines, sent, ?_⟩, received ▸ text⟩
      exact (List.length_append ..).trans (congrArg (· + 1) received)
    serverQuiet := talk.serverQuiet
    clientQuiet := talk.clientQuiet
    types := fun
      | .server => talk.types .server
      | .client => (talk.types .client).recv _
    carries := fun
      | .server => (talk.carries .server).recv waiting
      | .client => talk.carries .client
    sends := talk.sends }

/-- If the client has closed and all has been received, the server has sent `quit`. -/
theorem Talk.sent_quit (talk : Talk texts state)
    (receiving : (state.process .server).place = .receiving) (empty : state.stream .client = [])
    (closed : (state.process .client).place = .closed) :
    cstr (state.process .server).buffer = quitLine := by
  have server := talk.server
  simp only [ServerAt, receiving] at server
  obtain ⟨⟨_, _, received⟩, text⟩ := server
  have client := talk.client
  simp only [ClientAt, closed] at client
  obtain ⟨replied, quit⟩ := client
  have arrived : (state.process .client).sent = (state.process .server).received := by
    rcases (talk.carries .client).2 with ⟨_, same⟩ | ⟨waiting, _⟩
    · exact same
    · exact absurd empty waiting
  rcases replied with ⟨⟨_, replies, _⟩, _, reply⟩ | ⟨⟨_, replies, _⟩, heard, _⟩
  · -- the server has received the `quit` of the client before
    rw [arrived, received] at replies
    refine absurd (reply.trans (congrArg some quit)) (talk.serverQuiet _ ?_)
    omega
  · rw [arrived, received] at replies
    rw [← replies, text, quit] at heard
    exact Option.some.inj heard

theorem Talk.serverHears (talk : Talk texts state)
    (receiving : (state.process .server).place = .receiving) (empty : state.stream .client = [])
    (closed : (state.process .client).place = .closed) :
    Talk texts (state.set .server { state.process .server with place := .printing }) := by
  have server := talk.server
  simp only [ServerAt, receiving] at server
  have quit := talk.sent_quit receiving empty closed
  exact talk.ofServer (.inr ⟨server.1, server.2, closed, quit⟩) talk.serverQuiet
    ⟨(talk.types .server).rest, (talk.types .server).clean, (talk.types .server).sent⟩ rfl rfl

/-- The client never waits for a server that has closed. -/
theorem Talk.client_not_receiving (talk : Talk texts state)
    (receiving : (state.process .client).place = .receiving) (empty : state.stream .server = [])
    (closed : (state.process .server).place = .closed) : False := by
  have client := talk.client
  simp only [ClientAt, receiving] at client
  obtain ⟨_, _, received⟩ := client
  have server := talk.server
  simp only [ServerAt, closed] at server
  obtain ⟨answered, quit⟩ := server
  have arrived : (state.process .server).sent = (state.process .client).received := by
    rcases (talk.carries .server).2 with ⟨_, same⟩ | ⟨waiting, _⟩
    · exact same
    · exact absurd empty waiting
  rcases answered with ⟨⟨_, sent, _⟩, heard⟩ | ⟨_, _, gone, _⟩
  · rw [arrived, received] at sent
    refine talk.clientQuiet.1 _ ?_ (heard.trans (congrArg some quit))
    omega
  · cases receiving.symm.trans gone

/-- The steps of the server in which no call can fail. -/
theorem Talk.serverGo {after : Process} (talk : Talk texts state)
    (went : (state.process .server).go (pair.program .server) = some after) :
    Talk texts (state.set .server after) := by
  have server := talk.server
  have same : ∀ {place : Place} {printed : List (List Byte)}, Types (texts .server)
      { state.process .server with place := place, printed := printed } := fun {_ _} =>
    ⟨(talk.types .server).rest, (talk.types .server).clean, (talk.types .server).sent⟩
  have afterPrint : (pair.program .server).afterPrint = .deciding := by cases pair <;> rfl
  have first : (pair.program .server).first = .reading := by cases pair <;> rfl
  rcases go_cases went with ⟨place, rfl⟩ | ⟨place, _, rfl⟩ | ⟨place, _, rfl⟩ | ⟨place, quit, rfl⟩ |
    ⟨place, goesOn, rfl⟩ | ⟨place, rfl⟩ <;> simp only [ServerAt, place] at server
  · rw [afterPrint]
    exact talk.ofServer server talk.serverQuiet same rfl rfl
  · exact talk.ofServer ⟨server, quit⟩ talk.serverQuiet same rfl rfl
  · rcases server with ⟨counts, heard⟩ | ⟨_, _, _, quit⟩
    · rw [first]
      exact talk.ofServer counts (talk.serverQuiet.succ heard goesOn)
        ⟨(talk.types .server).rest, (talk.types .server).clean, (talk.types .server).sent⟩ rfl rfl
    · exact absurd quit goesOn
  · exact talk.ofServer server talk.serverQuiet same rfl rfl

theorem Talk.clientGo {after : Process} (talk : Talk texts state)
    (went : (state.process .client).go (pair.program .client) = some after) :
    Talk texts (state.set .client after) := by
  have client := talk.client
  have same : ∀ {place : Place} {printed : List (List Byte)}, Types (texts .client)
      { state.process .client with place := place, printed := printed } := fun {_ _} =>
    ⟨(talk.types .client).rest, (talk.types .client).clean, (talk.types .client).sent⟩
  have afterPrint : (pair.program .client).afterPrint = .testing := by cases pair <;> rfl
  have first : (pair.program .client).first = .receiving := by cases pair <;> rfl
  have stays : (state.process .client).place ≠ .closed := by
    intro closed
    rw [Process.go, closed] at went
    cases went
  rcases go_cases went with ⟨place, rfl⟩ | ⟨place, quit, rfl⟩ | ⟨place, goesOn, rfl⟩ |
    ⟨place, quit, rfl⟩ | ⟨place, goesOn, rfl⟩ | ⟨place, rfl⟩ <;>
    simp only [ClientAt, place] at client
  · rw [afterPrint]
    exact talk.ofClient stays client talk.clientQuiet same rfl rfl
  · exact talk.ofClient stays (.inr ⟨client.1, client.2, quit⟩) talk.clientQuiet same rfl rfl
  · exact talk.ofClient stays ⟨client.1, talk.clientQuiet.2.succ client.2 goesOn⟩
      talk.clientQuiet same rfl rfl
  · exact talk.ofClient stays ⟨client, quit⟩ talk.clientQuiet same rfl rfl
  · rcases client with ⟨counts, quiet, reply⟩ | ⟨_, _, quit⟩
    · rw [first]
      exact talk.ofClient stays counts ⟨talk.clientQuiet.1.succ reply goesOn, quiet⟩
        ⟨(talk.types .client).rest, (talk.types .client).clean, (talk.types .client).sent⟩ rfl rfl
    · exact absurd quit goesOn
  · exact talk.ofClient stays client talk.clientQuiet same rfl rfl

/-- The text that a program is about to send is one of its lines. -/
theorem Talk.sends_text (talk : Talk texts state)
    (sending : (state.process side).place = .sending) :
    cstr (state.process side).buffer ∈ texts side := by
  cases side with
  | server =>
      have server := talk.server
      simp only [ServerAt, sending] at server
      exact List.mem_of_getElem? server.2
  | client =>
      have client := talk.client
      simp only [ClientAt, sending] at client
      exact List.mem_of_getElem? client.2.2

theorem talk_next {after : State} {action : Action} (talk : Talk texts state)
    (nonempty : ∀ side, ∀ text ∈ texts side, text ≠ []) (whole : Whole state action)
    (moved : next pair state action = some after) : Talk texts after := by
  cases action with
  | fgets side delivers =>
      cases whole
      simp only [next, if_true, Option.ite_none_right_eq_some, Option.some.injEq] at moved
      obtain ⟨reading, more, rfl⟩ := moved
      cases side with
      | server => exact talk.serverFgets reading more
      | client => exact talk.clientFgets reading more
  | send side count =>
      cases whole
      simp only [next, Option.ite_none_right_eq_some, Option.some.injEq] at moved
      obtain ⟨⟨sending, _⟩, rfl⟩ := moved
      have text := nonempty side _ (talk.sends_text sending)
      rw [if_neg (Nat.ne_of_gt (List.length_pos_iff.mpr text))]
      cases side with
      | server => exact talk.serverSend sending text
      | client => exact talk.clientSend sending text
  | recv side size =>
      cases whole
      cases stream : state.stream side.other with
      | nil =>
          rw [stream] at moved
          simp only [List.length_nil, next, Option.ite_none_right_eq_some, Option.some.injEq]
            at moved
          obtain ⟨⟨receiving, empty, closed⟩, rfl⟩ := moved
          cases side with
          | server => exact talk.serverHears receiving empty closed
          | client => exact (talk.client_not_receiving receiving empty closed).elim
      | cons byte rest =>
          have waiting : state.stream side.other ≠ [] := stream ▸ List.cons_ne_nil byte rest
          have long : (state.stream side.other).length = rest.length + 1 := by
            rw [stream, List.length_cons]
          rw [long] at moved
          simp only [next, Option.ite_none_right_eq_some, Option.some.injEq] at moved
          obtain ⟨⟨receiving, _⟩, rfl⟩ := moved
          rw [← long, List.take_length, List.drop_length]
          cases side with
          | server => exact talk.serverRecv receiving waiting
          | client => exact talk.clientRecv receiving waiting
  | go side =>
      simp only [next, Option.map_eq_some_iff] at moved
      obtain ⟨process, went, rfl⟩ := moved
      cases side with
      | server => exact talk.serverGo went
      | client => exact talk.clientGo went
  | kill side => exact whole.elim

/-- Before the first step nothing has been read. -/
theorem talk_start (pair : Pair) (buffer stdin : Side → List Byte)
    (clean : ∀ side, 0 ∉ stdin side) :
    Talk (fun side => LineInput.pieces buf (stdin side)) (start pair buffer stdin) where
  server := by
    have first : (pair.program .server).first = .reading := by cases pair <;> rfl
    change ServerAt _ _ _ (Process.start (pair.program .server) _ _)
    simp only [ServerAt, Process.start, first]
    exact ⟨rfl, rfl, rfl⟩
  client := by
    have first : (pair.program .client).first = .receiving := by cases pair <;> rfl
    change ClientAt _ _ (Process.start (pair.program .client) _ _)
    simp only [ClientAt, Process.start, first]
    exact ⟨rfl, rfl, rfl⟩
  serverQuiet := fun _ small => (Nat.not_lt_zero _ small).elim
  clientQuiet := ⟨fun _ small => (Nat.not_lt_zero _ small).elim,
    fun _ small => (Nat.not_lt_zero _ small).elim⟩
  types side := ⟨rfl, clean side, rfl⟩
  carries _ := ⟨List.not_mem_nil, .inl ⟨rfl, rfl⟩⟩
  sends := rfl

theorem talk_invariant (pair : Pair) (stdin : Side → List Byte) (clean : ∀ side, 0 ∉ stdin side) :
    ((chat pair stdin).restrict Whole).Invariant
      (Talk fun side => LineInput.pieces buf (stdin side)) where
  initial := by
    rintro _ ⟨buffer, _, rfl⟩
    exact talk_start pair buffer stdin clean
  step _ _ _ talk moved :=
    talk_next talk (fun _ _ => LineInput.ne_nil_of_mem_pieces) moved.1 moved.2

end LinuxUnix.Chat

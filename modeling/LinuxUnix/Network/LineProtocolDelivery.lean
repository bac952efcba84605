import LinuxUnix.Network.LineProtocolRound

/-! # The lines that the select server prints

As long as every `recv` takes one line, a client with something to read has a line at the
start of its stream (`LinuxUnix.LineProtocol.Consistent.exists_line`), and what the server
prints for it is this line. The first `recv` that takes anything else is the first one after
which something else has been printed (`LinuxUnix.LineProtocol.served_iff_takesLines`).
-/

namespace LinuxUnix.LineProtocol

open CMemory MultiServer TransitionSystem

theorem firstLine_flatten {line : List Byte} (isLine : IsLine line) (rest : List (List Byte)) :
    firstLine (line :: rest).flatten = line := by
  obtain ⟨text, rfl, unbroken⟩ := isLine.ended
  have stops : ((text ++ [10]) :: rest).flatten.takeWhile (· != 10) = text := by
    rw [List.flatten_cons, List.append_assoc, List.takeWhile_append_of_pos]
    · exact List.append_nil text
    · intro byte member
      rw [bne_iff_ne]
      rintro rfl
      exact unbroken member
  rw [firstLine, stops, List.flatten_cons]
  exact List.take_left' (by rw [List.length_append, List.length_singleton])

theorem isLine_quitLine : IsLine quitLine where
  ended := ⟨['q'.toUInt8, 'u'.toUInt8, 'i'.toUInt8, 't'.toUInt8], rfl, by decide⟩
  clean := by decide
  short := by decide

theorem Typed.isLine_of_mem (typed : Typed) {line : List Byte} (member : line ∈ typed.all) :
    IsLine line := by
  cases List.mem_append.mp member with
  | inl earlier => exact typed.isLine line earlier
  | inr last => exact List.mem_singleton.mp last ▸ isLine_quitLine

/-- The line `quit` is the last one, and no other. -/
theorem Typed.quit_iff {typed : Typed} {front back : List (List Byte)} {line : List Byte}
    (split : typed.all = front ++ line :: back) : line = quitLine ↔ back = [] := by
  rw [Typed.all] at split
  rcases List.eq_nil_or_concat back with rfl | ⟨others, last, rfl⟩
  · have same := (List.append_inj' split rfl).2
    exact ⟨fun _ => rfl, fun _ => (List.cons.inj same).1.symm⟩
  · rw [List.concat_eq_append] at split ⊢
    rw [← List.cons_append, ← List.append_assoc] at split
    have same := (List.append_inj' split rfl).1
    constructor
    · rintro rfl
      apply absurd _ typed.notQuit
      rw [same]
      exact List.mem_append_right _ List.mem_cons_self
    · exact fun nothing => absurd nothing (List.concat_ne_nil _ _)

/-- What `recv` delivers on a descriptor. -/
def sentOn (input : Round) (fd : ℕ) : List Byte :=
  (input.received fd).getD []

variable {Client : Type*} [DecidableEq Client] {typed : Client → Typed} {before : State Client}
  {input : Round} {who client : Client} {fd : ℕ}

/-- The clients that the server knows are those in its tables. -/
structure Consistent (typed : Client → Typed) (state : State Client) : Prop where
  served : Served typed state
  table : Table state.server
  known : ∀ fd ∈ state.server.gesamtSock,
    fd = state.server.sock1 ∨ ∃ client, state.link client = .socket fd
  linked : ∀ client fd, state.link client = .socket fd →
    fd ∈ state.server.gesamtSock ∧ fd ≠ state.server.sock1
  distinct : ∀ first second fd, state.link first = .socket fd → state.link second = .socket fd →
    first = second

omit [DecidableEq Client] in
/-- A client with something to read has a line in its stream: the end of the stream comes
after the line `quit`, when the client has been taken out of the tables. -/
theorem Consistent.exists_line (consistent : Consistent typed before)
    (returns : Returns before input who) (link : before.link client = .socket fd)
    (ready : fd ∈ input.leseSock) :
    ∃ line waiting, IsLine line ∧
      (typed client).all = before.printed client ++ line :: (waiting ++ before.unsent client) ∧
        before.stream client = (line :: waiting).flatten := by
  obtain ⟨waiting, all, stream⟩ := consistent.served.lines client
  cases waiting with
  | cons line waiting =>
      rw [List.append_assoc, List.cons_append] at all
      refine ⟨line, waiting, (typed client).isLine_of_mem ?_, all, stream⟩
      rw [all]
      exact List.mem_append_right _ List.mem_cons_self
  | nil =>
      obtain ⟨data, _, part, _, ended⟩ := returns.received client fd link ready
      rw [stream] at part
      have nothing := (ended (List.prefix_nil.mp part)).2
      rw [nothing, List.append_nil, List.append_nil] at all
      have removed := (consistent.served.removed client).mpr all.symm
      cases link.symm.trans removed

omit [DecidableEq Client] in
/-- What has been sent is text. -/
theorem Consistent.clean (consistent : Consistent typed before) (client : Client) :
    0 ∉ before.stream client := by
  obtain ⟨waiting, all, stream⟩ := consistent.served.lines client
  rw [stream]
  intro member
  obtain ⟨line, inside, zero⟩ := List.mem_flatten.mp member
  refine ((typed client).isLine_of_mem ?_).clean zero
  rw [all]
  exact List.mem_append_left _ (List.mem_append_right _ inside)

omit [DecidableEq Client] in
theorem Consistent.exists_exchange (consistent : Consistent typed before)
    (returns : Returns before input who) (fresh : AcceptsFresh before.server input) :
    ∃ after, Exchange (sentOn input) before.server input after := by
  apply LineProtocol.exists_exchange consistent.table returns.selects fresh
  intro fd ready other
  obtain ⟨client, link⟩ :=
    (consistent.known fd (returns.selects.subset ready)).resolve_left other
  obtain ⟨data, received, part, _⟩ := returns.received client fd link ready
  rw [sentOn, received]
  exact ⟨rfl, fun zero => consistent.clean client (part.subset zero)⟩

theorem afterRound_of_exchange {after : Progress} (fresh : AcceptsFresh before.server input)
    (exchange : Exchange (sentOn input) before.server input after) :
    afterRound before input who = before.proceed input who after := by
  rw [afterRound, if_neg, exchange.returned]
  rintro ⟨ready, fd, taken, large⟩
  obtain ⟨sock2, accepted, _, small⟩ := fresh ready
  cases accepted.symm.trans taken
  exact Nat.lt_irrefl _ (Nat.lt_of_lt_of_le small large)

/-- The client is accepted in the round, with a descriptor that was not open. -/
structure IsNew (before : State Client) (input : Round) (who client : Client) (fd : ℕ) : Prop where
  accepting : before.accepting input who client = .socket fd
  same : client = who
  link : before.link client = .backlog
  ready : before.server.sock1 ∈ input.leseSock
  accepted : input.accepted = some fd
  closed : fd ∉ before.server.opened

/-- Only the new client gets a descriptor. -/
theorem accepting_cases (returns : Returns before input who) (client : Client) :
    before.accepting input who client = before.link client ∨
      ∃ fd, IsNew before input who client fd := by
  by_cases ready : before.server.sock1 ∈ input.leseSock
  · cases accepted : input.accepted with
    | none =>
        left
        rw [State.accepting, if_pos ready, accepted]
    | some fd =>
        have new : before.accepting input who = Function.update before.link who (.socket fd) := by
          rw [State.accepting, if_pos ready, accepted]
        by_cases same : client = who
        · subst same
          have returned := returns.accepted ready
          refine .inr ⟨fd, ?_, rfl, returned.1, ready, accepted, returned.2 fd accepted⟩
          rw [new, Function.update_self]
        · left
          rw [new, Function.update_of_ne same]
  · left
    rw [State.accepting, if_neg ready]

theorem accepting_of_ne_backlog (returns : Returns before input who)
    (other : before.link client ≠ .backlog) :
    before.accepting input who client = before.link client := by
  rcases accepting_cases returns client with same | ⟨_, new⟩
  · exact same
  · exact absurd new.link other

theorem accepting_eq_removed (returns : Returns before input who) :
    before.accepting input who client = .removed ↔ before.link client = .removed := by
  rcases accepting_cases returns client with same | ⟨_, new⟩
  · rw [same]
  · rw [new.accepting, new.link]
    exact iff_of_false (by intro same; cases same) (by intro same; cases same)

/-- A client with a descriptor has had it before, or is the new one. -/
theorem accepting_eq_socket (returns : Returns before input who)
    (linked : before.accepting input who client = .socket fd) :
    before.link client = .socket fd ∨ IsNew before input who client fd := by
  rcases accepting_cases returns client with same | ⟨other, new⟩
  · exact .inl (same.symm.trans linked)
  · cases new.accepting.symm.trans linked
    exact .inr new

/-- A client that has a descriptor after a round is registered with it. -/
theorem relink_eq_socket {gesamtSock : Finset ℕ} {link : Link} :
    relink gesamtSock link = .socket fd ↔ link = .socket fd ∧ fd ∈ gesamtSock := by
  cases link with
  | unconnected => exact iff_of_false (by intro same; cases same) (by rintro ⟨same, _⟩; cases same)
  | backlog => exact iff_of_false (by intro same; cases same) (by rintro ⟨same, _⟩; cases same)
  | removed => exact iff_of_false (by intro same; cases same) (by rintro ⟨same, _⟩; cases same)
  | socket other =>
      rw [relink, Link.socket.injEq]
      split
      · rename_i member
        rw [Link.socket.injEq]
        exact ⟨fun same => ⟨same, same ▸ member⟩, And.left⟩
      · rename_i absent
        apply iff_of_false (by intro same; cases same)
        rintro ⟨rfl, member⟩
        exact absent member

section

variable {after : Progress} (consistent : Consistent typed before)
  (returns : Returns before input who)
  (exchange : Exchange (sentOn input) before.server input after)

include consistent returns exchange

/-- The server prints what `recv` has taken for a client with something to read, and takes the
client out of its tables if it is the line `quit`. -/
theorem proceed_of_ready (link : before.link client = .socket fd) (ready : fd ∈ input.leseSock) :
    ∃ data, input.received fd = some data ∧
      (before.proceed input who after).link client =
        (if data = quitLine then .removed else .socket fd) ∧
      (before.proceed input who after).stream client =
        (before.stream client).drop data.length ∧
      (before.proceed input who after).printed client = before.printed client ++ [data] := by
  obtain ⟨data, received, _⟩ := returns.received client fd link ready
  obtain ⟨member, other⟩ := consistent.linked client fd link
  have linked : before.accepting input who client = .socket fd := by
    rw [accepting_of_ne_backlog returns (by rw [link]; intro same; cases same), link]
  have sent : sentOn input fd = data := by rw [sentOn, received, Option.getD_some]
  refine ⟨data, received, ?_, ?_, ?_⟩
  · change relink after.state.gesamtSock (before.accepting input who client) = _
    rw [linked, relink]
    by_cases quit : data = quitLine
    · rw [if_pos quit, if_neg]
      intro kept
      exact ((exchange.registered fd).mp kept).2 ⟨⟨ready, other⟩, sent.trans quit⟩
    · rw [if_neg quit, if_pos]
      exact (exchange.registered fd).mpr ⟨.inl member, fun left => quit (sent ▸ left.2)⟩
  · change unread input after.calls _ (before.accepting input who client) = _
    rw [linked, unread, if_pos ((exchange.recvs fd).mpr ⟨ready, other⟩), received, Option.getD_some]
  · change printing after.calls _ (before.accepting input who client) = _
    rw [linked, printing, exchange.texts, if_pos ⟨ready, other⟩, sent]

/-- Nothing happens to a client with nothing to read, unless it is accepted. -/
theorem proceed_of_idle (idle : ∀ fd, before.link client = .socket fd → fd ∉ input.leseSock) :
    (before.proceed input who after).link client = before.accepting input who client ∧
      (before.proceed input who after).stream client = before.stream client ∧
      (before.proceed input who after).printed client = before.printed client := by
  change relink after.state.gesamtSock (before.accepting input who client) = _ ∧
    unread input after.calls _ (before.accepting input who client) = _ ∧
    printing after.calls _ (before.accepting input who client) = _
  cases accepted : before.accepting input who client with
  | unconnected => exact ⟨rfl, rfl, rfl⟩
  | backlog => exact ⟨rfl, rfl, rfl⟩
  | removed => exact ⟨rfl, rfl, rfl⟩
  | socket fd =>
      have quiet : fd ∉ input.leseSock ∧ (fd ∈ before.server.gesamtSock ∨
          (before.server.sock1 ∈ input.leseSock ∧ input.accepted = some fd)) := by
        rcases accepting_eq_socket returns accepted with link | new
        · exact ⟨idle fd link, .inl (consistent.linked client fd link).1⟩
        · refine ⟨fun member => new.closed ?_, .inr ⟨new.ready, new.accepted⟩⟩
          exact consistent.table.opened (returns.selects.subset member)
      refine ⟨?_, ?_, ?_⟩
      · rw [relink, if_pos]
        exact (exchange.registered fd).mpr ⟨quiet.2, fun left => quiet.1 left.1.1⟩
      · rw [unread, if_neg]
        exact fun received => quiet.1 ((exchange.recvs fd).mp received).1
      · rw [printing, exchange.texts, if_neg fun received => quiet.1 received.1, List.append_nil]

/-- A round in which every `recv` takes one line. -/
theorem served_proceed (takes : ∀ client fd, before.link client = .socket fd →
      fd ∈ input.leseSock → input.received fd = some (firstLine (before.stream client))) :
    Served typed (before.proceed input who after) := by
  have served : ∀ client,
      (∃ waiting, (typed client).all = (before.proceed input who after).printed client ++ waiting ++
          before.unsent client ∧
        (before.proceed input who after).stream client = waiting.flatten) ∧
      ((before.proceed input who after).link client = .removed ↔
        (before.proceed input who after).printed client = (typed client).all) := by
    intro client
    by_cases something : ∃ fd, before.link client = .socket fd ∧ fd ∈ input.leseSock
    · obtain ⟨fd, link, ready⟩ := something
      obtain ⟨data, received, linked, stream, printed⟩ :=
        proceed_of_ready consistent returns exchange link ready
      obtain ⟨line, waiting, isLine, all, sent⟩ := consistent.exists_line returns link ready
      have same : data = line := by
        have taken := takes client fd link ready
        rw [sent, firstLine_flatten isLine] at taken
        exact Option.some.inj (received.symm.trans taken)
      subst same
      have whole : before.printed client ++ [data] = (typed client).all ↔ data = quitLine := by
        rw [Typed.quit_iff all, all, List.append_right_inj, List.cons_inj_right]
        exact eq_comm
      rw [linked, stream, printed, sent, whole]
      refine ⟨⟨waiting, ?_, List.drop_left' rfl⟩, ?_⟩
      · rw [all, List.append_assoc, List.append_assoc]
        rfl
      · by_cases quit : data = quitLine
        · rw [if_pos quit]
          exact ⟨fun _ => quit, fun _ => rfl⟩
        · rw [if_neg quit]
          exact iff_of_false (by intro same; cases same) quit
    · have idle : ∀ fd, before.link client = .socket fd → fd ∉ input.leseSock :=
        fun fd link ready => something ⟨fd, link, ready⟩
      obtain ⟨linked, stream, printed⟩ := proceed_of_idle consistent returns exchange idle
      rw [linked, stream, printed, accepting_eq_removed returns]
      exact ⟨consistent.served.lines client, consistent.served.removed client⟩
  exact ⟨consistent.served.running, fun client => (served client).1,
    fun client => (served client).2⟩

/-- The clients that the server knows are those in its tables after the round, too. -/
theorem consistent_proceed (served : Served typed (before.proceed input who after)) :
    Consistent typed (before.proceed input who after) where
  served
  table := exchange.table
  known := by
    intro fd member
    change fd = after.state.sock1 ∨ _
    rw [exchange.listening]
    rcases ((exchange.registered fd).mp member).1 with earlier | ⟨ready, accepted⟩
    · rcases consistent.known fd earlier with same | ⟨client, link⟩
      · exact .inl same
      · refine .inr ⟨client, relink_eq_socket.mpr ⟨?_, member⟩⟩
        rw [accepting_of_ne_backlog returns (by rw [link]; intro same; cases same), link]
    · refine .inr ⟨who, relink_eq_socket.mpr ⟨?_, member⟩⟩
      rw [State.accepting, if_pos ready, accepted]
      exact Function.update_self ..
  linked := by
    intro client fd link
    obtain ⟨linked, member⟩ := relink_eq_socket.mp link
    refine ⟨member, ?_⟩
    change fd ≠ after.state.sock1
    rw [exchange.listening]
    rcases accepting_eq_socket returns linked with earlier | new
    · exact (consistent.linked client fd earlier).2
    · rintro rfl
      exact new.closed (consistent.table.opened (returns.selects.subset new.ready))
  distinct := by
    intro first second fd link link'
    have closed : ∀ {client}, before.link client = .socket fd → fd ∈ before.server.opened :=
      fun earlier => consistent.table.opened (consistent.linked _ fd earlier).1
    rcases accepting_eq_socket returns (relink_eq_socket.mp link).1 with earlier | new
    · rcases accepting_eq_socket returns (relink_eq_socket.mp link').1 with earlier' | new'
      · exact consistent.distinct first second fd earlier earlier'
      · exact absurd (closed earlier) new'.closed
    · rcases accepting_eq_socket returns (relink_eq_socket.mp link').1 with earlier' | new'
      · exact absurd (closed earlier') new.closed
      · exact new.same.trans new'.same.symm

end

omit [DecidableEq Client] in
theorem consistent_start {state : State Client} (started : Start typed state) :
    Consistent typed state := by
  obtain ⟨sock1, opened, buffer, listening, _, rfl⟩ := started
  refine ⟨⟨rfl, fun who => ⟨[], rfl, rfl⟩, ?_⟩, table_start listening, ?_, ?_, ?_⟩
  · intro who
    refine iff_of_false (by intro same; cases same) fun same => ?_
    exact List.append_ne_nil_of_right_ne_nil _ (List.cons_ne_nil _ _) same.symm
  · exact fun fd member => .inl (Finset.mem_singleton.mp member)
  · intro client fd link
    cases link
  · intro first second fd link _
    cases link

theorem Consistent.connect (consistent : Consistent typed before)
    (link : before.link who = .unconnected) : Consistent typed (before.connect who) := by
  have kept : ∀ {value}, value ≠ .unconnected → value ≠ .backlog → ∀ client,
      Function.update before.link who .backlog client = value ↔ before.link client = value := by
    intro value unconnected waiting client
    by_cases same : client = who
    · subst same
      rw [Function.update_self, link]
      exact iff_of_false waiting.symm unconnected.symm
    · rw [Function.update_of_ne same]
  have socket : ∀ {client fd}, Function.update before.link who .backlog client = .socket fd ↔
      before.link client = .socket fd :=
    fun {client fd} => kept Link.noConfusion Link.noConfusion client
  refine ⟨⟨consistent.served.running, consistent.served.lines, ?_⟩, consistent.table, ?_, ?_, ?_⟩
  · intro client
    exact (kept (by decide) (by decide) client).trans (consistent.served.removed client)
  · intro fd member
    rcases consistent.known fd member with same | ⟨client, linked⟩
    · exact .inl same
    · exact .inr ⟨client, socket.mpr linked⟩
  · exact fun client fd linked => consistent.linked client fd (socket.mp linked)
  · exact fun first second fd linked linked' =>
      consistent.distinct first second fd (socket.mp linked) (socket.mp linked')

theorem Consistent.send (consistent : Consistent typed before) {line : List Byte}
    {unsent : List (List Byte)} (next : before.unsent who = line :: unsent) :
    Consistent typed (before.send who line unsent) := by
  refine ⟨⟨consistent.served.running, ?_, consistent.served.removed⟩, consistent.table,
    consistent.known, consistent.linked, consistent.distinct⟩
  intro client
  obtain ⟨waiting, all, stream⟩ := consistent.served.lines client
  unfold State.send
  dsimp only
  by_cases same : client = who
  · subst same
    refine ⟨waiting ++ [line], ?_, ?_⟩
    · rw [all, next, Function.update_self, List.append_assoc, List.append_assoc,
        List.append_assoc]
      rfl
    · rw [Function.update_self, stream, List.flatten_append, List.flatten_singleton]
  · rw [Function.update_of_ne same, Function.update_of_ne same]
    exact ⟨waiting, all, stream⟩

omit [DecidableEq Client] in
theorem Returns.fresh (returns : Returns before input who)
    (accepts : before.server.sock1 ∈ input.leseSock →
      ∃ fd, input.accepted = some fd ∧ fd < fdSetSize) : AcceptsFresh before.server input := by
  intro ready
  obtain ⟨fd, accepted, small⟩ := accepts ready
  exact ⟨fd, accepted, (returns.accepted ready).2 fd accepted, small⟩

theorem Consistent.round (consistent : Consistent typed before)
    (returns : Returns before input who) (takes : TakesLines before (.round input who)) :
    Consistent typed (afterRound before input who) := by
  have fresh := returns.fresh takes.1
  obtain ⟨after, exchange⟩ := consistent.exists_exchange returns fresh
  rw [afterRound_of_exchange fresh exchange]
  exact consistent_proceed consistent returns exchange
    (served_proceed consistent returns exchange takes.2)

/-- A server that goes on has accepted the client that waits. -/
theorem accepts_of_running (running : (afterRound before input who).ended = false)
    (ready : before.server.sock1 ∈ input.leseSock) :
    ∃ fd, input.accepted = some fd ∧ fd < fdSetSize := by
  unfold afterRound at running
  split at running
  · cases running
  · rename_i fits
    cases accepted : input.accepted with
    | none =>
        have failed : MultiServer.round before.server input = .error .accept := by
          rw [MultiServer.round, if_pos ready, accepted]
          rfl
        rw [failed] at running
        cases running
    | some fd =>
        exact ⟨fd, rfl, Nat.lt_of_not_le fun large => fits ⟨ready, fd, accepted, large⟩⟩

/-- The lines are printed as they have been typed as long as every `recv` takes one line. -/
theorem consistent_invariant (typed : Client → Typed) :
    ((lineProtocol typed).restrict TakesLines).Invariant (Consistent typed) where
  initial _ started := consistent_start started
  step := by
    rintro before action after consistent ⟨takes, moved⟩
    cases action with
    | connect who =>
        obtain ⟨link, rfl⟩ := moved
        exact consistent.connect link
    | send who =>
        obtain ⟨_, line, unsent, next, rfl⟩ := moved
        exact consistent.send next
    | round input who =>
        obtain ⟨_, returns, rfl⟩ := moved
        exact consistent.round returns takes

/-- One client, at which the line `a` is typed, and then `quit`. -/
def oneClient (_ : Unit) : Typed where
  lines := [['a'.toUInt8, 10]]
  isLine := by
    intro line member
    rw [List.mem_singleton.mp member]
    exact ⟨⟨['a'.toUInt8], rfl, by decide⟩, by decide, by decide⟩
  notQuit := by decide

/-- The client has something to read, and `recv` returns this. -/
def oneRecv (data : List Byte) : Round where
  leseSock := {4}
  ready := 1
  accepted := none
  received _ := some data

/-- The server has accepted the client. -/
theorem exists_accepted : ∃ state : State Unit,
    ((lineProtocol oneClient).restrict TakesLines).Reachable state ∧ state.ended = false ∧
      state.link () = .socket 4 ∧ state.stream () = [] ∧ state.unsent () = (oneClient ()).all ∧
      state.printed () = [] := by
  let first : State Unit := {
    server := listening
    ended := false
    link := fun _ => .unconnected
    unsent := fun who => (oneClient who).all
    stream := fun _ => []
    printed := fun _ => [] }
  have started : ((lineProtocol oneClient).restrict TakesLines).Reachable first :=
    .initial ⟨3, {0, 1, 2, 3}, _, by decide, List.length_replicate, rfl⟩
  have connects : ((lineProtocol oneClient).restrict TakesLines).step first (.connect ())
      (first.connect ()) := ⟨trivial, rfl, rfl⟩
  have connected := started.step connects
  have consistent := (consistent_invariant oneClient).reachable connected
  have nobody : ∀ client fd, (first.connect ()).link client ≠ .socket fd := by
    intro client fd link
    cases link
  have returns : Returns (first.connect ()) firstConnection () := by
    refine ⟨⟨subset_rfl, ⟨3, by decide⟩, rfl⟩, fun _ => ⟨rfl, ?_⟩,
      fun client fd link => absurd link (nobody client fd)⟩
    intro fd accepted
    cases accepted
    decide
  have takes : TakesLines (first.connect ()) (.round firstConnection ()) :=
    ⟨fun _ => ⟨4, rfl, by unfold fdSetSize; decide⟩,
      fun client fd link => absurd link (nobody client fd)⟩
  have fresh := returns.fresh takes.1
  obtain ⟨after, exchange⟩ := consistent.exists_exchange returns fresh
  have moved : ((lineProtocol oneClient).restrict TakesLines).step (first.connect ())
      (.round firstConnection ()) ((first.connect ()).proceed firstConnection () after) :=
    ⟨takes, rfl, returns, (afterRound_of_exchange fresh exchange).symm⟩
  obtain ⟨link, stream, printed⟩ :=
    proceed_of_idle consistent returns exchange fun fd linked => absurd linked (nobody () fd)
  have registered : (first.connect ()).accepting firstConnection () () = .socket 4 := by
    rw [State.accepting, if_pos (by decide)]
    rfl
  exact ⟨_, connected.step moved, rfl, link.trans registered, stream, rfl, printed⟩

/-- The client has sent its lines. -/
theorem exists_sent : ∃ state : State Unit,
    ((lineProtocol oneClient).restrict TakesLines).Reachable state ∧ state.ended = false ∧
      state.link () = .socket 4 ∧ state.stream () = ['a'.toUInt8, 10] ++ quitLine ∧
      state.unsent () = [] ∧ state.printed () = [] := by
  obtain ⟨state, reached, running, link, stream, unsent, printed⟩ := exists_accepted
  have sends : ((lineProtocol oneClient).restrict TakesLines).step state (.send ())
      (state.send () ['a'.toUInt8, 10] [quitLine]) :=
    ⟨trivial, .inr ⟨4, link⟩, _, _, unsent, rfl⟩
  have quits : ((lineProtocol oneClient).restrict TakesLines).step
      (state.send () ['a'.toUInt8, 10] [quitLine]) (.send ())
      ((state.send () ['a'.toUInt8, 10] [quitLine]).send () quitLine []) :=
    ⟨trivial, .inr ⟨4, link⟩, _, _, rfl, rfl⟩
  refine ⟨_, (reached.step sends).step quits, running, link, ?_, rfl, printed⟩
  change state.stream () ++ ['a'.toUInt8, 10] ++ quitLine = _
  rw [stream]
  rfl

/-- `recv` may return any part of what has been sent. -/
theorem returns_oneRecv {state : State Unit} (consistent : Consistent oneClient state)
    (link : state.link () = .socket 4) {data : List Byte} (part : data <+: state.stream ())
    (short : data.length ≤ buf - 1) (something : data ≠ []) :
    Returns state (oneRecv data) () := by
  obtain ⟨member, other⟩ := consistent.linked () 4 link
  refine ⟨⟨Finset.singleton_subset_iff.mpr member, ⟨4, Finset.mem_singleton_self 4⟩, rfl⟩, ?_, ?_⟩
  · intro ready
    exact absurd (Finset.mem_singleton.mp ready).symm other
  · intro client fd _ _
    exact ⟨data, rfl, part, short, fun nothing => absurd nothing something⟩

/-- A `recv` that takes one line. -/
theorem exists_oneRecv {state : State Unit} {line rest : List Byte}
    (reached : ((lineProtocol oneClient).restrict TakesLines).Reachable state)
    (running : state.ended = false) (link : state.link () = .socket 4)
    (stream : state.stream () = line ++ rest) (first : firstLine (line ++ rest) = line)
    (short : line.length ≤ buf - 1) (something : line ≠ []) : ∃ after : State Unit,
    ((lineProtocol oneClient).restrict TakesLines).Reachable after ∧ after.ended = false ∧
      after.link () = (if line = quitLine then .removed else .socket 4) ∧
      after.stream () = rest ∧ after.printed () = state.printed () ++ [line] := by
  have consistent := (consistent_invariant oneClient).reachable reached
  have returns : Returns state (oneRecv line) () :=
    returns_oneRecv consistent link ⟨rest, stream.symm⟩ short something
  have other : state.server.sock1 ∉ (oneRecv line).leseSock := by
    intro ready
    exact (consistent.linked () 4 link).2 (Finset.mem_singleton.mp ready).symm
  have takes : TakesLines state (.round (oneRecv line) ()) := by
    refine ⟨fun ready => absurd ready other, fun client fd _ _ => ?_⟩
    rw [stream, first]
    rfl
  have fresh := returns.fresh takes.1
  obtain ⟨after, exchange⟩ := consistent.exists_exchange returns fresh
  have moved : ((lineProtocol oneClient).restrict TakesLines).step state (.round (oneRecv line) ())
      (state.proceed (oneRecv line) () after) :=
    ⟨takes, running, returns, (afterRound_of_exchange fresh exchange).symm⟩
  obtain ⟨data, received, linked, left, printed⟩ :=
    proceed_of_ready consistent returns exchange link (Finset.mem_singleton_self 4)
  cases received
  refine ⟨_, reached.step moved, running, linked, ?_, printed⟩
  rw [left, stream]
  exact List.drop_left' rfl

/-- **The first `recv` that does not take one line.** As long as every `recv` has taken one
line, a step keeps what the server prints to the lines that have been typed if and only if
`accept` succeeds in it and every `recv` takes one line. -/
theorem served_iff_takesLines {after : State Client} {action : Action Client}
    (reached : ((lineProtocol typed).restrict TakesLines).Reachable before)
    (moved : (lineProtocol typed).step before action after) :
    Served typed after ↔ TakesLines before action := by
  have invariant := consistent_invariant typed
  have consistent := invariant.reachable reached
  refine ⟨fun served => ?_, fun takes =>
    (invariant.step before action after consistent ⟨takes, moved⟩).served⟩
  cases action with
  | connect who => trivial
  | send who => trivial
  | round input who =>
      obtain ⟨_, returns, rfl⟩ := moved
      have accepts := accepts_of_running served.running
      refine ⟨accepts, ?_⟩
      intro client fd link ready
      have fresh := returns.fresh accepts
      obtain ⟨middle, exchange⟩ := consistent.exists_exchange returns fresh
      rw [afterRound_of_exchange fresh exchange] at served
      obtain ⟨data, received, _, _, printed⟩ :=
        proceed_of_ready consistent returns exchange link ready
      obtain ⟨line, waiting, isLine, all, sent⟩ := consistent.exists_line returns link ready
      obtain ⟨others, whole, _⟩ := served.lines client
      rw [printed, all, List.append_assoc, List.append_assoc, List.append_right_inj] at whole
      have same : line = data := (List.cons.inj whole).1
      rw [received, sent, firstLine_flatten isLine, same]

end LinuxUnix.LineProtocol

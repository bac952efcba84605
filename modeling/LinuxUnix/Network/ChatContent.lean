import LinuxUnix.Network.Chat

/-! # What the chat programs print

Neither program looks whether `recv` has returned anything before it prints the buffer, nor
whether `fgets` has before it sends the buffer: after a `recv` that returns 0 or -1 it prints as
received what stands there, the last line that has been sent
(`LinuxUnix.Chat.not_faithful_of_serverQuits`). As long as `fgets` delivers lines, and `recv`
each time the text that is under way, only lines of the other side are printed
(`LinuxUnix.Chat.faithful_of_reachable`).
-/

namespace LinuxUnix.Chat

open CMemory TransitionSystem

/-- What a side has printed as received are texts that the other one has sent, in this order and
each at most once; and what a side has sent are lines that have been typed there. -/
structure Faithful (state : State) : Prop where
  printed : ∀ side, (state.process side).printed.Sublist (state.process side.other).sent
  sent : ∀ side, (state.process side).sent.Sublist (state.process side).lines

/-- `fgets` delivers a line, `send` takes all of it or fails, and `recv` returns what has been
sent and not been received. -/
def Delivers (state : State) : Action → Prop
  | .fgets _ delivers => delivers = true
  | .send side count => count = 0 ∨ count = (cstr (state.process side).buffer).length
  | .recv side size => state.stream side.other ≠ [] ∧
      size = some (state.stream side.other).length
  | .go _ | .kill _ => True

instance (state : State) : ∀ action, Decidable (Delivers state action)
  | .fgets _ _ => inferInstanceAs (Decidable (_ = _))
  | .send _ _ => inferInstanceAs (Decidable (_ ∨ _))
  | .recv _ _ => inferInstanceAs (Decidable (_ ∧ _))
  | .go _ | .kill _ => inferInstanceAs (Decidable True)

/-- The text that is about to be printed as received. -/
def Process.inHand (process : Process) : List (List Byte) :=
  if process.place = .printing then [cstr process.buffer] else []

/-- The text that is about to be sent. -/
def Process.outgoing (process : Process) : List (List Byte) :=
  if process.place = .sending then [cstr process.buffer] else []

/-- How far the receipts of a side are ahead of its sends, and one more. -/
def lead : Side → Place → ℕ
  | .server, .receiving | .server, .left | .server, .closed => 0
  | .server, .reading | .server, .sending | .server, .printing | .server, .testing
  | .server, .deciding => 1
  | .client, .receiving | .client, .deciding | .client, .left | .client, .closed => 1
  | .client, .reading | .client, .sending | .client, .printing | .client, .testing => 2

/-- What is known of one program. -/
structure Orderly (side : Side) (process : Process) : Prop where
  turn : process.sent.length + lead side process.place ≤ process.received.length + 1
  printed : (process.printed ++ process.inHand).Sublist process.received
  sent : (process.sent ++ process.outgoing).Sublist process.lines

/-- The invariant. -/
structure Kept (state : State) : Prop where
  orderly : ∀ side, Orderly side (state.process side)
  carries : ∀ side, Carries (state.stream side) (state.process side).sent
    (state.process side.other).received

variable {pair : Pair} {state : State} {side : Side} {process : Process}

/-- A program that is about to send has received all that has been sent to it, and so has the
other one. -/
theorem Kept.arrived (kept : Kept state) (sending : (state.process side).place = .sending) :
    state.stream side = [] ∧
      (state.process side).sent = (state.process side.other).received := by
  apply (kept.carries side).eq_nil
  have own := (kept.orderly side).turn
  have others := (kept.orderly side.other).turn
  have from_ := (kept.carries side.other).le
  rw [Side.other_other] at from_
  rw [sending] at own
  cases side with
  | server =>
      have ahead : 1 ≤ lead .client (state.process .client).place := by
        cases (state.process .client).place <;> decide
      change _ + 1 ≤ _ at own
      change _ + lead .client (state.process .client).place ≤ _ at others
      simp only [Side.other] at *
      omega
  | client =>
      change _ + 2 ≤ _ at own
      simp only [Side.other] at *
      omega

theorem lead_go {after : Process} (went : process.go (pair.program side) = some after) :
    lead side after.place ≤ lead side process.place := by
  rcases go_cases went with ⟨place, rfl⟩ | ⟨place, _, rfl⟩ | ⟨place, _, rfl⟩ | ⟨place, _, rfl⟩ |
    ⟨place, _, rfl⟩ | ⟨place, rfl⟩
  · change lead side (pair.program side).afterPrint ≤ _
    rw [place]
    cases pair <;> cases side <;> decide
  · change lead side .deciding ≤ _
    rw [place]
    cases side <;> decide
  · change lead side .reading ≤ _
    rw [place]
    cases side <;> decide
  · change lead side .left ≤ _
    rw [place]
    cases side <;> decide
  · change lead side (pair.program side).first ≤ _
    rw [place]
    cases pair <;> cases side <;> decide
  · change lead side .closed ≤ _
    rw [place]
    cases side <;> decide

/-- A step after which the program is not in front of `printf` or `send`. -/
theorem Orderly.move (orderly : Orderly side process) {after : Process}
    (turn : lead side after.place ≤ lead side process.place)
    (logs : after.sent = process.sent ∧ after.received = process.received ∧
      after.lines = process.lines)
    (printed : (after.printed ++ after.inHand).Sublist (process.printed ++ process.inHand))
    (outgoing : after.outgoing = []) : Orderly side after where
  turn := by
    rw [logs.1, logs.2.1]
    have before := orderly.turn
    omega
  printed := by
    rw [logs.2.1]
    exact printed.trans orderly.printed
  sent := by
    rw [logs.1, logs.2.2, outgoing, List.append_nil]
    exact (List.sublist_append_left ..).trans orderly.sent

theorem Orderly.go (orderly : Orderly side process) {after : Process}
    (went : process.go (pair.program side) = some after) : Orderly side after := by
  have turn := lead_go went
  have dropped : ∀ hand : List (List Byte), process.printed.Sublist (process.printed ++ hand) :=
    fun hand => List.sublist_append_left ..
  have first : ∀ place, (pair.program side).first = place →
      place ≠ .printing ∧ place ≠ .sending := by
    rintro place rfl
    cases pair <;> cases side <;> decide
  have afterPrint : ∀ place, (pair.program side).afterPrint = place →
      place ≠ .printing ∧ place ≠ .sending := by
    rintro place rfl
    cases pair <;> cases side <;> decide
  rcases go_cases went with ⟨place, rfl⟩ | ⟨place, _, rfl⟩ | ⟨place, _, rfl⟩ | ⟨place, _, rfl⟩ |
    ⟨place, _, rfl⟩ | ⟨place, rfl⟩
  · refine orderly.move turn ⟨rfl, rfl, rfl⟩ ?_ (if_neg (afterPrint _ rfl).2)
    rw [Process.inHand, if_neg (afterPrint _ rfl).1, Process.inHand, if_pos place, List.append_nil]
  · refine orderly.move turn ⟨rfl, rfl, rfl⟩ ?_ rfl
    exact (List.append_nil process.printed).symm ▸ dropped _
  · refine orderly.move turn ⟨rfl, rfl, rfl⟩ ?_ rfl
    exact (List.append_nil process.printed).symm ▸ dropped _
  · refine orderly.move turn ⟨rfl, rfl, rfl⟩ ?_ rfl
    exact (List.append_nil process.printed).symm ▸ dropped _
  · refine orderly.move turn ⟨rfl, rfl, rfl⟩ ?_ (if_neg (first _ rfl).2)
    rw [Process.inHand, if_neg (first _ rfl).1, List.append_nil]
    exact dropped _
  · refine orderly.move turn ⟨rfl, rfl, rfl⟩ ?_ rfl
    exact (List.append_nil process.printed).symm ▸ dropped _

/-- `fgets` delivers a line, which is then sent. -/
theorem Orderly.fgets (orderly : Orderly side process) (reading : process.place = .reading) :
    Orderly side process.fgets where
  turn := by
    have before := orderly.turn
    rw [reading] at before
    cases side with
    | server => exact before
    | client => exact before
  printed := (List.append_nil process.printed).symm ▸
    (List.sublist_append_left ..).trans orderly.printed
  sent := by
    change (process.sent ++
      [cstr (overwrite process.buffer 0 (piece process.stdin ++ [0]))]).Sublist
      (process.lines ++ [cstr (piece process.stdin)])
    rw [cstr_overwrite]
    exact ((List.sublist_append_left ..).trans orderly.sent).append_right _

/-- All of the text is sent, or nothing. -/
theorem Orderly.send (orderly : Orderly side process) (sending : process.place = .sending)
    {count : ℕ} (whole : count = 0 ∨ count = (cstr process.buffer).length) :
    Orderly side (process.send (pair.program side) count) := by
  have after : (pair.program side).afterSend ≠ .printing ∧
      (pair.program side).afterSend ≠ .sending := by
    cases pair <;> cases side <;> decide
  have outgoing : process.outgoing = [cstr process.buffer] := if_pos sending
  have adds : (process.send (pair.program side) count).sent.Sublist
      (process.sent ++ [cstr process.buffer]) := by
    unfold Process.send
    split
    · exact List.sublist_append_left ..
    · rename_i some_
      rw [whole.resolve_left some_, List.take_length]
  refine ⟨?_, ?_, ?_⟩
  · have before := orderly.turn
    have longer := adds.length_le
    rw [List.length_append, List.length_singleton] at longer
    have lower : lead side (pair.program side).afterSend + 1 ≤ lead side process.place := by
      rw [sending]
      cases pair <;> cases side <;> decide
    change (process.send (pair.program side) count).sent.length +
      lead side (pair.program side).afterSend ≤ process.received.length + 1
    omega
  · change (process.printed ++ (if (pair.program side).afterSend = .printing then
      [cstr process.buffer] else [])).Sublist process.received
    rw [if_neg after.1, List.append_nil]
    exact (List.sublist_append_left ..).trans orderly.printed
  · change ((process.send (pair.program side) count).sent ++
      (if (pair.program side).afterSend = .sending then
        [cstr process.buffer] else [])).Sublist process.lines
    rw [if_neg after.2, List.append_nil]
    exact adds.trans (outgoing ▸ orderly.sent)

/-- A text without NUL is received. -/
theorem Orderly.recv (orderly : Orderly side process) (receiving : process.place = .receiving)
    {text : List Byte} (clean : 0 ∉ text) : Orderly side (process.recv text) where
  turn := by
    have before := orderly.turn
    rw [receiving] at before
    change process.sent.length + lead side .printing ≤ (process.received ++ [text]).length + 1
    rw [List.length_append, List.length_singleton]
    cases side with
    | server => exact Nat.succ_le_succ before
    | client => exact Nat.succ_le_succ before
  printed := by
    have none_ : process.inHand = [] := if_neg (by rw [receiving]; nofun)
    have before := orderly.printed
    rw [none_, List.append_nil] at before
    change (process.printed ++ [cstr (overwrite process.buffer 0 (text ++ [0]))]).Sublist
      (process.received ++ [text])
    rw [cstr_overwrite, cstr_eq_self clean]
    exact before.append_right _
  sent := (List.append_nil process.sent).symm ▸
    (List.sublist_append_left ..).trans orderly.sent

/-- Each program is orderly, and each stream carries what has been sent and not received. -/
theorem Kept.set (kept : Kept state) (orderly : Orderly side process) (streams : Side → List Byte)
    (own : Carries (streams side) process.sent (state.process side.other).received)
    (others : Carries (streams side.other) (state.process side.other).sent process.received)
    (sends : List Side) :
    Kept { state.set side process with stream := streams, sends } where
  orderly other := by
    by_cases same : other = side
    · subst same
      exact (process_set_self state other process).symm ▸ orderly
    · exact (process_set_of_ne same).symm ▸ kept.orderly other
  carries other := by
    by_cases same : other = side
    · subst same
      change Carries (streams other) ((state.set other process).process other).sent
        ((state.set other process).process other.other).received
      rw [process_set_self, process_set_other]
      exact own
    · cases Side.eq_other_of_ne same
      change Carries (streams side.other) ((state.set side process).process side.other).sent
        ((state.set side process).process side.other.other).received
      rw [Side.other_other, process_set_self, process_set_other]
      exact others

/-- A step in which a program neither sends nor receives. -/
theorem Kept.stay (kept : Kept state) (orderly : Orderly side process)
    (sent : process.sent = (state.process side).sent)
    (received : process.received = (state.process side).received) :
    Kept (state.set side process) := by
  have own := kept.carries side
  have others := kept.carries side.other
  rw [Side.other_other] at others
  exact kept.set orderly state.stream (sent ▸ own) (received ▸ others) state.sends

theorem Kept.send (kept : Kept state) (sending : (state.process side).place = .sending) {count : ℕ}
    (whole : count = 0 ∨ count = (cstr (state.process side).buffer).length)
    (sends : List Side) :
    Kept { state.set side ((state.process side).send (pair.program side) count) with
      stream := Function.update state.stream side
        (state.stream side ++ (cstr (state.process side).buffer).take count)
      sends } := by
  obtain ⟨empty, arrived⟩ := kept.arrived sending
  refine kept.set ((kept.orderly side).send sending whole) _ ?_ ?_ sends
  · rw [Function.update_self, empty, List.nil_append, Process.send, arrived]
    by_cases nothing : count = 0
    · rw [if_pos nothing, nothing, List.take_zero]
      exact ⟨List.not_mem_nil, .inl ⟨rfl, rfl⟩⟩
    · have all := whole.resolve_left nothing
      rw [if_neg nothing, all, List.take_length]
      refine ⟨zero_not_mem_cstr _, .inr ⟨?_, rfl⟩⟩
      exact List.ne_nil_of_length_pos (by omega)
  · have others := kept.carries side.other
    rw [Side.other_other] at others
    rw [Function.update_of_ne side.other_ne]
    exact others

theorem Kept.recv (kept : Kept state) (receiving : (state.process side).place = .receiving)
    (waiting : state.stream side.other ≠ []) :
    Kept { state.set side ((state.process side).recv (state.stream side.other)) with
      stream := Function.update state.stream side.other [] } := by
  obtain ⟨clean, empty | ⟨_, sent⟩⟩ := kept.carries side.other
  · exact absurd empty.1 waiting
  rw [Side.other_other] at sent
  refine kept.set ((kept.orderly side).recv receiving clean) _ ?_ ?_ state.sends
  · rw [Function.update_of_ne side.other_ne.symm]
    exact kept.carries side
  · rw [Function.update_self]
    exact ⟨List.not_mem_nil, .inl ⟨rfl, sent⟩⟩

/-- A program that has been ended. -/
theorem Orderly.kill (orderly : Orderly side process) :
    Orderly side { process with place := .closed } := by
  refine orderly.move ?_ ⟨rfl, rfl, rfl⟩ ?_ rfl
  · change lead side .closed ≤ lead side process.place
    cases side <;> cases process.place <;> decide
  · exact (List.append_nil process.printed).symm ▸ List.sublist_append_left ..

theorem kept_next {after : State} {action : Action} (kept : Kept state)
    (delivers : Delivers state action) (moved : next pair state action = some after) :
    Kept after := by
  cases action with
  | fgets side gives =>
      cases delivers
      simp only [next, if_true, Option.ite_none_right_eq_some, Option.some.injEq] at moved
      obtain ⟨reading, _, rfl⟩ := moved
      exact kept.stay ((kept.orderly side).fgets reading) rfl rfl
  | send side count =>
      simp only [next, Option.ite_none_right_eq_some, Option.some.injEq] at moved
      obtain ⟨⟨sending, _⟩, rfl⟩ := moved
      exact kept.send sending delivers _
  | recv side size =>
      obtain ⟨waiting, rfl⟩ := delivers
      have long := List.length_pos_iff.mpr waiting
      obtain ⟨size, all⟩ := Nat.exists_eq_succ_of_ne_zero (Nat.ne_of_gt long)
      rw [all] at moved
      simp only [next, Option.ite_none_right_eq_some, Option.some.injEq] at moved
      obtain ⟨⟨receiving, _⟩, rfl⟩ := moved
      rw [← Nat.succ_eq_add_one, ← all, List.take_length, List.drop_length]
      exact kept.recv receiving waiting
  | go side =>
      simp only [next, Option.map_eq_some_iff] at moved
      obtain ⟨process, went, rfl⟩ := moved
      have logs : process.sent = (state.process side).sent ∧
          process.received = (state.process side).received := by
        rcases go_cases went with ⟨_, rfl⟩ | ⟨_, _, rfl⟩ | ⟨_, _, rfl⟩ | ⟨_, _, rfl⟩ |
          ⟨_, _, rfl⟩ | ⟨_, rfl⟩ <;> exact ⟨rfl, rfl⟩
      exact kept.stay ((kept.orderly side).go went) logs.1 logs.2
  | kill side =>
      simp only [next, Option.ite_none_right_eq_some, Option.some.injEq] at moved
      obtain ⟨_, rfl⟩ := moved
      exact kept.stay (kept.orderly side).kill rfl rfl

theorem kept_invariant (pair : Pair) (stdin : Side → List Byte) :
    ((chat pair stdin).restrict Delivers).Invariant Kept where
  initial := by
    rintro _ ⟨buffer, _, rfl⟩
    have first : ∀ side, lead side (pair.program side).first = 1 ∧
        (pair.program side).first ≠ .printing ∧ (pair.program side).first ≠ .sending := by
      intro side
      cases pair <;> cases side <;> decide
    exact {
      orderly := fun side => {
        turn := Nat.le_of_eq ((Nat.zero_add _).trans (first side).1)
        printed := by
          change ([] ++ (if (pair.program side).first = Place.printing then _ else [])).Sublist []
          rw [if_neg (first side).2.1]
          exact .refl []
        sent := by
          change ([] ++ (if (pair.program side).first = Place.sending then _ else [])).Sublist []
          rw [if_neg (first side).2.2]
          exact .refl [] }
      carries := fun side => ⟨List.not_mem_nil, .inl ⟨rfl, rfl⟩⟩ }
  step _ _ _ kept moved := kept_next kept moved.1 moved.2

theorem Kept.faithful (kept : Kept state) : Faithful state where
  printed side := by
    have printed : (state.process side).printed.Sublist (state.process side).received :=
      (List.sublist_append_left ..).trans (kept.orderly side).printed
    have carries := kept.carries side.other
    rw [Side.other_other] at carries
    rcases carries.2 with ⟨_, sent⟩ | ⟨_, sent⟩
    · rw [sent]
      exact printed
    · rw [sent]
      exact printed.trans (List.sublist_append_left ..)
  sent side := (List.sublist_append_left ..).trans (kept.orderly side).sent

/-- In every run in which `fgets` delivers lines and `recv` each time the text that is under
way, only lines of the other side are printed as received, each at most once and in order. -/
theorem faithful_of_reachable {stdin : Side → List Byte}
    (reached : ((chat pair stdin).restrict Delivers).Reachable state) : Faithful state :=
  ((kept_invariant pair stdin).reachable reached).faithful

/-- Buffers that hold nothing. -/
def clear : Side → List Byte :=
  fun _ => List.replicate (buf + 1) 0

theorem length_clear (side : Side) : (clear side).length = buf + 1 :=
  List.length_replicate

/-- The server types `a` and the client types `b`. -/
def oneLine : Side → List Byte
  | .server => [97, 10]
  | .client => [98, 10]

/-- Each line is received and printed. -/
def exchange : List Action :=
  [.fgets .server true, .send .server 2, .recv .client (some 2), .go .client, .go .client,
    .fgets .client true, .send .client 2, .recv .server (some 2), .go .server]

theorem faithful_of_exchange : ∃ state : State,
    run (guarded Delivers (next .inet)) (start .inet clear oneLine) exchange = some state ∧
      Faithful state := by
  have executed :
      (run (guarded Delivers (next .inet)) (start .inet clear oneLine) exchange).isSome = true := by
    decide +kernel
  obtain ⟨state, executed⟩ := Option.isSome_iff_exists.mp executed
  have reached : ((chat .inet oneLine).restrict Delivers).Reachable state :=
    .of_run (.initial ⟨clear, length_clear, rfl⟩) executed
  exact ⟨state, executed, faithful_of_reachable reached⟩

/-- The server types `quit`; the client receives it and closes. -/
def serverQuits : List Action :=
  [.fgets .server true, .send .server 5, .recv .client (some 5), .go .client, .go .client,
    .go .client, .go .client, .recv .server (some 0), .go .server]

/-- The server prints as received what it has sent itself. -/
theorem not_faithful_of_serverQuits :
    ¬ ∀ (pair : Pair) (stdin : Side → List Byte) (state : State),
      (chat pair stdin).Reachable state → Faithful state := by
  intro faithful
  let typed : Side → List Byte := fun _ => quitLine
  let anyStep : State → Action → Prop := fun _ _ => True
  have broken : ((run (guarded anyStep (next .inet)) (start .inet clear typed) serverQuits).map
      fun state => ((state.process .server).printed, (state.process .client).sent)) =
        some ([quitLine], []) := by
    decide +kernel
  obtain ⟨state, executed, texts⟩ := Option.map_eq_some_iff.mp broken
  have reached : ((chat .inet typed).restrict anyStep).Reachable state :=
    .of_run (.initial ⟨clear, length_clear, rfl⟩) executed
  have printed := (faithful .inet typed state reached.of_restrict).printed .server
  change (state.process .server).printed.Sublist (state.process .client).sent at printed
  rw [(Prod.mk.inj texts).1, (Prod.mk.inj texts).2] at printed
  cases printed

end LinuxUnix.Chat

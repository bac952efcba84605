import LinuxUnix.Network.ChatContent
import LinuxUnix.Network.ChatRounds

/-! # Both chat programs end in the same round

If the server sends `quit`, the client closes without an answer and the server finds the line in
its own buffer; if the client sends it, both find it at the end of the round. So both loops are
left in the first round in which one of the two lines is `quit`
(`LinuxUnix.Chat.together_of_reachable`). A line that does not fit the buffer is sent in several
rounds, and its last piece can be taken for the line `quit`
(`LinuxUnix.Chat.not_together_of_longLine`).
-/

namespace LinuxUnix.Chat

open CMemory TransitionSystem

/-- `"quit"` -/
def quit : List Byte :=
  ['q'.toUInt8, 'u'.toUInt8, 'i'.toUInt8, 't'.toUInt8]

/-- The lines that are typed at a program, one of which is `quit`. -/
structure Script where
  lines : List (List Byte)
  clean : ∀ line ∈ lines, 0 ∉ line ∧ 10 ∉ line
  quits : quit ∈ lines

/-- The lines as they are typed. -/
def Script.typed (script : Script) : List (List Byte) :=
  script.lines.map (· ++ [10])

def Script.stdin (script : Script) : List Byte :=
  LineInput.bytes script.lines

/-- The lines as `fgets` delivers them. -/
def Script.pieces (script : Script) : List (List Byte) :=
  LineInput.pieces buf script.stdin

/-- The first round in which one of the two lines is `quit`. -/
def quitRound (server client : List (List Byte)) : ℕ :=
  (server.zip client).findIdx fun both => both.1 = quitLine ∨ both.2 = quitLine

/-- Neither program is beyond the given round, and one that has left its loop has left it in this
round, and `recv` returns 0 in no other round. The programs have sent by turns. As long as one of
them has not closed, a step is possible, and the steps come to an end. -/
structure Together (pair : Pair) (stdin : Side → List Byte) (round : ℕ) (state : State) :
    Prop where
  within : ∀ side, (state.process side).round ≤ round
  left : ∀ side, (state.process side).place = .left ∨ (state.process side).place = .closed →
    (state.process side).round = round
  unanswered : ∀ side, (state.process side).place = .receiving → state.stream side.other = [] →
    (state.process side.other).place = .closed → (state.process side).round = round
  alternating : state.sends = turns state.sends.length
  goesOn : (∃ side, (state.process side).place ≠ .closed) →
    ∃ action after, ((chat pair stdin).restrict Whole).step state action after
  ends : ((chat pair stdin).restrict Whole).Terminates state

variable {pair : Pair} {stdin : Side → List Byte} {texts : Side → List (List Byte)}
  {own others : List (List Byte)} {state : State} {side : Side} {process : Process}
  {script : Script}

theorem Script.mem_bytes {lines : List (List Byte)} (clean : ∀ line ∈ lines, 0 ∉ line) :
    0 ∉ LineInput.bytes lines := by
  intro member
  obtain ⟨_, there, inside⟩ := List.mem_flatten.mp member
  obtain ⟨line, listed, rfl⟩ := List.mem_map.mp there
  rcases List.mem_append.mp inside with text | newline
  · exact clean line listed text
  · exact absurd (List.mem_singleton.mp newline) (by decide)

theorem Script.zero_not_mem (script : Script) : 0 ∉ script.stdin :=
  Script.mem_bytes fun line member => (script.clean line member).1

/-- `quit` fits the buffer and is delivered as it is, whatever the other lines are. -/
theorem Script.quitLine_mem (script : Script) : quitLine ∈ script.pieces :=
  LineInput.mem_pieces (by decide) (fun line member => (script.clean line member).2) script.quits
    (by decide)

/-- Lines that fit the buffer are delivered as they have been typed. -/
theorem Script.pieces_of_short (short : ∀ line ∈ script.lines, line.length + 1 < buf) :
    script.pieces = script.typed :=
  LineInput.pieces_of_short (by decide) fun line member =>
    ⟨(script.clean line member).2, short line member⟩

theorem Quiet.lt_length {count : ℕ} (quiet : Quiet own count) (quits : quitLine ∈ own) :
    count < own.length := by
  obtain ⟨index, small, there⟩ := List.mem_iff_getElem.mp quits
  refine Nat.lt_of_not_le fun beyond => quiet index (Nat.lt_of_lt_of_le small beyond) ?_
  rw [List.getElem?_eq_getElem small, there]

theorem le_quitRound {count : ℕ} (ownQuiet : Quiet own count) (othersQuiet : Quiet others count)
    (ownQuits : quitLine ∈ own) (othersQuit : quitLine ∈ others) :
    count ≤ quitRound own others := by
  have long := ownQuiet.lt_length ownQuits
  have othersLong := othersQuiet.lt_length othersQuit
  refine List.le_findIdx_of_not (by rw [List.length_zip]; omega) fun index small => ?_
  have isOwn := ownQuiet index small
  have isOther := othersQuiet index small
  rw [List.getElem?_eq_getElem (by omega)] at isOwn isOther
  rw [decide_eq_false_iff_not, List.getElem_zip]
  rintro (same | same)
  · exact isOwn (congrArg some same)
  · exact isOther (congrArg some same)

theorem quitRound_eq {count : ℕ} (ownQuiet : Quiet own count) (othersQuiet : Quiet others count)
    (ownQuits : quitLine ∈ own) (othersQuit : quitLine ∈ others)
    (now : own[count]? = some quitLine ∨ others[count]? = some quitLine) :
    count = quitRound own others := by
  refine Nat.le_antisymm (le_quitRound ownQuiet othersQuiet ownQuits othersQuit) ?_
  have long := ownQuiet.lt_length ownQuits
  have othersLong := othersQuiet.lt_length othersQuit
  refine Nat.le_of_not_lt fun later => ?_
  have not := List.not_of_lt_findIdx later
  rw [decide_eq_false_iff_not, List.getElem_zip] at not
  rw [List.getElem?_eq_getElem long, List.getElem?_eq_getElem othersLong] at now
  exact not (now.imp Option.some.inj Option.some.inj)

/-- No line of a round before has been `quit`. -/
theorem Talk.quiet (talk : Talk texts state) : ∀ own side,
    Quiet (texts own) (state.process side).round
  | .client, .server => talk.serverQuiet
  | .client, .client => talk.clientQuiet.1
  | .server, .client => talk.clientQuiet.2
  | .server, .server => by
      have toServer := (talk.carries .client).le
      simp only [Side.other] at toServer
      have round := talk.server.sent_le.2
      exact (talk.client.quiet talk.clientQuiet.2).1.mono (by omega)

section

variable (talk : Talk texts state) (quits : ∀ side, quitLine ∈ texts side)

include talk quits

theorem Talk.within (side : Side) :
    (state.process side).round ≤ quitRound (texts .server) (texts .client) :=
  le_quitRound (talk.quiet _ _) (talk.quiet _ _) (quits .server) (quits .client)

theorem Talk.eq_quitRound (now : (texts .server)[(state.process side).round]? = some quitLine ∨
    (texts .client)[(state.process side).round]? = some quitLine) :
    (state.process side).round = quitRound (texts .server) (texts .client) :=
  quitRound_eq (talk.quiet _ _) (talk.quiet _ _) (quits .server) (quits .client) now

theorem Talk.left (left : (state.process side).place = .left ∨
    (state.process side).place = .closed) :
    (state.process side).round = quitRound (texts .server) (texts .client) := by
  refine talk.eq_quitRound quits ?_
  cases side with
  | server =>
      have server := talk.server
      have ended : Answered (texts .server) (texts .client) (state.process .client).place
          (state.process .server) ∧ cstr (state.process .server).buffer = quitLine := by
        rcases left with place | place <;> simpa only [ServerAt, place] using server
      obtain ⟨⟨_, heard⟩ | ⟨_, sent, _⟩, quit⟩ := ended
      · exact .inr (quit ▸ heard)
      · exact .inl (quit ▸ sent)
  | client =>
      have client := talk.client
      have ended : Replied (texts .client) (texts .server) (state.process .client) ∧
          cstr (state.process .client).buffer = quitLine := by
        rcases left with place | place <;> simpa only [ClientAt, place] using client
      obtain ⟨⟨_, _, reply⟩ | ⟨_, heard, _⟩, quit⟩ := ended
      · exact .inr (quit ▸ reply)
      · exact .inl (quit ▸ heard)

theorem Talk.unanswered (receiving : (state.process side).place = .receiving)
    (empty : state.stream side.other = []) (closed : (state.process side.other).place = .closed) :
    (state.process side).round = quitRound (texts .server) (texts .client) := by
  cases side with
  | server =>
      have quit := talk.sent_quit receiving empty closed
      have server := talk.server
      simp only [ServerAt, receiving] at server
      exact talk.eq_quitRound quits (.inl (quit ▸ server.2))
  | client => exact (talk.client_not_receiving receiving empty closed).elim

/-- Before `fgets` there is a line left. -/
theorem Talk.more (reading : (state.process side).place = .reading) :
    (state.process side).stdin ≠ [] := by
  have lines : (state.process side).lines.length = (state.process side).round := by
    cases side with
    | server =>
        have server := talk.server
        simp only [ServerAt, reading] at server
        exact server.1
    | client =>
        have client := talk.client
        simp only [ClientAt, reading] at client
        exact client.1.1
  intro empty
  have rest := (talk.types side).rest
  rw [empty, LineInput.pieces_nil, lines] at rest
  have long := (talk.quiet side side).lt_length (quits side)
  exact absurd (List.drop_eq_nil_iff.mp rest.symm) (Nat.not_le_of_lt long)

end

/-- A step of the session is possible. -/
def GoesOn (pair : Pair) (stdin : Side → List Byte) (state : State) : Prop :=
  ∃ action after, ((chat pair stdin).restrict Whole).step state action after

theorem goesOn_of_next (action : Action) (whole : Whole state action)
    (moves : (next pair state action).isSome) : GoesOn pair stdin state :=
  (Option.isSome_iff_exists.mp moves).elim fun after moved => ⟨action, after, whole, moved⟩

/-- Outside of `recv` a program can go on by itself. -/
theorem Talk.goesOn_of_ne (talk : Talk texts state) (quits : ∀ side, quitLine ∈ texts side)
    (open_ : (state.process side).place ≠ .closed)
    (free : (state.process side).place ≠ .receiving) : GoesOn pair stdin state := by
  cases place : (state.process side).place with
  | reading =>
      refine goesOn_of_next (.fgets side true) rfl ?_
      rw [next, if_pos place, if_pos rfl, if_pos (talk.more quits place)]
      rfl
  | sending =>
      refine goesOn_of_next (.send side _) rfl ?_
      rw [next, if_pos ⟨place, le_rfl⟩]
      rfl
  | receiving => exact absurd place free
  | printing | testing | deciding | left =>
      refine goesOn_of_next (.go side) trivial ?_
      rw [next, Process.go, place]
      rfl
  | closed => exact absurd place open_

theorem goesOn_of_waiting (receiving : (state.process side).place = .receiving)
    (waiting : state.stream side.other ≠ [])
    (short : (state.stream side.other).length ≤ buf - 1) : GoesOn pair stdin state := by
  obtain ⟨size, all⟩ := Nat.exists_eq_add_one_of_ne_zero
    (Nat.ne_of_gt (List.length_pos_iff.mpr waiting))
  refine goesOn_of_next (.recv side (some (size + 1))) (congrArg some all.symm) ?_
  rw [next, if_pos ⟨receiving, all ▸ short, Nat.le_of_eq all.symm⟩]
  rfl

theorem goesOn_of_closed (receiving : (state.process side).place = .receiving)
    (empty : state.stream side.other = []) (closed : (state.process side.other).place = .closed) :
    GoesOn pair stdin state := by
  refine goesOn_of_next (.recv side (some 0)) ?_ ?_
  · change some 0 = some (state.stream side.other).length
    rw [empty]
    rfl
  · rw [next, if_pos ⟨receiving, empty, closed⟩]
    rfl

/-- What is under way is one of the lines. -/
theorem Talk.stream_mem (talk : Talk texts state) (waiting : state.stream side ≠ []) :
    state.stream side ∈ texts side :=
  List.mem_of_getElem? (getElem?_of_carries (talk.types side).sent (talk.carries side) waiting)

/-- If both are in `recv`, something is under way. -/
theorem Talk.not_both_waiting (talk : Talk texts state)
    (receiving : ∀ side, (state.process side).place = .receiving)
    (empty : ∀ side, state.stream side = []) : False := by
  have server := talk.server
  simp only [ServerAt, receiving .server] at server
  have client := talk.client
  simp only [ClientAt, receiving .client] at client
  obtain ⟨⟨_, serverSent, serverReceived⟩, _⟩ := server
  obtain ⟨_, clientSent, clientReceived⟩ := client
  have arrived : ∀ side, (state.process side).sent = (state.process side.other).received := by
    intro side
    rcases (talk.carries side).2 with ⟨_, same⟩ | ⟨waiting, _⟩
    · exact same
    · exact absurd (empty side) waiting
  have toClient := congrArg List.length (arrived .server)
  have toServer := congrArg List.length (arrived .client)
  simp only [Side.other] at toClient toServer
  omega

theorem Talk.goesOn (talk : Talk texts state) (quits : ∀ side, quitLine ∈ texts side)
    (short : ∀ side, ∀ text ∈ texts side, text.length ≤ buf - 1)
    (open_ : ∃ side, (state.process side).place ≠ .closed) : GoesOn pair stdin state := by
  by_cases free : ∃ side, (state.process side).place ≠ .closed ∧
      (state.process side).place ≠ .receiving
  · obtain ⟨side, open_, free⟩ := free
    exact talk.goesOn_of_ne quits open_ free
  have receiving : ∀ side, (state.process side).place ≠ .closed →
      (state.process side).place = .receiving := fun side open_ =>
    Decidable.not_not.mp fun moving => free ⟨side, open_, moving⟩
  by_cases waiting : ∃ side, (state.process side).place = .receiving ∧
      state.stream side.other ≠ []
  · obtain ⟨side, receiving, waiting⟩ := waiting
    exact goesOn_of_waiting receiving waiting (short _ _ (talk.stream_mem waiting))
  have empty : ∀ side, (state.process side).place = .receiving →
      state.stream side.other = [] := fun side receiving =>
    Decidable.not_not.mp fun stream => waiting ⟨side, receiving, stream⟩
  obtain ⟨side, open_⟩ := open_
  by_cases closed : (state.process side.other).place = .closed
  · exact goesOn_of_closed (receiving side open_) (empty side (receiving side open_)) closed
  · have both : ∀ other, (state.process other).place = .receiving := by
      intro other
      by_cases same : other = side
      · exact same ▸ receiving side open_
      · exact Side.eq_other_of_ne same ▸ receiving side.other closed
    refine (talk.not_both_waiting both fun other => ?_).elim
    exact other.other_other ▸ empty other.other (both other.other)

/-- How far a place is from the end of the round. -/
def rank : Side → Place → ℕ
  | .server, .testing => 7
  | .server, .reading => 6
  | .server, .sending => 5
  | .server, .receiving => 4
  | .server, .printing => 3
  | .client, .receiving => 7
  | .client, .printing => 6
  | .client, .testing => 5
  | .client, .reading => 4
  | .client, .sending => 3
  | _, .deciding => 2
  | _, .left => 1
  | _, .closed => 0

/-- How many steps a program has still to take at most. -/
def ahead (round : ℕ) (side : Side) (process : Process) : ℕ :=
  8 * (round - process.round) + rank side process.place

def measure (round : ℕ) (state : State) : ℕ :=
  ahead round .server (state.process .server) + ahead round .client (state.process .client)

theorem measure_lt {round : ℕ} {after : State}
    (same : after.process = Function.update state.process side process)
    (less : ahead round side process < ahead round side (state.process side)) :
    measure round after < measure round state := by
  rw [measure, measure, same]
  cases side with
  | server =>
      rw [Function.update_self, Function.update_of_ne (by nofun)]
      exact Nat.add_lt_add_right less _
  | client =>
      rw [Function.update_self, Function.update_of_ne (by nofun)]
      exact Nat.add_lt_add_left less _

theorem ahead_lt {round : ℕ} {after : Process} {here : Place} (there : Place)
    (before : process.place = here) (moved : after.place = there)
    (same : after.round = process.round) (less : rank side there < rank side here) :
    ahead round side after < ahead round side process := by
  rw [ahead, ahead, same, before, moved]
  exact Nat.add_lt_add_left less _

theorem ahead_go {round : ℕ} {after : Process}
    (went : process.go (pair.program side) = some after) (within : after.round ≤ round) :
    ahead round side after < ahead round side process := by
  rcases go_cases went with ⟨place, rfl⟩ | ⟨place, _, rfl⟩ | ⟨place, _, rfl⟩ | ⟨place, _, rfl⟩ |
    ⟨place, _, rfl⟩ | ⟨place, rfl⟩
  · exact ahead_lt (pair.program side).afterPrint place rfl rfl
      (by cases pair <;> cases side <;> decide)
  · exact ahead_lt .deciding place rfl rfl (by cases side <;> decide)
  · exact ahead_lt .reading place rfl rfl (by cases side <;> decide)
  · exact ahead_lt .left place rfl rfl (by cases side <;> decide)
  · -- a new round
    have first : rank side (pair.program side).first < 8 := by
      cases pair <;> cases side <;> decide
    have last : rank side .deciding = 2 := by cases side <;> rfl
    change 8 * (round - (process.round + 1)) + rank side (pair.program side).first <
      8 * (round - process.round) + rank side process.place
    change process.round + 1 ≤ round at within
    rw [place, last]
    omega
  · exact ahead_lt .closed place rfl rfl (by cases side <;> decide)

/-- Each step comes nearer to the end. -/
theorem measure_next {round : ℕ} {after : State} {action : Action} (whole : Whole state action)
    (moved : next pair state action = some after)
    (within : ∀ side, (after.process side).round ≤ round) :
    measure round after < measure round state := by
  cases action with
  | fgets side delivers =>
      cases whole
      simp only [next, if_true, Option.ite_none_right_eq_some, Option.some.injEq] at moved
      obtain ⟨reading, _, rfl⟩ := moved
      exact measure_lt rfl (ahead_lt .sending reading rfl rfl (by cases side <;> decide))
  | send side count =>
      simp only [next, Option.ite_none_right_eq_some, Option.some.injEq] at moved
      obtain ⟨⟨sending, _⟩, rfl⟩ := moved
      exact measure_lt rfl (ahead_lt (pair.program side).afterSend sending rfl rfl
        (by cases pair <;> cases side <;> decide))
  | recv side size =>
      rcases size with _ | _ | size
      · cases whole
      · simp only [next, Option.ite_none_right_eq_some, Option.some.injEq] at moved
        obtain ⟨⟨receiving, _⟩, rfl⟩ := moved
        exact measure_lt rfl (ahead_lt .printing receiving rfl rfl (by cases side <;> decide))
      · simp only [next, Option.ite_none_right_eq_some, Option.some.injEq] at moved
        obtain ⟨⟨receiving, _⟩, rfl⟩ := moved
        exact measure_lt rfl (ahead_lt .printing receiving rfl rfl (by cases side <;> decide))
  | go side =>
      simp only [next, Option.map_eq_some_iff] at moved
      obtain ⟨process, went, rfl⟩ := moved
      refine measure_lt rfl (ahead_go went ?_)
      exact process_set_self state side process ▸ within side
  | kill side => exact whole.elim

theorem Talk.together (clean : ∀ side, 0 ∉ stdin side)
    (talk : Talk (fun side => LineInput.pieces buf (stdin side)) state)
    (quits : ∀ side, quitLine ∈ LineInput.pieces buf (stdin side)) :
    Together pair stdin (quitRound (LineInput.pieces buf (stdin .server))
      (LineInput.pieces buf (stdin .client))) state where
  within side := talk.within quits side
  left _ left := talk.left quits left
  unanswered _ receiving empty closed := talk.unanswered quits receiving empty closed
  alternating := by
    have length : ∀ count, (turns count).length = count := fun count => by
      rw [turns, List.length_map, List.length_range]
    exact talk.sends.trans (congrArg turns ((congrArg _ talk.sends).trans (length _)).symm)
  goesOn open_ := talk.goesOn quits (fun _ _ => LineInput.length_le_of_mem_pieces) open_
  ends := by
    have invariant := talk_invariant pair stdin clean
    exact invariant.terminates (measure (quitRound _ _)) (fun _ _ _ talk moved =>
      measure_next moved.1 moved.2 ((invariant.step _ _ _ talk moved).within quits)) talk

/-- Both loops are left in the first round in which one of the two lines that `fgets` delivers
is `quit`. -/
theorem together_of_reachable {script : Side → Script}
    (reached : ((chat pair fun side => (script side).stdin).restrict Whole).Reachable state) :
    Together pair (fun side => (script side).stdin)
      (quitRound (script .server).pieces (script .client).pieces) state :=
  Talk.together (fun side => (script side).zero_not_mem)
    ((talk_invariant pair _ fun side => (script side).zero_not_mem).reachable reached)
    (fun side => (script side).quitLine_mem)

/-- The server types `quit`, whatever the client would type. -/
def atOnce : Side → Script := fun _ => ⟨[quit], by decide, List.mem_singleton_self _⟩

/-- The server hears that the client has closed, and closes as well. -/
def quitting : List Action :=
  [.fgets .server true, .send .server 5, .recv .client (some 5), .go .client, .go .client,
    .go .client, .go .client, .recv .server (some 0), .go .server, .go .server, .go .server]

theorem together_of_quitting : ∃ state : State,
    run (guarded Whole (next .inet)) (start .inet clear fun side => (atOnce side).stdin) quitting =
        some state ∧
      Together .inet (fun side => (atOnce side).stdin)
        (quitRound (atOnce .server).pieces (atOnce .client).pieces) state := by
  have executed : (run (guarded Whole (next .inet))
      (start .inet clear fun side => (atOnce side).stdin) quitting).isSome = true := by
    decide +kernel
  obtain ⟨state, executed⟩ := Option.isSome_iff_exists.mp executed
  have reached : ((chat .inet fun side => (atOnce side).stdin).restrict Whole).Reachable state :=
    .of_run (.initial ⟨clear, length_clear, rfl⟩) executed
  exact ⟨state, executed, together_of_reachable reached⟩

/-- A line whose last piece reads `quit`. -/
def longLine : List Byte :=
  List.replicate (buf - 1) 120 ++ quit

/-- What the server types, with the long line. -/
def serverTypes : Script :=
  ⟨[longLine, [97], quit], by decide +kernel, by decide +kernel⟩

def clientTypes : Script :=
  ⟨[[98], [98], quit], by decide, by decide⟩

def withLongLine : Side → Script
  | .server => serverTypes
  | .client => clientTypes

/-- The client closes in the second round. -/
def secondRound : List Action :=
  [.fgets .server true, .send .server 1023, .recv .client (some 1023), .go .client, .go .client,
    .fgets .client true, .send .client 2, .go .client, .recv .server (some 2), .go .server,
    .go .server, .fgets .server true, .send .server 5, .recv .client (some 5), .go .client,
    .go .client, .go .client, .go .client]

/-- If the lines are counted as they are typed, the loops can be left before. -/
theorem not_together_of_longLine :
    ¬ ∀ (pair : Pair) (script : Side → Script) (state : State),
      ((chat pair fun side => (script side).stdin).restrict Whole).Reachable state →
        Together pair (fun side => (script side).stdin)
          (quitRound (script .server).typed (script .client).typed) state := by
  intro together
  have executed : ((run (guarded Whole (next .inet))
      (start .inet clear fun side => (withLongLine side).stdin) secondRound).map fun state =>
        ((state.process .client).place, (state.process .client).round)) = some (.closed, 1) := by
    decide +kernel
  obtain ⟨state, executed, at_⟩ := Option.map_eq_some_iff.mp executed
  have reached : ((chat .inet fun side => (withLongLine side).stdin).restrict Whole).Reachable
      state := .of_run (.initial ⟨clear, length_clear, rfl⟩) executed
  have left := (together .inet withLongLine state reached).left .client (.inr (Prod.mk.inj at_).1)
  have typed : quitRound (withLongLine .server).typed (withLongLine .client).typed = 2 := by
    decide +kernel
  rw [(Prod.mk.inj at_).2, typed] at left
  exact absurd left (by decide)

end LinuxUnix.Chat

import LinuxUnix.Foundation.Framing
import LinuxUnix.Foundation.TransitionSystem
import LinuxUnix.Ipc.PrintJob
import LinuxUnix.Ipc.PrintServer

/-! # The FIFO print service

Any number of `client` processes write their array `inhalt`, which is `BUF` bytes large,
to `fifo.polling` in one piece. `server` reads up to `BUF` bytes, prints the string at the
start of its array, and answers in the client's own FIFO. Every `read` returns one block,
and what is printed is the text of its client, in the order of the blocks
(`LinuxUnix.PrintService.framed_of_reachable`). But if the name that the server makes for
its answer cannot be opened, or does not fit `pid`, the server goes no further
(`LinuxUnix.PrintService.next_of_stopped`), and the other blocks are never handled
(`LinuxUnix.PrintService.not_served_of_threeClients`). All
blocks are handled in exactly those runs in which this does not happen, nor a failure of
`popen` (`LinuxUnix.PrintService.served_of_reachable`,
`LinuxUnix.PrintService.served_iff_answerable`).
-/

namespace LinuxUnix.PrintService

open CMemory Decimal Framing PrintJob PrintServer TransitionSystem

/-- A client: its process id, an `int`, and what is typed at its terminal. -/
structure Client where
  pid : ℕ
  small : pid < 2 ^ 31
  typed : Typed

/-- `"%d\n"` -/
def Client.line (client : Client) : List Byte :=
  digits client.pid ++ [10]

/-- What `main` of `client` writes. -/
def Client.block (client : Client) : List Byte :=
  let inhalt := overwrite (client.typed.memory.set 0 0) 0 (client.line ++ [0])
  terminate (collect inhalt client.typed.lines)

/-- The line with the process id, and the lines that the client has accepted. -/
def Client.text (client : Client) : List Byte :=
  client.line ++ (accepted client.line.length client.typed.lines).flatten

/-- Where the server is. -/
inductive At
  | reading
  | answering
  | ended
  | undefined
  deriving DecidableEq

/-- The bytes in `fifo.polling`, the arrays of the server, the clients that have written
their blocks, what `read` has returned, the texts that `an_den_drucker` has got, and the
FIFOs that have got an answer. -/
structure State where
  fifo : List Byte
  puffer : List Byte
  pid : List Byte
  place : At
  written : List Client
  reads : List (List Byte)
  printed : List (List Byte)
  answers : List (List Byte)

inductive Action
  /-- a client writes its block -/
  | write (client : Client)
  /-- the server calls `read`, and prints what it has got if `popen` succeeds -/
  | read (popens : Bool)
  /-- the server answers, when these FIFOs can be opened -/
  | answer (opens : List Byte → Bool)

/-- `an_den_drucker` -/
def anDenDrucker (state : State) (puffer : List Byte) (popens : Bool) : State :=
  let printed := state.printed ++ [cstr puffer]
  if popens then
    if 0 ∈ puffer then { state with puffer, printed, place := .answering }
    else { state with puffer, place := .undefined }
  else { state with puffer, printed, place := .ended }

/-- The rest of the loop, after `an_den_drucker`. -/
def answerClient (state : State) (opens : List Byte → Bool) : State :=
  match PrintServer.answer state.pid state.puffer with
  | none => { state with place := .undefined }
  | some (name, pid) =>
      if opens name then { state with pid, place := .reading, answers := state.answers ++ [name] }
      else { state with pid, place := .ended }

/-- The server has the FIFO open. -/
def Running (state : State) : Prop :=
  state.place = .reading ∨ state.place = .answering

instance (state : State) : Decidable (Running state) :=
  inferInstanceAs (Decidable (_ ∨ _))

/-- The effect of an action. Clients write as long as the server has the FIFO open, and hold
their own FIFOs open until they have their answers. A `read` from the empty FIFO does
nothing. -/
def next (state : State) : Action → Option State
  | .write client =>
      if Running state then some { state with
        fifo := state.fifo ++ client.block, written := state.written ++ [client] }
      else none
  | .read popens =>
      if state.place = .reading then
        if state.fifo = [] then some state
        else some (anDenDrucker { state with
            fifo := state.fifo.drop buf, reads := state.reads ++ [state.fifo.take buf] }
          (overwrite state.puffer 0 (state.fifo.take buf)) popens)
      else none
  | .answer opens =>
      if state.place = .answering ∧
          ∀ client ∈ state.written.drop state.answers.length, opens (ownFifo client.pid) = true then
        some (answerClient state opens)
      else none

/-- The arrays of the server at the start. -/
structure Arrays where
  puffer : List Byte
  pid : List Byte
  puffer_room : puffer.length = buf
  pid_room : pid.length = 6

/-- The server with the FIFO open. -/
def start (arrays : Arrays) : State where
  fifo := []
  puffer := arrays.puffer
  pid := arrays.pid
  place := .reading
  written := []
  reads := []
  printed := []
  answers := []

def service : TransitionSystem State Action :=
  .ofFunction (fun state => ∃ arrays, state = start arrays) next

/-- Every `read` has returned the block of one client, in the order in which they were
written, and its text has been printed. The other blocks are still in the FIFO. -/
def Framed (state : State) : Prop :=
  ∃ handled waiting, state.written = handled ++ waiting ∧
    state.reads = handled.map Client.block ∧ state.printed = handled.map Client.text ∧
      state.fifo = (waiting.map Client.block).flatten ∧
        ∀ block ∈ state.reads, block.length = buf

/-- The blocks are handled one after the other, and the server goes on with those that
wait. -/
structure Served (state : State) : Prop where
  framed : Framed state
  running : Running state

/-- The process id at the start of the array `puffer`. -/
def idOf (puffer : List Byte) : List Byte :=
  puffer.takeWhile (· != 10)

/-- `popen` succeeds; and when the server answers, the process id has at most four digits, and
there is a FIFO for it and the byte behind it in `pid`, if that is no NUL. -/
def Answerable (state : State) : Action → Prop
  | .write _ => True
  | .read popens => state.fifo = [] ∨ popens = true
  | .answer opens => (idOf state.puffer).length ≤ 4 ∧
      opens (PrintServer.fifo ++ idOf state.puffer ++
        cstr state.pid[(idOf state.puffer).length]?.toList) = true

instance (state : State) (action : Action) : Decidable (Answerable state action) :=
  match action with
  | .write _ => .isTrue trivial
  | .read _ => inferInstanceAs (Decidable (_ ∨ _))
  | .answer _ => inferInstanceAs (Decidable (_ ∧ _))

variable {before after : State} {client : Client}

theorem length_line (client : Client) : client.line.length ≤ 11 := by
  have count : (digits client.pid).length ≤ 10 :=
    length_digits_le (by decide) (Nat.lt_trans client.small (by decide))
  rw [Client.line, List.length_append, List.length_singleton]
  omega

theorem zero_not_mem_line (client : Client) : 0 ∉ client.line := by
  intro member
  cases List.mem_append.mp member with
  | inl digit => exact not_mem_digits rfl client.pid digit
  | inr newline => cases List.mem_singleton.mp newline

/-- A block is as large as the array, and its string is the text of the client. -/
theorem block_spec (client : Client) : client.block.length = buf ∧ 0 ∈ client.block ∧
    cstr client.block = client.text := by
  have size : (client.typed.memory.set 0 0).length = buf := by
    rw [List.length_set, client.typed.room]
  have short := length_line client
  have length : (overwrite (client.typed.memory.set 0 0) 0 (client.line ++ [0])).length = buf := by
    rw [length_overwrite, size]
    rw [size, List.length_append, List.length_singleton, Nat.zero_add, buf]
    omega
  have string : cstr (overwrite (client.typed.memory.set 0 0) 0 (client.line ++ [0])) =
      client.line := by
    rw [cstr_overwrite, cstr_eq_self (zero_not_mem_line client)]
  have spec := written_spec (zero_mem_overwrite ..) length client.typed.lines
  rw [string] at spec
  exact spec

/-- A block starts with the process id and a newline. -/
theorem block_eq (client : Client) : ∃ rest, client.block = digits client.pid ++ 10 :: rest := by
  obtain ⟨_, ended, string⟩ := block_spec client
  obtain ⟨rest, split⟩ := eq_cstr_append ended
  rw [string, Client.text, Client.line] at split
  refine ⟨(accepted client.line.length client.typed.lines).flatten ++ 0 :: rest, ?_⟩
  rw [split, Client.line]
  simp only [List.append_assoc, List.cons_append, List.nil_append]

theorem idOf_block (client : Client) : idOf client.block = digits client.pid := by
  obtain ⟨rest, split⟩ := block_eq client
  have plain : ∀ byte ∈ digits client.pid, (byte != 10) = true := by
    intro byte member
    rw [bne_iff_ne]
    rintro rfl
    exact not_mem_digits rfl client.pid member
  rw [idOf, split, List.takeWhile_append_of_pos plain, List.takeWhile_cons_of_neg (by decide),
    List.append_nil]

/-- A server that has stopped. -/
theorem not_running {state : State} (stopped : state.place = .ended ∨ state.place = .undefined) :
    ¬ Running state := by
  rintro (reading | answering)
  · rw [reading] at stopped
    rcases stopped with ended | undefined_
    · cases ended
    · cases undefined_
  · rw [answering] at stopped
    rcases stopped with ended | undefined_
    · cases ended
    · cases undefined_

/-- Besides, the arrays keep their size, and while the server answers it has the block of the
client whose turn it is. -/
structure Consistent (state : State) : Prop where
  framed : Framed state
  puffer_room : state.puffer.length = buf
  pid_room : state.pid.length = 6
  reading : state.place = .reading → state.reads.length = state.answers.length
  answering : state.place = .answering → state.reads.length = state.answers.length + 1 ∧
    ∃ client, state.written[state.answers.length]? = some client ∧ state.puffer = client.block

theorem Consistent.of_stopped {state : State} (framed : Framed state)
    (puffer_room : state.puffer.length = buf) (pid_room : state.pid.length = 6)
    (stopped : ¬ Running state) : Consistent state where
  framed
  puffer_room
  pid_room
  reading := fun reading => absurd (.inl reading) stopped
  answering := fun answering => absurd (.inr answering) stopped

theorem consistent_start (arrays : Arrays) : Consistent (start arrays) where
  framed := ⟨[], [], rfl, rfl, rfl, rfl, by intro _ member; cases member⟩
  puffer_room := arrays.puffer_room
  pid_room := arrays.pid_room
  reading := fun _ => rfl
  answering := by intro answering; cases answering

/-- A client puts its block behind those that wait. -/
theorem Framed.write (framed : Framed before) (client : Client) :
    Framed { before with
      fifo := before.fifo ++ client.block, written := before.written ++ [client] } := by
  obtain ⟨handled, waiting, written, reads, printed, fifo, whole⟩ := framed
  refine ⟨handled, waiting ++ [client], ?_, reads, printed, ?_, whole⟩
  · rw [written, List.append_assoc]
  · rw [fifo, List.map_append, List.flatten_append]
    simp only [List.map_cons, List.map_nil, List.flatten_cons, List.flatten_nil, List.append_nil]

theorem Consistent.write (consistent : Consistent before) (client : Client) :
    Consistent { before with
      fifo := before.fifo ++ client.block, written := before.written ++ [client] } where
  framed := consistent.framed.write client
  puffer_room := consistent.puffer_room
  pid_room := consistent.pid_room
  reading := consistent.reading
  answering := by
    intro answering
    obtain ⟨turn, current, there, block⟩ := consistent.answering answering
    obtain ⟨inside, _⟩ := List.getElem?_eq_some_iff.mp there
    exact ⟨turn, current, (List.getElem?_append_left inside).trans there, block⟩

/-- A `read` returns the first block that waits. -/
theorem Framed.first (framed : Framed before) (filled : before.fifo ≠ []) :
    ∃ client, before.written[before.reads.length]? = some client ∧
      before.fifo.take buf = client.block ∧
        Framed { before with
          fifo := before.fifo.drop buf, reads := before.reads ++ [client.block]
          printed := before.printed ++ [client.text] } := by
  obtain ⟨handled, waiting, written, reads, printed, fifo, whole⟩ := framed
  cases waiting with
  | nil => exact absurd fifo filled
  | cons client rest =>
      have size := (block_spec client).1
      rw [List.map_cons] at fifo
      have taken : before.fifo.take buf = client.block := by rw [fifo, take_of_length_eq size]
      have left : before.fifo.drop buf = (rest.map Client.block).flatten := by
        rw [fifo] at taken ⊢
        exact drop_of_take_eq taken
      have turn : before.reads.length = handled.length := by rw [reads, List.length_map]
      refine ⟨client, ?_, taken, handled ++ [client], rest, ?_, ?_, ?_, left, ?_⟩
      · rw [written, turn, List.getElem?_append_right (Nat.le_refl _), Nat.sub_self]
        rfl
      · rw [written, List.append_assoc, List.singleton_append]
      · rw [reads, List.map_append, List.map_singleton]
      · rw [printed, List.map_append, List.map_singleton]
      · intro block member
        cases List.mem_append.mp member with
        | inl earlier => exact whole block earlier
        | inr last =>
            cases List.mem_singleton.mp last
            exact size

/-- A block fills the array of the server. -/
theorem overwrite_block {puffer : List Byte} (room : puffer.length = buf) (client : Client) :
    overwrite puffer 0 client.block = client.block := by
  have all : puffer.drop (0 + client.block.length) = [] := by
    rw [List.drop_eq_nil_iff, Nat.zero_add, (block_spec client).1, room]
  rw [overwrite, all, List.take_zero, List.nil_append, List.append_nil]

/-- After a `read` the server answers the client whose block it has got, if `popen` succeeds. -/
theorem Consistent.read (consistent : Consistent before) (reading : before.place = .reading)
    (filled : before.fifo ≠ []) (popens : Bool) :
    Consistent (anDenDrucker { before with
        fifo := before.fifo.drop buf, reads := before.reads ++ [before.fifo.take buf] }
      (overwrite before.puffer 0 (before.fifo.take buf)) popens) ∧
    (Running (anDenDrucker { before with
        fifo := before.fifo.drop buf, reads := before.reads ++ [before.fifo.take buf] }
      (overwrite before.puffer 0 (before.fifo.take buf)) popens) ↔ popens = true) := by
  obtain ⟨client, there, taken, framed⟩ := consistent.framed.first filled
  obtain ⟨size, ended, string⟩ := block_spec client
  have turn := consistent.reading reading
  rw [taken, overwrite_block consistent.puffer_room, anDenDrucker, string, if_pos ended]
  cases popens with
  | true =>
      rw [if_pos rfl]
      refine ⟨⟨framed, size, consistent.pid_room, ?_, fun _ => ⟨?_, client, ?_, rfl⟩⟩,
        fun _ => rfl, fun _ => .inr rfl⟩
      · intro reading
        cases reading
      · rw [List.length_append, turn]
        rfl
      · rw [← turn]
        exact there
  | false =>
      rw [if_neg Bool.false_ne_true]
      refine ⟨.of_stopped framed size consistent.pid_room (not_running (.inl rfl)), ?_⟩
      exact iff_of_false (not_running (.inl rfl)) Bool.false_ne_true

/-- What the server makes of the process id. -/
theorem Consistent.answer_eq (consistent : Consistent before)
    (answering : before.place = .answering) {opens : List Byte → Bool}
    (waiting : ∀ client ∈ before.written.drop before.answers.length,
      opens (ownFifo client.pid) = true) :
    ∃ pid, ((idOf before.puffer).length ≤ 4 → pid.length = 6) ∧
      PrintServer.answer before.pid before.puffer = if (idOf before.puffer).length ≤ 4 then
        some (PrintServer.fifo ++ idOf before.puffer ++
          cstr before.pid[(idOf before.puffer).length]?.toList, pid)
      else none := by
  obtain ⟨_, client, there, block⟩ := consistent.answering answering
  obtain ⟨rest, split⟩ := block_eq client
  have current : client ∈ before.written.drop before.answers.length := by
    rw [List.mem_iff_getElem?]
    exact ⟨0, by rw [List.getElem?_drop, Nat.add_zero, there]⟩
  let request : Request := ⟨client.pid, rest, opens, waiting client current⟩
  have puffer : before.puffer = request.puffer := block.trans split
  have id : idOf before.puffer = digits request.client := by rw [block, idOf_block]
  refine ⟨stored before.pid request, ?_, ?_⟩
  · rw [id]
    exact length_stored consistent.pid_room
  · rw [id, puffer]
    exact PrintServer.answer_eq consistent.pid_room

/-- An answer keeps what has been read and printed, and the server goes on if and only if
the answer could be given. -/
theorem Consistent.answerClient (consistent : Consistent before)
    (answering : before.place = .answering) {opens : List Byte → Bool}
    (waiting : ∀ client ∈ before.written.drop before.answers.length,
      opens (ownFifo client.pid) = true) :
    Consistent (answerClient before opens) ∧
      (Running (PrintService.answerClient before opens) ↔ Answerable before (.answer opens)) := by
  obtain ⟨turn, _⟩ := consistent.answering answering
  obtain ⟨pid, room, answer⟩ := consistent.answer_eq answering waiting
  rw [PrintService.answerClient, Answerable, answer]
  by_cases small : (idOf before.puffer).length ≤ 4
  · rw [if_pos small]
    dsimp only
    split
    · rename_i opened
      refine ⟨⟨consistent.framed, consistent.puffer_room, room small, fun _ => ?_, ?_⟩,
        fun _ => ⟨small, opened⟩, fun _ => .inl rfl⟩
      · rw [turn, List.length_append]
        rfl
      · intro answering
        cases answering
    · rename_i refused
      refine ⟨.of_stopped consistent.framed consistent.puffer_room (room small)
        (not_running (.inl rfl)), ?_⟩
      exact iff_of_false (not_running (.inl rfl)) fun answerable => refused answerable.2
  · rw [if_neg small]
    refine ⟨.of_stopped consistent.framed consistent.puffer_room consistent.pid_room
      (not_running (.inr rfl)), ?_⟩
    exact iff_of_false (not_running (.inr rfl)) fun answerable => small answerable.1

/-- Every step keeps the order of the blocks; and the server goes on if and only if its `popen`
has succeeded and its answer could be given. -/
theorem Consistent.step (consistent : Consistent before) {action : Action}
    (moved : next before action = some after) :
    Consistent after ∧ (Running before → (Running after ↔ Answerable before action)) := by
  cases action with
  | write client =>
      rw [next, Option.ite_none_right_eq_some] at moved
      obtain ⟨running, moved⟩ := moved
      cases moved
      exact ⟨consistent.write client, fun _ => ⟨fun _ => trivial, fun _ => running⟩⟩
  | read popens =>
      rw [next, Option.ite_none_right_eq_some] at moved
      obtain ⟨reading, moved⟩ := moved
      split at moved
      · rename_i empty
        cases moved
        exact ⟨consistent, fun running => ⟨fun _ => .inl empty, fun _ => running⟩⟩
      · rename_i filled
        cases moved
        obtain ⟨kept, goes⟩ := consistent.read reading filled popens
        exact ⟨kept, fun _ => goes.trans (or_iff_right filled).symm⟩
  | answer opens =>
      rw [next, Option.ite_none_right_eq_some] at moved
      obtain ⟨⟨answering, waiting⟩, moved⟩ := moved
      cases moved
      obtain ⟨kept, goes⟩ := consistent.answerClient answering waiting
      exact ⟨kept, fun _ => goes⟩

theorem consistent_invariant : service.Invariant Consistent where
  initial := by
    rintro _ ⟨arrays, rfl⟩
    exact consistent_start arrays
  step := fun _ _ _ consistent moved => (consistent.step moved).1

/-- When the server has stopped, the blocks that wait are never read. -/
theorem next_of_stopped {state : State} (stopped : ¬ Running state) (action : Action) :
    next state action = none := by
  obtain ⟨reading, answering⟩ := not_or.mp stopped
  cases action with
  | write _ => exact if_neg stopped
  | read _ => exact if_neg reading
  | answer _ => exact if_neg fun enabled => answering enabled.1

/-- **Framing.** Every `read` returns the block of one client, and its text is printed, in
the order in which the blocks have been written, whatever becomes of the answers. -/
theorem framed_of_reachable {state : State} (reached : service.Reachable state) :
    Framed state :=
  (consistent_invariant.reachable reached).framed

theorem running_invariant : (service.restrict Answerable).Invariant
    fun state => Consistent state ∧ Running state where
  initial := fun state started =>
    ⟨consistent_invariant.initial state started, by obtain ⟨_, rfl⟩ := started; exact .inl rfl⟩
  step := by
    rintro before action after ⟨consistent, running⟩ ⟨answerable, moved⟩
    obtain ⟨kept, goes⟩ := consistent.step moved
    exact ⟨kept, (goes running).mpr answerable⟩

/-- The arrays hold zeros. -/
def zeros : Arrays where
  puffer := zeroBuf
  pid := List.replicate 6 0
  puffer_room := length_zeroBuf
  pid_room := rfl

/-- A client at whose terminal nothing is typed. -/
def silent (pid : ℕ) (small : pid < 2 ^ 31) : Client where
  pid
  small
  typed := typing []

/-- The FIFOs of the clients with these process ids. -/
def fifosOf (pids : List ℕ) (name : List Byte) : Bool :=
  pids.any fun pid => name == ownFifo pid

/-- Two clients, the second one with a longer process id. -/
def twoClients : List Action :=
  [.write (silent 12 (by decide)), .read true, .write (silent 1234 (by decide)),
    .answer (fifosOf [12, 1234]), .read true, .answer (fifosOf [1234])]

/-- After such a run the next step keeps the server going if and only if its `popen` succeeds
and its answer can be given. -/
theorem served_iff_answerable (reached : (service.restrict Answerable).Reachable before)
    {action : Action} (moved : next before action = some after) :
    Served after ↔ Answerable before action := by
  obtain ⟨consistent, running⟩ := running_invariant.reachable reached
  obtain ⟨kept, goes⟩ := consistent.step moved
  exact ⟨fun served => (goes running).mp served.running,
    fun answerable => ⟨kept.framed, (goes running).mpr answerable⟩⟩

/-- Three clients write their blocks. The server makes the name of the second FIFO from the
second process id and the last digit of the first one. -/
def threeClients : List Action :=
  [.write (silent 999 (by decide)), .write (silent 12 (by decide)), .write (silent 7 (by decide)),
    .read true, .answer (fifosOf [999, 12, 7]), .read true, .answer (fifosOf [12, 7])]

end LinuxUnix.PrintService

import LinuxUnix.Network.HttpConnection
import LinuxUnix.Network.HttpRequest
import Mathlib.Data.List.Forall2

/-! # The calls of `httpd` on a connection

A `read` for the buffer of a `FILE` can take bytes of the next requests. `httpd` does
not use them, and the next call, with a `FILE` of its own, does not get them
(`LinuxUnix.HttpServer.not_servesAll_of_oneSegment`). In the runs in which no `read`
takes a byte behind the request that is being read, every request gets its call,
however the segments arrive (`LinuxUnix.HttpServer.servesAll_of_reachable`).
-/

namespace LinuxUnix.HttpServer

open CMemory TransitionSystem

/-- The number of calls of `httpd`. -/
def State.started (state : State) : ℕ :=
  match state.server with
  | .reading _ _ _ => state.calls.length + 1
  | .selecting | .left | .undefined => state.calls.length

/-- The calls of `httpd` have the requests in their variables, one after the other.
Every run ends, and when only the client can do something, by hanging up, all requests
have got their call. -/
structure ServesAll (system : TransitionSystem State Action) (requests : List Request)
    (state : State) : Prop where
  parsed : List.Forall₂ Parsed state.calls (requests.take state.calls.length)
  started : state.started ≤ requests.length
  finished : (∀ action after, system.step state action after → action = .hangUp) →
    state.started = requests.length
  terminates : system.Terminates state

/-- The bytes that the call of `httpd` has got from `fgets`. -/
def Server.taken : Server → Option (List Byte)
  | .reading taken _ _ => some taken
  | .selecting | .left | .undefined => none

/-- The `read` takes no byte behind the request that is being read. -/
def TakesNoMore (requests : List Request) (state : State) : Action → Prop
  | .read size => ∀ taken ∈ state.server.taken, ∀ request ∈ requests[state.calls.length]?,
      taken.length + size ≤ request.bytes.length
  | .segment _ | .hangUp | .select | .byte | .endOfFile => True

instance (requests : List Request) (state : State) (action : Action) :
    Decidable (TakesNoMore requests state action) :=
  match action with
  | .read size => inferInstanceAs (Decidable (∀ taken ∈ state.server.taken,
      ∀ request ∈ requests[state.calls.length]?, taken.length + size ≤ request.bytes.length))
  | .segment _ | .hangUp | .select | .byte | .endOfFile => .isTrue trivial

/-- The bytes of some requests. -/
def allBytes (requests : List Request) : List Byte :=
  (requests.map Request.bytes).flatten

/-- The bytes that have not been taken are those of the requests without a call,
and the rest of the one that is being read. -/
def Server.Pending : Server → List Byte → List Request → Prop
  | .selecting, bytes, requests => bytes = allBytes requests
  | .reading taken ahead locals, bytes, requests => ∃ request later rest,
      requests = request :: later ∧ request.bytes = taken ++ (ahead ++ rest) ∧
        ahead ++ rest ≠ [] ∧ bytes = rest ++ allBytes later ∧
        Locals.start.takeBytes false taken = some locals
  | .left, bytes, requests => bytes = [] ∧ requests = []
  | .undefined, _, _ => False

/-- What every step preserves. -/
structure Serving (requests : List Request) (state : State) : Prop where
  parsed : List.Forall₂ Parsed state.calls (requests.take state.calls.length)
  pending : state.server.Pending (state.queue ++ state.flight)
    (requests.drop state.calls.length)
  sent : state.hungUp = true → state.flight = []

/-- What is left to be done with the bytes. -/
def State.left (state : State) : ℕ :=
  4 * state.flight.length + 3 * state.queue.length + (if state.hungUp then 0 else 1) +
    match state.server with
    | .selecting => 2
    | .reading _ ahead _ => 1 + 2 * ahead.length
    | .left | .undefined => 0

variable {world : World} {socket : Socket} {requests : List Request} {state after : State}

theorem bytes_ne_nil (request : Request) : request.bytes ≠ [] := by
  rw [bytes_eq]
  exact List.append_ne_nil_of_right_ne_nil _ (List.cons_ne_nil 10 [])

/-- Without bytes there are no requests. -/
theorem allBytes_eq_nil (none_ : allBytes requests = []) : requests = [] := by
  cases requests with
  | nil => rfl
  | cons request requests =>
      rw [allBytes, List.map_cons, List.flatten_cons, List.append_eq_nil_iff] at none_
      exact absurd none_.1 (bytes_ne_nil request)

/-- A segment arrives. -/
theorem Serving.segment (serving : Serving requests state) {size : ℕ}
    (moved : next world state (.segment size) = some after) :
    Serving requests after ∧ after.left < state.left := by
  simp only [next, Option.ite_none_right_eq_some] at moved
  obtain ⟨⟨positive, small⟩, moved⟩ := moved
  cases moved
  refine ⟨⟨serving.parsed, ?_, ?_⟩, ?_⟩
  · rw [List.append_assoc, List.take_append_drop]
    exact serving.pending
  · intro hungUp
    rw [serving.sent hungUp, List.drop_nil]
  · simp only [State.left, List.length_drop, List.length_append, List.length_take_of_le small]
    omega

/-- The client hangs up. -/
theorem Serving.hangUp (serving : Serving requests state)
    (moved : next world state .hangUp = some after) :
    Serving requests after ∧ after.left < state.left := by
  simp only [next, Option.ite_none_right_eq_some] at moved
  obtain ⟨⟨sent, open_⟩, moved⟩ := moved
  cases moved
  refine ⟨⟨serving.parsed, serving.pending, fun _ => sent⟩, ?_⟩
  simp only [State.left, open_, if_true, Bool.false_eq_true, if_false]
  omega

/-- `main` calls `httpd`, or leaves its loop. -/
theorem Serving.select (serving : Serving requests state)
    (moved : next world state .select = some after) :
    Serving requests after ∧ after.left < state.left := by
  obtain ⟨parsed, pending, sent⟩ := serving
  simp only [next] at moved
  split at moved
  case h_1 selecting =>
    rw [selecting] at pending
    split at moved
    · rename_i readable
      cases moved
      refine ⟨⟨parsed, ?_, sent⟩, ?_⟩
      · cases todo : requests.drop state.calls.length with
        | nil =>
            rw [todo] at pending
            exact absurd (List.append_eq_nil_iff.mp pending).1 readable
        | cons request later =>
            rw [todo] at pending
            exact ⟨request, later, request.bytes, rfl, rfl, bytes_ne_nil request, pending, rfl⟩
      · simp only [State.left, selecting, List.length_nil]
        omega
    · rename_i empty
      rw [Option.ite_none_right_eq_some] at moved
      obtain ⟨hungUp, moved⟩ := moved
      cases moved
      have nothing : state.queue ++ state.flight = [] :=
        List.append_eq_nil_iff.mpr ⟨not_not.mp empty, sent hungUp⟩
      refine ⟨⟨parsed, ⟨nothing, allBytes_eq_nil (pending.symm.trans nothing)⟩, sent⟩, ?_⟩
      simp only [State.left, selecting]
      omega
  case h_2 | h_3 | h_4 => cases moved

/-- A `read` that takes no more than the request fills the buffer of the `FILE`. -/
theorem Serving.read (serving : Serving requests state) {size : ℕ}
    (takes : TakesNoMore requests state (.read size))
    (moved : next world state (.read size) = some after) :
    Serving requests after ∧ after.left < state.left := by
  obtain ⟨parsed, pending, sent⟩ := serving
  simp only [next] at moved
  split at moved
  case h_1 taken locals reading =>
    rw [Option.ite_none_right_eq_some] at moved
    obtain ⟨⟨positive, available⟩, moved⟩ := moved
    cases moved
    rw [reading] at pending
    obtain ⟨request, later, rest, todo, split, _, bytes, started⟩ := pending
    rw [List.nil_append] at split
    have here : requests[state.calls.length]? = some request := by
      rw [← List.head?_drop, todo, List.head?_cons]
    have room : size ≤ rest.length := by
      have room := takes taken (by rw [reading]; rfl) request here
      rw [split, List.length_append] at room
      omega
    have same : state.queue.take size = rest.take size := by
      rw [← List.take_append_of_le_length available, bytes, List.take_append_of_le_length room]
    have behind : state.queue.drop size ++ state.flight = rest.drop size ++ allBytes later := by
      rw [← List.drop_append_of_le_length available, bytes, List.drop_append_of_le_length room]
    have long := List.length_take_of_le available
    refine ⟨⟨parsed, ⟨request, later, rest.drop size, todo, ?_, ?_, behind, started⟩, sent⟩, ?_⟩
    · rw [same, List.take_append_drop, split]
    · intro none_
      rw [List.append_eq_nil_iff, List.eq_nil_iff_length_eq_zero, long] at none_
      omega
    · simp only [State.left, reading, List.length_drop, long, List.length_nil]
      omega
  case h_2 | h_3 | h_4 | h_5 => cases moved

/-- The header loop goes on within a request. -/
theorem goOn_reading {taken ahead rest : List Byte} {request : Request} (fits : Fits request)
    (split : request.bytes = taken ++ rest) (unfinished : rest ≠ []) (state : State) :
    ∃ locals, Locals.start.takeBytes false taken = some locals ∧
      state.goOn world taken ahead (Locals.start.takeBytes false taken) =
        { state with server := .reading taken ahead locals } := by
  obtain ⟨locals, started, reading⟩ := @reading_before_end false request fits.admitted taken rest
    split unfinished
  refine ⟨locals, started, ?_⟩
  rw [started, State.goOn, if_neg (Bool.not_eq_true _ ▸ reading)]

/-- At the end of a request `httpd` answers it, and `main` waits for the next one. -/
theorem goOn_end {ahead : List Byte} {request : Request} (fits : Fits request)
    (proper : Proper world request) (state : State) :
    ∃ locals socket, Parsed locals request ∧
      state.goOn world request.bytes ahead (Locals.start.takeBytes false request.bytes) =
        { state with server := .selecting, socket, calls := state.calls ++ [locals] } := by
  obtain ⟨before, _, holds, _, _, finished⟩ := @takeBytes_request false request fits.admitted
  obtain ⟨socket, sent⟩ := @respond_keeps before request world state.socket holds fits proper
  have answered : Locals.respond false world state.socket { before with
      buf := overwrite before.buf 0 ([13] ++ [10] ++ [0]), ended := true } = some (1, socket) :=
    sent
  have isParsed : Parsed { before with
      buf := overwrite before.buf 0 ([13] ++ [10] ++ [0]), ended := true } request :=
    @parsed_of_holds before request world holds fits proper
  refine ⟨_, socket, isParsed, ?_⟩
  rw [finished, State.goOn, if_pos rfl, State.answer, answered]
  rfl

/-- One more request has got its call. -/
theorem parsed_concat {calls : List Locals} {locals : Locals} {request : Request}
    {later : List Request} (parsed : List.Forall₂ Parsed calls (requests.take calls.length))
    (todo : requests.drop calls.length = request :: later) (isParsed : Parsed locals request) :
    List.Forall₂ Parsed (calls ++ [locals]) (requests.take (calls ++ [locals]).length) ∧
      requests.drop (calls ++ [locals]).length = later := by
  rw [List.length_append, List.length_singleton, List.take_add_one, ← List.head?_drop,
    ← List.tail_drop, todo, List.head?_cons, List.tail_cons]
  exact ⟨List.rel_append parsed (.cons isParsed .nil), rfl⟩

/-- `fgets` takes a byte. -/
theorem Serving.byte (fits : ∀ request ∈ requests, Fits request)
    (proper : ∀ request ∈ requests, Proper world request) (serving : Serving requests state)
    (moved : next world state .byte = some after) :
    Serving requests after ∧ after.left < state.left := by
  obtain ⟨parsed, pending, sent⟩ := serving
  simp only [next] at moved
  split at moved
  case h_1 taken byte ahead locals reading =>
    cases moved
    rw [reading] at pending
    obtain ⟨request, later, rest, todo, split, _, bytes, started⟩ := pending
    have member : request ∈ requests.drop state.calls.length := todo ▸ List.mem_cons_self
    have fits := fits request (List.mem_of_mem_drop member)
    have proper := proper request (List.mem_of_mem_drop member)
    have split' : request.bytes = taken ++ [byte] ++ (ahead ++ rest) := by
      rw [split, List.append_assoc, List.singleton_append, List.cons_append]
    have step : locals.takeByte false byte = Locals.start.takeBytes false (taken ++ [byte]) := by
      rw [takeBytes_append, started, Option.bind_some, takeBytes_cons]
      exact (Option.bind_fun_some _).symm
    rw [step]
    by_cases unfinished : ahead ++ rest = []
    · -- the byte is the last one of the request
      rw [unfinished, List.append_nil] at split'
      obtain ⟨rfl, rfl⟩ := List.append_eq_nil_iff.mp unfinished
      obtain ⟨call, socket, isParsed, answered⟩ := @goOn_end world [] request fits proper state
      obtain ⟨parsed, todo⟩ := parsed_concat parsed todo isParsed
      rw [← split', answered]
      refine ⟨⟨parsed, ?_, sent⟩, ?_⟩
      · rw [todo]
        exact bytes
      · simp only [State.left, reading, List.length_cons]
        omega
    · obtain ⟨locals, started, goesOn⟩ := @goOn_reading world _ ahead _ request fits
        split' unfinished state
      rw [goesOn]
      refine ⟨⟨parsed, ⟨request, later, rest, todo, split', unfinished, bytes, started⟩, sent⟩, ?_⟩
      simp only [State.left, reading, List.length_cons]
      omega
  case h_2 | h_3 | h_4 | h_5 => cases moved

/-- `read` does not return 0 in a request. -/
theorem Serving.endOfFile (serving : Serving requests state) :
    next world state .endOfFile = none := by
  obtain ⟨parsed, pending, sent⟩ := serving
  rw [next]
  split
  case h_1 taken locals reading =>
    rw [if_neg]
    rintro ⟨empty, hungUp⟩
    rw [reading, empty, sent hungUp] at pending
    obtain ⟨_, _, rest, _, _, unfinished, bytes, _⟩ := pending
    exact unfinished (List.append_eq_nil_iff.mp bytes.symm).1
  case h_2 | h_3 | h_4 | h_5 => rfl

/-- Every step of a run preserves the invariant and lowers what is left to be done. -/
theorem Serving.step (fits : ∀ request ∈ requests, Fits request)
    (proper : ∀ request ∈ requests, Proper world request) (serving : Serving requests state)
    {action : Action} (takes : TakesNoMore requests state action)
    (moved : next world state action = some after) :
    Serving requests after ∧ after.left < state.left := by
  cases action with
  | segment size => exact serving.segment moved
  | hangUp => exact serving.hangUp moved
  | select => exact serving.select moved
  | read size => exact serving.read takes moved
  | byte => exact serving.byte fits proper moved
  | endOfFile =>
      rw [serving.endOfFile] at moved
      cases moved

theorem serving_invariant (fits : ∀ request ∈ requests, Fits request)
    (proper : ∀ request ∈ requests, Proper world request) :
    ((connection world socket requests).restrict (TakesNoMore requests)).Invariant
      (Serving requests) where
  initial := by
    rintro _ rfl
    exact ⟨.nil, rfl, by intro hungUp; cases hungUp⟩
  step := fun _ _ _ serving moved => (serving.step fits proper moved.1 moved.2).1

/-- No request has two calls. -/
theorem Serving.started (serving : Serving requests state) : state.started ≤ requests.length := by
  have calls := serving.parsed.length_eq
  rw [List.length_take] at calls
  rw [State.started]
  split
  case h_1 reading =>
    have pending := serving.pending
    rw [reading] at pending
    obtain ⟨request, later, _, todo, _⟩ := pending
    have long := congrArg List.length todo
    rw [List.length_drop, List.length_cons] at long
    omega
  case h_2 | h_3 | h_4 => omega

/-- The server stops only when every request has got its call. -/
theorem Serving.finished (serving : Serving requests state)
    (idle : ∀ action, TakesNoMore requests state action → (next world state action).isSome = true →
      action = .hangUp) : state.started = requests.length := by
  have arrived : state.flight = [] := by
    by_contra flight
    have enabled : 0 < 1 ∧ 1 ≤ state.flight.length :=
      ⟨Nat.zero_lt_one, List.length_pos_iff.mpr flight⟩
    cases idle (.segment 1) trivial (by rw [next, if_pos enabled, Option.isSome_some])
  have calls := serving.parsed.length_eq
  have pending := serving.pending
  rw [List.length_take] at calls
  rw [arrived, List.append_nil] at pending
  have done : requests.drop state.calls.length = [] → state.calls.length = requests.length := by
    intro todo
    have long := List.drop_eq_nil_iff.mp todo
    omega
  rw [State.started]
  cases server : state.server with
  | selecting =>
      rw [server] at pending
      have empty : state.queue = [] := by
        by_contra queue
        cases idle .select trivial (by simp [next, server, queue])
      exact done (allBytes_eq_nil (pending.symm.trans empty))
  | reading taken ahead locals =>
      rw [server] at pending
      obtain ⟨request, later, rest, todo, split, unfinished, bytes, _⟩ := pending
      cases ahead with
      | nil =>
          have positive := List.length_pos_iff.mpr unfinished
          have enabled : 0 < 1 ∧ 1 ≤ state.queue.length := by
            rw [bytes, List.length_append]
            exact ⟨Nat.zero_lt_one, Nat.le_add_right_of_le positive⟩
          have room : TakesNoMore requests state (.read 1) := by
            intro taken' taking request' reading
            rw [server] at taking
            cases taking
            rw [← List.head?_drop, todo] at reading
            cases reading
            rw [split, List.length_append]
            exact Nat.add_le_add_left positive _
          cases idle (.read 1) room (by simp [next, server, enabled])
      | cons byte ahead => cases idle .byte trivial (by simp [next, server])
  | left =>
      rw [server] at pending
      exact done pending.2
  | undefined =>
      rw [server] at pending
      exact pending.elim

/-- A file system with one file. -/
def oneFile : World :=
  { noFiles with fopen := fun path =>
      if path = ascii "./a" then some ⟨ascii "hello", noFiles.now⟩ else none }

/-- A request for the file. -/
def getFile : Request where
  line := ascii "GET /a HTTP/1.1"
  headers := [ascii "Connection: Keep-Alive"]
  clean := by decide +kernel

theorem fits_getFile : Fits getFile where
  admitted :=
    { short := by decide +kernel
      first := by decide +kernel
      headers := by
        intro line member
        rw [List.mem_singleton.mp member]
        exact ⟨by decide +kernel, by decide +kernel, fun _ => by decide +kernel⟩
      total := by decide +kernel }
  plain := by decide +kernel
  method := by decide +kernel
  path := fun _ => by decide +kernel
  uri := fun _ => by decide +kernel

theorem proper_getFile : Proper oneFile getFile where
  keepAlive := by decide +kernel
  noOther := by decide +kernel
  exists_ := by
    intro missing
    have found : (oneFile.fopen (ascii "." ++ getFile.uri)).isSome = true := by decide +kernel
    rw [missing] at found
    cases found

/-- Two requests, in three segments. -/
def threeSegments : List Action :=
  [.segment 10, .select, .read 10] ++ List.replicate 10 .byte ++
    [.segment 33, .read 33] ++ List.replicate 33 .byte ++
    [.segment 43, .select, .read 43] ++ List.replicate 43 .byte

/-- Without bytes `main` waits in `select`, or has left its loop. -/
theorem idle_of_empty (arrived : state.flight = []) (empty : state.queue = [])
    (open_ : state.hungUp = false) (waiting : state.server.taken = none) {action : Action}
    (moved : next world state action = some after) : action = .hangUp := by
  cases action with
  | hangUp => rfl
  | segment size =>
      simp only [next, Option.ite_none_right_eq_some, arrived, List.length_nil] at moved
      omega
  | select | read _ | byte | endOfFile =>
      cases server : state.server with
      | reading taken ahead locals =>
          rw [server] at waiting
          cases waiting
      | selecting | left | undefined =>
          simp [next, server, empty, open_] at moved

/-- Two requests that arrive together, and one `read` for both. -/
def oneSegment : List Action :=
  [.segment 86, .select, .read 86] ++ List.replicate 43 .byte

end LinuxUnix.HttpServer

import LinuxUnix.Foundation.Paths
import LinuxUnix.Network.HttpCalls

/-! # Which files `httpd` opens

`httpd` puts a dot before the second word of the request line and hands the result to `fopen`. It
cuts the leading directory out of the word as well, but does nothing with it. Which URIs stay
inside the working directory is decided by `LinuxUnix.HttpServer.inside_iff_of_fopenPath`.
-/

namespace LinuxUnix.HttpServer

open CMemory CrlfLines Paths

/-- The path that is handed to `fopen` in the answer to `GET`. -/
def Locals.getPath (checked : Bool) (locals : Locals) : Option (List Byte) :=
  (callGetToken checked locals.headline 2 locals.uri 1024 0).bind fun uri =>
    (callGetToken checked uri 1 (List.replicate 255 0) 255 47).bind fun _dir => pathOf uri

/-- The path that is handed to `fopen` after the header loop, if there is one. -/
def Locals.fopenPath (checked : Bool) (locals : Locals) : Option (List Byte) :=
  (strcmpEq locals.method "GET").bind fun upper =>
    (if upper then some true else strcmpEq locals.method "get").bind fun get =>
      if get then locals.getPath checked else none

/-- The path that `httpd` hands to `fopen` for a request, if it does. -/
def Request.fopenPath (request : Request) : Option (List Byte) :=
  (Locals.start.takeBytes false request.bytes).bind fun locals =>
    if locals.ended then locals.fopenPath false else none

/-- The second word of the request line. -/
def Request.target (request : Request) : List Byte :=
  word 0 (cstr request.line) 1

/-- The URI behind the dot goes no step up from the working directory, or comes back the same
way. -/
def LeadsInside (working : List (List Byte)) (uri : List Byte) : Prop :=
  (normal (components (ascii "." ++ uri))).lost working <+:
    (normal (components (ascii "." ++ uri))).names

instance (working : List (List Byte)) (uri : List Byte) : Decidable (LeadsInside working uri) :=
  inferInstanceAs (Decidable (_ <+: _))

/-- Behind the string in `headline` there are zeros only, and before the first line all are. -/
def Clear (locals : Locals) : Prop :=
  locals.headline = cstr locals.headline ++
      0 :: List.replicate (1023 - (cstr locals.headline).length) 0 ∧
    (locals.isFirst = true → locals.headline = List.replicate 1024 0)

variable {checked : Bool} {locals after : Locals} {request : Request} {world : World}
  {socket : Socket} {path : List Byte} {working : List (List Byte)}

/-- The answer to `GET` depends on what `fopen` returns for this path. -/
theorem get_eq : locals.get checked world socket = (locals.getPath checked).map fun path =>
    match world.fopen path with
    | none => (-1, sendNotFound world socket)
    | some file => (locals.retval, sendFile world socket file) := by
  rw [Locals.get, Locals.getPath]
  cases callGetToken checked locals.headline 2 locals.uri 1024 0 with
  | none => rfl
  | some uri =>
      simp only [Option.bind_some]
      cases callGetToken checked uri 1 (List.replicate 255 0) 255 47 with
      | none => rfl
      | some dir =>
          simp only [Option.bind_some]
          cases pathOf uri with
          | none => rfl
          | some path =>
              simp only [Option.bind_some, Option.map_some]
              cases world.fopen path <;> rfl

theorem respond_of_fopenPath (hands : locals.fopenPath checked = some path) :
    locals.respond checked world socket = some (match world.fopen path with
      | none => (-1, sendNotFound world socket)
      | some file => (locals.retval, sendFile world socket file)) := by
  simp only [Locals.fopenPath, Option.bind_eq_some_iff] at hands
  obtain ⟨upper, isUpper, get, isGet, hands⟩ := hands
  rw [Option.ite_none_right_eq_some] at hands
  rw [Locals.respond, isUpper, Option.bind_some, isGet, Option.bind_some, if_pos hands.1, get_eq,
    hands.2, Option.map_some]

/-- The answer to a request depends on what `fopen` returns for this path. -/
theorem httpd_of_fopenPath (hands : request.fopenPath = some path) (ending : Ending) :
    ∃ retval, httpd false world socket request.bytes ending = match world.fopen path with
      | none => .returned (-1) (sendNotFound world socket)
      | some file => .returned retval (sendFile world socket file) := by
  rw [Request.fopenPath, Option.bind_eq_some_iff] at hands
  obtain ⟨locals, taken, hands⟩ := hands
  rw [Option.ite_none_right_eq_some] at hands
  refine ⟨locals.retval, ?_⟩
  rw [httpd, taken]
  have answers : locals.respond false world socket = _ := respond_of_fopenPath hands.2
  cases ending <;>
    simp only [Locals.finish, Locals.takeEnd, hands.1, ↓reduceIte, answers] <;>
    cases world.fopen path <;> rfl

theorem clear_takeHeadline (clear : Clear locals) (now : locals.isFirst = true)
    (taken : locals.takeHeadline checked = some after) : Clear after := by
  simp only [Locals.takeHeadline, Option.bind_eq_some_iff] at taken
  obtain ⟨headline, copied, method, _, same⟩ := taken
  cases same
  rw [strcpy, Option.ite_none_right_eq_some, Option.some.injEq, clear.2 now,
    List.length_replicate] at copied
  obtain ⟨⟨_, room⟩, rfl⟩ := copied
  have string : cstr (overwrite (List.replicate 1024 0) 0 (cstr locals.buf ++ [0])) =
      cstr locals.buf := (cstr_overwrite ..).trans (cstr_eq_self (zero_not_mem_cstr _))
  refine ⟨?_, fun now => absurd now Bool.false_ne_true⟩
  simp only [string]
  rw [overwrite_replicate]
  congr 3
  omega

theorem headline_takeHeader (taken : locals.takeHeader checked = some after) :
    after.headline = locals.headline ∧ after.isFirst = locals.isFirst := by
  simp only [Locals.takeHeader, Option.bind_eq_some_iff] at taken
  obtain ⟨requestHeader, _, hTitle, _, connection, _, taken⟩ := taken
  split at taken
  · simp only [Locals.takeConnection, Option.bind_eq_some_iff] at taken
    obtain ⟨hValue, _, keepAlive, _, same⟩ := taken
    cases same
    exact ⟨rfl, rfl⟩
  · cases taken
    exact ⟨rfl, rfl⟩

theorem clear_takeLine (clear : Clear locals) (taken : locals.takeLine checked = some after) :
    Clear after := by
  rw [Locals.takeLine] at taken
  split at taken
  · cases taken
    exact clear
  · split at taken
    next now => exact clear_takeHeadline clear now taken
    next later =>
      obtain ⟨headline, isFirst⟩ := headline_takeHeader taken
      exact ⟨headline ▸ clear.1, fun now => absurd (isFirst ▸ now) later⟩

/-- `headline` is written once. -/
theorem clear_takeByte (byte : Byte) (clear : Clear locals)
    (taken : locals.takeByte checked byte = some after) : Clear after := by
  rw [Locals.takeByte] at taken
  split at taken
  · cases taken
    exact clear
  · rw [Option.bind_eq_some_iff] at taken
    obtain ⟨buf, _, taken⟩ := taken
    split at taken
    · rw [Locals.endLine, Option.bind_eq_some_iff] at taken
      obtain ⟨buf, _, taken⟩ := taken
      refine clear_takeLine ?_ taken
      exact clear
    · cases taken
      exact clear

theorem clear_takeBytes {stream : List Byte} : ∀ {locals : Locals}, Clear locals →
    locals.takeBytes checked stream = some after → Clear after := by
  induction stream with
  | nil =>
      intro locals clear taken
      cases taken
      exact clear
  | cons byte stream ih =>
      intro locals clear taken
      rw [takeBytes_cons, Option.bind_eq_some_iff] at taken
      obtain ⟨middle, taken, rest⟩ := taken
      exact ih (clear_takeByte byte clear taken) rest

theorem clear_start : Clear Locals.start :=
  ⟨by decide +kernel, fun _ => rfl⟩

/-- The words of a line are those of the line with its CR and newline. -/
theorem word_headText (request : Request) (index : ℕ) :
    word 0 (headText request.lines) index = word 0 (cstr request.line) index := by
  change word 0 (cstr (request.line ++ crlf)) index = _
  by_cases cut : 0 ∈ request.line
  · obtain ⟨rest, split⟩ := eq_cstr_append cut
    have same : cstr (request.line ++ crlf) = cstr request.line := by
      rw [split, List.append_assoc, List.cons_append, cstr_append_zero, cstr_append_zero]
    rw [same]
  · rw [word_crlf 0 cut, cstr_eq_self cut]

/-- What is handed to `fopen` is a dot and the second word of the request line. -/
theorem fopenPath_eq (admitted : Admitted request.lines)
    (hands : request.fopenPath = some path) : path = ascii "." ++ request.target := by
  rw [Request.fopenPath, Option.bind_eq_some_iff] at hands
  obtain ⟨locals, taken, hands⟩ := hands
  have clear := clear_takeBytes clear_start taken
  obtain ⟨before, _, holds, _, _, takes⟩ := @takeBytes_request false request admitted
  cases Option.some.inj (takes.symm.trans taken)
  simp only [Locals.fopenPath, Option.ite_none_right_eq_some, Option.bind_eq_some_iff] at hands
  obtain ⟨_, _, _, _, _, _, hands⟩ := hands
  simp only [Locals.getPath, Option.bind_eq_some_iff] at hands
  obtain ⟨uri, calls, _, _, made⟩ := hands
  have isUri : cstr uri = request.target := by
    rw [callGetToken_unchecked, Option.map_eq_some_iff] at calls
    obtain ⟨⟨result, stored⟩, called, same⟩ := calls
    cases same
    rw [getToken, clear.1] at called
    have short : before.uri.length < 1024 := by
      rw [holds.uri, List.length_replicate]
      decide
    rw [cstr_of_tokenLoop 1 short called, Request.target, ← word_headText, ← holds.headline.2.2]
  rw [pathOf, Option.ite_none_right_eq_some, Option.some.injEq, isUri] at made
  exact made.2.symm

/-- A request that goes up one directory. -/
def getAbove : Request where
  line := ascii "GET /../x HTTP/1.1"
  headers := []
  clean := by decide +kernel

theorem fits_getAbove : Fits getAbove where
  admitted :=
    { short := by decide +kernel
      first := by decide +kernel
      headers := fun _ member => nomatch member
      total := by decide +kernel }
  plain := by decide +kernel
  method := by decide +kernel
  path := fun _ => by decide +kernel
  uri := fun _ => by decide +kernel

end LinuxUnix.HttpServer

import LinuxUnix.Network.HttpBounds
import LinuxUnix.Network.HttpMessage
import LinuxUnix.Network.HttpResponse

/-! # Whether the connection is kept

Three places of the server decide about the connection: the header loop computes `retval`, every
header that `httpd` sends announces that the connection is kept, and `main` goes by the result of
`httpd`. When they agree is decided by `LinuxUnix.HttpServer.keepAliveAgrees_iff`.
-/

namespace LinuxUnix.HttpServer

open CMemory CrlfLines

/-- What the last `Connection` header says, or else the number that is given. -/
def persistenceAfter (retval : ℤ) (headers : List HeaderLine) : ℤ :=
  match (headers.filter fun header => header.IsConnection).getLast? with
  | none => retval
  | some header => if header.value = ascii "Keep-Alive" then 1 else -1

def Message.persistence (message : Message) : ℤ :=
  persistenceAfter 0 message.headers

/-- The answer has a header with the line. -/
def Announces (socket after : Socket) : Prop :=
  ∃ texts rest, after.sent = socket.sent ++ (block texts ++ rest) ∧
    (∀ text ∈ texts, Line text) ∧ ascii "Connection: Keep-Alive" ∈ texts

/-- `main` leaves its loop and closes the socket if the result of `httpd` is negative. -/
def KeepsOpen (retval : ℤ) : Prop :=
  ¬ retval < 0

instance (retval : ℤ) : Decidable (KeepsOpen retval) :=
  inferInstanceAs (Decidable (¬ _))

/-- The header loop computes what the last `Connection` header says, and the answer announces that
the connection is kept exactly if `main` keeps it. -/
def KeepAliveAgrees (world : World) (socket : Socket) (ending : Ending) (message : Message) :
    Prop :=
  ∃ locals retval after,
    Locals.start.takeBytes false message.request.bytes = some locals ∧ locals.ended = true ∧
      locals.retval = message.persistence ∧
      httpd false world socket message.request.bytes ending = .returned retval after ∧
      (Announces socket after ↔ KeepsOpen retval)

/-- In every `Connection` header the second word from the start of the line on is there, and it and
the first one are shorter than `hValue`; in the last one it is `Keep-Alive` exactly if the value is.
What stood in `buf` before is given. -/
def Legible : List Byte → List HeaderLine → Prop
  | _, [] => True
  | left, header :: headers =>
      (header.IsConnection → header.Readable left ∧
        ((∀ later ∈ headers, ¬ later.IsConnection) →
          (header.found left 1 = ascii "Keep-Alive" ↔ header.value = ascii "Keep-Alive"))) ∧
      Legible (covered (header.text ++ crlf) left) headers

/-- The URI has a byte other than a slash, or is a single slash. -/
def Message.Names (message : Message) : Prop :=
  firstWord 47 message.request.target ≠ [] ∨ message.request.target = [47]

instance (message : Message) : Decidable message.Names :=
  inferInstanceAs (Decidable (_ ∨ _))

/-- The `Connection` headers are legible, and the answer is a file and the connection is kept, or
there is no answer and the connection is closed. -/
structure Settled (world : World) (message : Message) : Prop where
  legible : Legible (covered (message.line ++ crlf) []) message.headers
  answered : message.Gets ∧ message.Names ∧
      world.fopen (ascii "." ++ message.request.target) ≠ none ∧ message.persistence ≠ -1 ∨
    ¬ message.Gets ∧ message.method ≠ [] ∧ message.persistence = -1

variable {checked : Bool} {locals : Locals} {world : World} {socket after : Socket}
  {message : Message} {header : HeaderLine} {headers : List HeaderLine}

/-- `main` goes on with the connection exactly if the result keeps it open. -/
theorem server_answer {state : State} {retval : ℤ}
    (responds : locals.respond false world state.socket = some (retval, after)) :
    (state.answer world locals).server = .selecting ↔ KeepsOpen retval := by
  rw [State.answer, responds]
  by_cases negative : retval < 0
  · simp [KeepsOpen, negative]
  · simp [KeepsOpen, negative]

theorem persistenceAfter_cons (retval : ℤ) (header : HeaderLine) (headers : List HeaderLine) :
    persistenceAfter retval (header :: headers) =
      if header.IsConnection then
        persistenceAfter (if header.value = ascii "Keep-Alive" then 1 else -1) headers
      else persistenceAfter retval headers := by
  rw [persistenceAfter, List.filter_cons]
  by_cases connection : header.IsConnection
  · rw [if_pos connection, if_pos (decide_eq_true connection), List.getLast?_cons, persistenceAfter]
    cases (headers.filter fun header => header.IsConnection).getLast? <;> rfl
  · rw [if_neg connection, if_neg (by simpa using connection), persistenceAfter]

/-- Without a `Connection` header neither the header loop nor the headers change anything. -/
theorem retval_of_other (other : ∀ header ∈ headers, ¬ header.IsConnection) (retval : ℤ) :
    persistenceAfter retval headers = retval ∧
      ∀ left, retvalFrom retval left headers = some retval ∧ Legible left headers := by
  induction headers with
  | nil => exact ⟨rfl, fun left => ⟨rfl, trivial⟩⟩
  | cons header headers ih =>
      have here := other header List.mem_cons_self
      obtain ⟨expected, same⟩ := ih fun later member => other later (List.mem_cons_of_mem _ member)
      refine ⟨?_, fun left => ⟨?_, ?_, ?_⟩⟩
      · rw [persistenceAfter_cons, if_neg here, expected]
      · rw [retvalFrom, HeaderLine.retval, if_neg here, Option.bind_some]
        exact (same _).1
      · exact fun connection => absurd connection here
      · exact (same _).2

/-- With a `Connection` header only the last of them counts. -/
theorem persistenceAfter_congr (some_ : ∃ header ∈ headers, header.IsConnection)
    (first second : ℤ) : persistenceAfter first headers = persistenceAfter second headers := by
  obtain ⟨header, member, connection⟩ := some_
  have inside : header ∈ headers.filter fun header => header.IsConnection :=
    List.mem_filter.mpr ⟨member, decide_eq_true connection⟩
  rw [persistenceAfter, persistenceAfter]
  cases last : (headers.filter fun header => header.IsConnection).getLast? with
  | none =>
      rw [List.getLast?_eq_none_iff.mp last] at inside
      cases inside
  | some header => rfl

/-- The header loop computes what the last `Connection` header says exactly if it is legible. -/
theorem retvalFrom_eq_iff : ∀ {left : List Byte} {retval : ℤ},
    retvalFrom retval left headers = some (persistenceAfter retval headers) ↔
      Legible left headers := by
  induction headers with
  | nil => exact fun {left retval} => iff_of_true rfl trivial
  | cons header headers ih =>
      intro left retval
      rw [retvalFrom, persistenceAfter_cons, HeaderLine.retval, Legible]
      by_cases connection : header.IsConnection
      · rw [if_pos connection, if_pos connection]
        by_cases readable : header.Readable left
        · rw [if_pos readable, Option.bind_some]
          by_cases later : ∃ other ∈ headers, other.IsConnection
          · rw [persistenceAfter_congr later _
              (if header.found left 1 = ascii "Keep-Alive" then 1 else -1), ih]
            constructor
            · intro legible
              refine ⟨fun _ => ⟨readable, fun last => ?_⟩, legible⟩
              obtain ⟨other, member, again⟩ := later
              exact absurd again (last other member)
            · exact And.right
          · have last : ∀ other ∈ headers, ¬ other.IsConnection :=
              fun other member again => later ⟨other, member, again⟩
            rw [(retval_of_other last _).1, ((retval_of_other last _).2 _).1,
              Option.some.injEq]
            constructor
            · intro same
              refine ⟨fun _ => ⟨readable, fun _ => ?_⟩, ((retval_of_other last 0).2 _).2⟩
              by_cases found : header.found left 1 = ascii "Keep-Alive" <;>
                by_cases valued : header.value = ascii "Keep-Alive" <;>
                simp [found, valued] at same ⊢
            · rintro ⟨same, _⟩
              simp only [(same connection).2 last]
        · rw [if_neg readable, Option.bind_none]
          constructor
          · intro same
            cases same
          · rintro ⟨legible, _⟩
            exact absurd (legible connection).1 readable
      · rw [if_neg connection, if_neg connection, Option.bind_some, ih]
        constructor
        · exact fun legible => ⟨fun here => absurd here connection, legible⟩
        · exact And.right

/-- The header `Connection` with a value of one word, behind so many blanks. -/
def connectionHeader (blanks : ℕ) (value : List Byte)
    (word : value ≠ [] ∧ ∀ byte ∈ value, isSeparator 32 byte = false) : HeaderLine where
  name := ascii "Connection"
  space := List.replicate blanks 32
  value
  named := by decide +kernel
  blank := fun _ member => .inl (List.eq_of_mem_replicate member)
  clean := by
    constructor <;> intro member <;> cases word.2 _ member
  started := by
    intro byte first
    have kept := word.2 byte (List.mem_of_head? first)
    constructor <;> rintro rfl <;> cases kept

/-- In `Connection:close`, behind a longer line, a word of that line is taken for the value. -/
example : (connectionHeader 0 (ascii "close") (by decide +kernel)).retval
    (ascii "X-Forwarded: abcde Keep-Alive\r\n") 0 = some 1 := by
  decide +kernel

/-- If every `Connection` header has white space behind the colon and one word as its value, then
they are legible whatever the other lines are. -/
theorem legible_of_spaced (spaced : ∀ header ∈ headers, header.IsConnection → header.Spaced) :
    ∀ left : List Byte, Legible left headers := by
  induction headers with
  | nil => exact fun _ => trivial
  | cons header headers ih =>
      intro left
      refine ⟨?_, ih (fun other member => spaced other (List.mem_cons_of_mem _ member)) _⟩
      intro connection
      have here := spaced header List.mem_cons_self connection
      obtain ⟨title, value⟩ := here.found left
      refine ⟨⟨?_, ?_, ?_⟩, fun _ => by rw [value]⟩
      · rw [title, connection]
        decide
      · rw [value]
        exact here.value
      · rw [value]
        exact here.short

/-- The words of `headline` are those of the request line. -/
theorem Message.Heard.words (heard : message.Heard locals) (index : ℕ) :
    word 0 (cstr locals.headline) index = word 0 (cstr message.line) index := by
  rw [heard.headline]
  exact word_headText message.request index

/-- What the first call of `GetToken` for the URI leaves, if there is a URI that fits. -/
theorem getToken_uri (heard : message.Heard locals) (short : message.method.length < 255)
    (short' : message.request.target.length ≤ 510) :
    callGetToken false locals.headline 2 locals.uri 1024 0 =
      if message.request.target = [] then none
      else some (overwrite (overwrite (List.replicate 512 0) 0 (message.method ++ [0])) 0
        (message.request.target ++ [0])) := by
  have first : firstWord 0 (cstr locals.headline) = message.method := heard.words 0
  have second : firstWord 0 (afterWord 0 (cstr locals.headline)) = message.request.target :=
    heard.words 1
  have size : (overwrite (List.replicate 512 0) 0 (message.method ++ [0])).length = 512 := by
    rw [length_overwrite, List.length_replicate]
    rw [List.length_append, List.length_singleton, List.length_replicate]
    omega
  have nonempty : firstWord 0 (cstr locals.headline) ≠ [] := by
    rw [first]
    exact heard.named
  rw [callGetToken_unchecked, getToken, heard.clear.1, heard.uri,
    tokenLoop_fits nonempty (by rw [first]; omega) (by rw [first, List.length_replicate]; omega),
    first]
  by_cases missing : message.request.target = []
  · have wordless : firstWord 0 (afterWord 0 (cstr locals.headline) ++ 0 ::
        List.replicate (1023 - (cstr locals.headline).length) 0) = [] :=
      (word_append_zeros _ (1023 - (cstr locals.headline).length + 1) 0).trans
        (second.trans missing)
    rw [if_pos missing, tokenLoop_wordless wordless, Option.map_none]
  · rw [if_neg missing, tokenLoop_fits (by rwa [second]) (by rw [second]; omega)
      (by rw [second]; omega), second, tokenLoop, Option.map_some]

/-- No byte of the URI separates words. -/
theorem Message.not_isSeparator_of_target {byte : Byte} (member : byte ∈ message.request.target) :
    isSeparator 0 byte = false :=
  not_isSeparator_of_mem (member : byte ∈ firstWord 0 (afterWord 0 (cstr message.line)))

/-- If the URI covers the method, then nothing stands behind it. -/
theorem uri_of_slashes (gets : message.Gets) (long : 2 ≤ message.request.target.length) :
    overwrite (overwrite (List.replicate 512 0) 0 (message.method ++ [0])) 0
      (message.request.target ++ [0]) = message.request.target ++ 0 ::
        List.replicate (509 - (message.request.target.length - 2)) 0 := by
  have three : message.method.length = 3 := by
    rcases gets with method | method <;> rw [method] <;> rfl
  have inner : overwrite (List.replicate 512 0) 0 (message.method ++ [0]) =
      message.method ++ List.replicate 509 0 := by
    rw [overwrite_replicate, three]
    rfl
  have behind : (message.method ++ List.replicate 509 (0 : Byte)).drop
      (message.request.target.length + 1) =
        List.replicate (509 - (message.request.target.length - 2)) 0 := by
    rw [List.drop_append, List.drop_eq_nil_of_le (by omega), List.nil_append,
      List.drop_replicate, three]
    congr 1
  rw [inner, overwrite, List.take_zero, List.nil_append, List.append_assoc, List.singleton_append,
    List.length_append, List.length_singleton, Nat.zero_add, behind]

/-- The second call finds a directory, though it may be a byte of the method that the URI has not
covered. -/
theorem getToken_dir (gets : message.Gets) (named : message.request.target ≠ []) :
    (callGetToken false (overwrite (overwrite (List.replicate 512 0) 0 (message.method ++ [0])) 0
      (message.request.target ++ [0])) 1 (List.replicate 255 0) 255 47).isSome = true ↔
        message.Names := by
  by_cases wordless : firstWord 47 message.request.target = []
  · by_cases single : message.request.target = [47]
    · have names : message.Names := .inr single
      rw [single, iff_true_right names]
      rcases gets with method | method <;> rw [method] <;> decide +kernel
    · have names : ¬ message.Names := fun names => names.elim (fun there => there wordless) single
      have long : 2 ≤ message.request.target.length := by
        by_contra short
        obtain ⟨byte, rest, same⟩ := List.exists_cons_of_ne_nil named
        have last : rest = [] := by
          rw [same, List.length_cons] at short
          exact List.length_eq_zero_iff.mp (by omega)
        have member : byte ∈ message.request.target := same ▸ List.mem_cons_self
        have separator := isSeparator_of_firstWord wordless byte member
        have other := message.not_isSeparator_of_target member
        simp only [isSeparator, Bool.or_eq_true, Bool.or_eq_false_iff, beq_iff_eq,
          beq_eq_false_iff_ne] at separator other
        have slash : byte = 47 := by tauto
        exact single (by rw [same, last, slash])
      have wordless' : firstWord 47 (message.request.target ++ 0 ::
          List.replicate (509 - (message.request.target.length - 2)) 0) = [] :=
        (word_append_zeros _ (509 - (message.request.target.length - 2) + 1) 0).trans wordless
      rw [iff_false_right names, uri_of_slashes gets long, callGetToken_unchecked, getToken,
        tokenLoop_wordless wordless', Option.map_none]
      exact Bool.false_ne_true
  · have names : message.Names := .inl wordless
    have plain : 0 ∉ message.request.target := zero_not_mem_firstWord 0 _
    have first : firstWord 47 (cstr (overwrite (overwrite (List.replicate 512 0) 0
        (message.method ++ [0])) 0 (message.request.target ++ [0]))) ≠ [] := by
      rwa [cstr_overwrite, cstr_eq_self plain]
    obtain ⟨dir, called⟩ := @callGetToken_isSome false _ (List.replicate 255 0) 47
      (zero_mem_overwrite ..) first (by rw [List.length_replicate]; decide)
    rw [List.length_replicate] at called
    rw [iff_true_right names, called]
    rfl

/-- The path that is handed to `fopen`, if there is one. -/
theorem getPath_message (heard : message.Heard locals) (fits : message.FitsBuffers)
    (gets : message.Gets) :
    locals.getPath false =
      if message.Names then some (ascii "." ++ message.request.target) else none := by
  have short := fits.uri gets
  rw [Locals.getPath, getToken_uri heard fits.method short]
  by_cases missing : message.request.target = []
  · have nothing : ¬ message.Names := by
      rw [Message.Names, missing]
      decide
    rw [if_pos missing, if_neg nothing, Option.bind_none]
  · have dir := getToken_dir gets missing
    have plain : 0 ∉ message.request.target := zero_not_mem_firstWord 0 _
    rw [if_neg missing, Option.bind_some]
    by_cases names : message.Names
    · obtain ⟨found, called⟩ := Option.isSome_iff_exists.mp (dir.mpr names)
      rw [if_pos names, called, Option.bind_some, pathOf, cstr_overwrite, cstr_eq_self plain,
        if_pos ⟨zero_mem_overwrite .., by omega⟩]
    · rw [if_neg names, Option.not_isSome_iff_eq_none.mp fun found => names (dir.mp found),
        Option.bind_none]

/-- The answer to a message. -/
theorem respond_message (heard : message.Heard locals) (fits : message.FitsBuffers) :
    locals.respond false world socket =
      if message.Gets then
        if message.Names then
          some (match world.fopen (ascii "." ++ message.request.target) with
            | none => (-1, sendNotFound world socket)
            | some file => (locals.retval, sendFile world socket file))
        else none
      else some (locals.retval, socket) := by
  have get : message.Gets → locals.get false world socket =
      if message.Names then
        some (match world.fopen (ascii "." ++ message.request.target) with
          | none => (-1, sendNotFound world socket)
          | some file => (locals.retval, sendFile world socket file))
      else none := by
    intro gets
    rw [get_eq, getPath_message heard fits gets]
    split <;> rfl
  rw [Locals.respond, strcmpEq_of_mem heard.method.1, strcmpEq_of_mem heard.method.1,
    Option.bind_some, heard.method.2]
  by_cases upper : message.method = ascii "GET"
  · have gets : message.Gets := .inl upper
    rw [if_pos (beq_iff_eq.mpr upper), Option.bind_some, if_pos rfl, if_pos gets, get gets]
  · rw [if_neg fun same => upper (beq_iff_eq.mp same), Option.bind_some]
    by_cases lower : message.method = ascii "get"
    · have gets : message.Gets := .inr lower
      rw [if_pos (beq_iff_eq.mpr lower), if_pos gets, get gets]
    · have other : ¬ message.Gets := fun gets => gets.elim upper lower
      rw [if_neg fun same => lower (beq_iff_eq.mp same), if_neg other]

/-- Every header announces that the connection is kept. -/
theorem announces_of_header {code : ℤ} {phase : String} {length size : ℤ}
    {pftime : Option DateText} (plain : Plain (ascii phase)) (buf : List Byte) :
    Announces socket (sendBuf (sendBlock (sendHTTPHeader socket world code phase length pftime) buf
      size) (crlf ++ crlf)) := by
  refine ⟨_, _, sent_answer plain buf, ?_, ?_⟩
  · intro text member
    obtain ⟨clean, nonempty⟩ := plain_headerTexts plain text member
    exact line_of_plain clean nonempty
  · exact List.mem_append_right _ (by simp only [List.mem_cons, true_or, or_true])

theorem announces_sendFile (world : World) (socket : Socket) (file : File) :
    Announces socket (sendFile world socket file) :=
  announces_of_header (by decide +kernel) _

theorem announces_sendNotFound (world : World) (socket : Socket) :
    Announces socket (sendNotFound world socket) :=
  announces_of_header (by decide +kernel) _

/-- Nothing is announced if nothing is sent. -/
theorem not_announces_self (socket : Socket) : ¬ Announces socket socket := by
  rintro ⟨texts, rest, same, _⟩
  have nothing := List.self_eq_append_right.mp same
  have last := (List.append_eq_nil_iff.mp (List.append_eq_nil_iff.mp nothing).1).2
  cases last

theorem persistenceAfter_cases (headers : List HeaderLine) :
    persistenceAfter 0 headers = 1 ∨ persistenceAfter 0 headers = 0 ∨
      persistenceAfter 0 headers = -1 := by
  rw [persistenceAfter]
  cases (headers.filter fun header => header.IsConnection).getLast? with
  | none => exact .inr (.inl rfl)
  | some header =>
      by_cases keepAlive : header.value = ascii "Keep-Alive"
      · exact .inl (if_pos keepAlive)
      · exact .inr (.inr (if_neg keepAlive))

/-- The result keeps the connection unless the last `Connection` header has another value. -/
theorem keepsOpen_persistence (message : Message) :
    KeepsOpen message.persistence ↔ message.persistence ≠ -1 := by
  rcases persistenceAfter_cases message.headers with same | same | same <;>
    simp only [Message.persistence, same, KeepsOpen] <;> decide

/-- What is announced is what `main` does exactly if a file is sent and the connection kept, or
nothing sent and the connection closed. -/
theorem answered_iff (heard : message.Heard locals) (fits : message.FitsBuffers)
    (expected : locals.retval = message.persistence) :
    (∃ retval after, locals.respond false world socket = some (retval, after) ∧
      (Announces socket after ↔ KeepsOpen retval)) ↔
    (message.Gets ∧ message.Names ∧ world.fopen (ascii "." ++ message.request.target) ≠ none ∧
        message.persistence ≠ -1 ∨
      ¬ message.Gets ∧ message.method ≠ [] ∧ message.persistence = -1) := by
  rw [respond_message heard fits]
  by_cases gets : message.Gets
  · rw [if_pos gets]
    by_cases names : message.Names
    · rw [if_pos names]
      cases opened : world.fopen (ascii "." ++ message.request.target) with
      | none =>
          constructor
          · rintro ⟨retval, after, same, agrees⟩
            cases same
            exact absurd (agrees.mp (announces_sendNotFound world socket)) (by decide)
          · rintro (⟨_, _, opens, _⟩ | ⟨other, _⟩)
            · exact absurd rfl opens
            · exact absurd gets other
      | some file =>
          constructor
          · rintro ⟨retval, after, same, agrees⟩
            cases same
            refine .inl ⟨gets, names, Option.some_ne_none file, ?_⟩
            rw [← keepsOpen_persistence, ← expected]
            exact agrees.mp (announces_sendFile world socket file)
          · rintro (⟨_, _, _, keeps⟩ | ⟨other, _⟩)
            · refine ⟨_, _, rfl, iff_of_true (announces_sendFile world socket file) ?_⟩
              rw [expected]
              exact (keepsOpen_persistence message).mpr keeps
            · exact absurd gets other
    · rw [if_neg names]
      constructor
      · rintro ⟨retval, after, same, _⟩
        cases same
      · rintro (⟨_, there, _⟩ | ⟨other, _⟩)
        · exact absurd there names
        · exact absurd gets other
  · rw [if_neg gets]
    constructor
    · rintro ⟨retval, after, same, agrees⟩
      cases same
      refine .inr ⟨gets, heard.named, ?_⟩
      by_contra keeps
      have stays := (keepsOpen_persistence message).mpr keeps
      rw [← expected] at stays
      exact not_announces_self socket (agrees.mpr stays)
    · rintro (⟨here, _⟩ | ⟨_, _, closes⟩)
      · exact absurd here gets
      · refine ⟨_, _, rfl, iff_of_false (not_announces_self socket) ?_⟩
        rw [expected, keepsOpen_persistence]
        exact fun keeps => keeps closes

/-- After the header loop `httpd` returns what it answers. -/
theorem httpd_of_heard (heard : message.Heard locals)
    (taken : Locals.start.takeBytes false message.request.bytes = some locals) (ending : Ending)
    {retval : ℤ} :
    httpd false world socket message.request.bytes ending = .returned retval after ↔
      locals.respond false world socket = some (retval, after) := by
  rw [httpd, taken]
  simp only [finish_ended heard.ended]
  cases locals.respond false world socket with
  | none =>
      constructor <;> intro same <;> cases same
  | some answer =>
      constructor <;> intro same <;> cases same <;> rfl

theorem settled_of_keepAliveAgrees {ending : Ending} (fits : message.FitsBuffers)
    (agrees : KeepAliveAgrees world socket ending message) : Settled world message := by
  obtain ⟨locals, retval, after, taken, _, expected, returned, announced⟩ := agrees
  have loop := takeBytes_message fits
  cases value : if message.method = [] then none else message.retval with
  | none =>
      rw [value] at loop
      cases loop.symm.trans taken
  | some computed =>
      rw [value] at loop
      obtain ⟨locals', taken', heard⟩ := loop
      cases taken.symm.trans taken'
      have value : message.retval = some message.persistence := by
        rw [heard.retval, expected]
      exact ⟨retvalFrom_eq_iff.mp value, (answered_iff heard fits expected).mp
        ⟨retval, after, (httpd_of_heard heard taken ending).mp returned, announced⟩⟩

theorem keepAliveAgrees_of_settled (socket : Socket) (ending : Ending) (fits : message.FitsBuffers)
    (settled : Settled world message) : KeepAliveAgrees world socket ending message := by
  have named : message.method ≠ [] := by
    rcases settled.answered with ⟨gets, _⟩ | ⟨_, named, _⟩
    · rcases gets with method | method <;> rw [method] <;> decide
    · exact named
  have value : message.retval = some message.persistence := retvalFrom_eq_iff.mpr settled.legible
  have loop := takeBytes_message fits
  rw [if_neg named, value] at loop
  obtain ⟨locals, taken, heard⟩ := loop
  have expected : locals.retval = message.persistence := by
    rw [← Option.some.injEq, ← heard.retval, value]
  obtain ⟨retval, after, responds, announced⟩ :=
    (@answered_iff locals world socket message heard fits expected).mpr settled.answered
  exact ⟨locals, retval, after, taken, heard.ended, expected,
    (httpd_of_heard heard taken ending).mpr responds, announced⟩

/-- The three places agree on a message whose lines fit exactly if its `Connection` headers are
legible, and either a file is sent and the connection is kept or nothing is sent and the connection
is closed. -/
theorem keepAliveAgrees_iff (world : World) (socket : Socket) (ending : Ending)
    (fits : message.FitsBuffers) :
    KeepAliveAgrees world socket ending message ↔ Settled world message :=
  ⟨settled_of_keepAliveAgrees fits, keepAliveAgrees_of_settled socket ending fits⟩

/-- A request for the file, with a `Connection` header. -/
def getWith (header : HeaderLine) : Message where
  line := ascii "GET /a HTTP/1.1"
  headers := [header]
  clean := by decide +kernel

theorem fitsBuffers_getWith {header : HeaderLine} (short : header.text.length ≤ 509)
    (name : header.name.length < 32) : (getWith header).FitsBuffers where
  line := by
    change (ascii "GET /a HTTP/1.1" ++ crlf).length ≤ 511
    decide +kernel
  method := by
    change (firstWord 0 (cstr (ascii "GET /a HTTP/1.1"))).length < 255
    decide +kernel
  uri := by
    intro _
    change (word 0 (cstr (ascii "GET /a HTTP/1.1")) 1).length ≤ 510
    decide +kernel
  headers := by
    have long : (header.text ++ crlf).length = header.text.length + 2 := List.length_append
    refine ⟨?_, ?_, ?_⟩
    · intro other member
      rw [List.mem_singleton.mp member, long]
      omega
    · intro other member
      rwa [List.mem_singleton.mp member]
    · rw [headerBytes, getWith, List.map_singleton, List.flatten_singleton, long, bufferSize]
      omega

theorem keepAliveAgrees_of_getWith :
    KeepAliveAgrees oneFile ⟨[], fun _ => 512⟩ .paused
      (getWith (connectionHeader 1 (ascii "Keep-Alive") (by decide +kernel))) := by
  refine (keepAliveAgrees_iff oneFile ⟨[], fun _ => 512⟩ .paused
    (fitsBuffers_getWith (by decide +kernel) (by decide +kernel))).mpr ⟨?_, .inl ?_⟩
  · apply legible_of_spaced
    intro header member _
    rw [List.mem_singleton.mp member]
    exact ⟨by decide +kernel, by decide +kernel, by decide +kernel, by decide +kernel⟩
  · refine ⟨by decide +kernel, by decide +kernel, ?_, by decide +kernel⟩
    intro missing
    have found : (oneFile.fopen (ascii "./a")).isSome = true := by decide +kernel
    cases found.symm.trans (congrArg Option.isSome missing)

/-- A client that asks for closing the connection is told that it is kept, and then it is closed. -/
theorem not_keepAliveAgrees_of_close :
    ¬ ∀ (world : World) (socket : Socket) (ending : Ending) (message : Message),
      message.FitsBuffers → KeepAliveAgrees world socket ending message := by
  intro agrees
  have fits : (getWith (connectionHeader 1 (ascii "close") (by decide +kernel))).FitsBuffers :=
    fitsBuffers_getWith (by decide +kernel) (by decide +kernel)
  have settled := settled_of_keepAliveAgrees fits
    (agrees oneFile ⟨[], fun _ => 512⟩ .paused _ fits)
  rcases settled.answered with ⟨_, _, _, keeps⟩ | ⟨other, _⟩
  · exact keeps (by decide +kernel)
  · exact other (by decide +kernel)

end LinuxUnix.HttpServer

import LinuxUnix.Network.HttpHeader

/-! # One call of `httpd` on one request

If a request fits the arrays of `httpd`, the header loop reads it to its last byte and
no further (`LinuxUnix.HttpServer.takeBytes_request`,
`LinuxUnix.HttpServer.reading_before_end`), and the connection is kept open after the
answer (`LinuxUnix.HttpServer.respond_keeps`).
-/

namespace LinuxUnix.HttpServer

open CMemory CrlfLines

/-- The lines of a request as `fgets` returns them. -/
def Request.lines (request : Request) : List (List Byte) :=
  (request.line :: request.headers).map (· ++ crlf)

/-- The URI of a request. -/
def Request.uri (request : Request) : List Byte :=
  word 0 request.line 1

/-- The methods that `httpd` answers. -/
def Request.Gets (request : Request) : Prop :=
  firstWord 0 request.line = ascii "GET" ∨ firstWord 0 request.line = ascii "get"

/-- The request has the header line `Connection: Keep-Alive`, and none that says
otherwise, and names a file that exists. -/
structure Proper (world : World) (request : Request) : Prop where
  keepAlive : ascii "Connection: Keep-Alive" ∈ request.headers
  noOther : ∀ header ∈ request.headers, firstWord 58 header = ascii "Connection" →
    word 32 header 1 = ascii "Keep-Alive"
  exists_ : world.fopen (ascii "." ++ request.uri) ≠ none

/-- The request fits the arrays of `httpd`: its lines are admitted and hold no NUL,
the method is shorter than 255 bytes, and if it is `GET` the URI has a byte other than
a slash and at most 510 bytes. -/
structure Fits (request : Request) : Prop where
  admitted : Admitted request.lines
  plain : ∀ text ∈ request.line :: request.headers, 0 ∉ text
  method : (firstWord 0 request.line).length < 255
  path : request.Gets → firstWord 47 request.uri ≠ []
  uri : request.Gets → request.uri.length ≤ 510

/-- What a call of `httpd` has in its variables is the request. -/
def Parsed (locals : Locals) (request : Request) : Prop :=
  cstr locals.headline = request.line ++ crlf ∧
    cstr locals.requestHeader = (request.headers.map (· ++ crlf)).flatten ∧
    cstr locals.method = firstWord 0 request.line ∧ locals.retval = 1

variable {checked : Bool} {locals : Locals} {lines : List (List Byte)} {request : Request}
  {world : World} {socket : Socket}

/-- The header loop takes lines that are admitted after the others. -/
theorem Holds.takeLines {texts : List (List Byte)} : ∀ {lines : List (List Byte)}
    {locals : Locals}, Holds lines locals → (∀ text ∈ texts, Line text ∧ 10 ∉ text) →
      Admitted (lines ++ texts.map (· ++ crlf)) →
      ∃ after, locals.takeBytes checked (texts.map (· ++ crlf)).flatten = some after ∧
        Holds (lines ++ texts.map (· ++ crlf)) after := by
  induction texts with
  | nil =>
      intro lines locals holds _ _
      exact ⟨locals, rfl, by rwa [List.map_nil, List.append_nil]⟩
  | cons text texts ih =>
      intro lines locals holds clean admitted
      obtain ⟨proper, noNewline⟩ := clean text List.mem_cons_self
      obtain ⟨cut, noNewline', other⟩ := proper.cut noNewline
      rw [List.map_cons, List.append_cons] at admitted
      have first := admitted.of_append
      have short := first.short (text ++ crlf) (List.mem_append_right _ List.mem_cons_self)
      rw [cut, List.length_append] at short
      rw [cut] at first
      obtain ⟨middle, taken, held⟩ := holds.takeLine noNewline' other first
      obtain ⟨after, rest, heldAfter⟩ := ih (by rwa [← cut] at held)
        (fun text member => clean text (List.mem_cons_of_mem _ member)) admitted
      refine ⟨after, ?_, by rwa [List.map_cons, List.append_cons]⟩
      rw [List.map_cons, List.flatten_cons, cut, List.append_assoc, List.singleton_append,
        takeBytes_line noNewline' holds.reading holds.buf holds.start
          (Nat.le_of_succ_le_succ short), taken, Option.bind_some, rest]

/-- The header loop reads all lines of a request, and the CR of the empty line. -/
theorem takeBytes_lines (admitted : Admitted request.lines) :
    ∃ before, Locals.start.takeBytes checked request.lines.flatten = some before ∧
      Holds request.lines before := by
  have taken := @Holds.takeLines checked _ [] Locals.start holds_start request.clean
    (by rwa [List.nil_append])
  rwa [List.nil_append] at taken

/-- The bytes of a request end with an empty line. -/
theorem bytes_eq (request : Request) : request.bytes = request.lines.flatten ++ [13] ++ [10] :=
  (List.append_assoc _ [13] [10]).symm

/-- The last byte of a request ends the header loop. -/
theorem takeBytes_request (admitted : Admitted request.lines) :
    ∃ before after, Holds request.lines before ∧
      Locals.start.takeBytes checked (request.lines.flatten ++ [13]) = some after ∧
      after.ended = false ∧
      Locals.start.takeBytes checked request.bytes = some { before with
        buf := overwrite before.buf 0 ([13] ++ [10] ++ [0]), ended := true } := by
  obtain ⟨before, taken, holds⟩ := @takeBytes_lines checked request admitted
  have clean : (10 : Byte) ∉ [13] := by decide
  have last := @takeBytes_line checked before [13] clean holds.reading holds.buf holds.start
    (by decide) []
  rw [Locals.takeLine, if_pos ((blank_iff clean _).mpr rfl), Option.bind_some] at last
  have cr := @takeBytes_text checked [13] before [] clean holds.reading holds.buf
    (by rw [holds.start]; decide)
  refine ⟨before, { before with
    buf := overwrite before.buf before.count [13], count := before.count + 1 }, holds, ?_, ?_, ?_⟩
  · rw [takeBytes_append, taken, Option.bind_some]
    exact cr
  · exact holds.reading
  · rw [bytes_eq, List.append_assoc, takeBytes_append, taken, Option.bind_some]
    exact last

/-- Before its last byte the header loop is still reading the request. -/
theorem reading_before_end (admitted : Admitted request.lines) {taken rest : List Byte}
    (split : request.bytes = taken ++ rest) (unfinished : rest ≠ []) :
    ∃ locals, Locals.start.takeBytes checked taken = some locals ∧ locals.ended = false := by
  obtain ⟨_, after, _, before, reading, _⟩ := @takeBytes_request checked request admitted
  obtain ⟨init, last, rfl⟩ := (List.eq_nil_or_concat rest).resolve_left unfinished
  rw [bytes_eq, List.concat_eq_append, ← List.append_assoc] at split
  rw [(List.append_inj' split rfl).1, takeBytes_append, Option.bind_eq_some_iff] at before
  obtain ⟨locals, started, finished⟩ := before
  refine ⟨locals, started, Bool.eq_false_iff.mpr fun ended => ?_⟩
  rw [takeBytes_ended ended] at finished
  cases finished
  cases reading.symm.trans ended

theorem cstr_crlf {text : List Byte} (plain : 0 ∉ text) : cstr (text ++ crlf) = text ++ crlf := by
  apply cstr_eq_self
  rw [List.mem_append, not_or]
  exact ⟨plain, by decide⟩

theorem isSeparator_of_mem_crlf (delim : Byte) :
    ∀ byte ∈ crlf, isSeparator delim byte = true := by
  intro byte member
  rcases List.mem_pair.mp member with rfl | rfl <;>
    simp only [isSeparator, beq_self_eq_true, Bool.or_true, Bool.true_or]

/-- A line without a NUL is read with its words. -/
theorem word_crlf (delim : Byte) {text : List Byte} (plain : 0 ∉ text) (index : ℕ) :
    word delim (cstr (text ++ crlf)) index = word delim text index := by
  rw [cstr_crlf plain, word_append_separators (isSeparator_of_mem_crlf delim)]

/-- `retval` is 1 after a `Connection` header, if every one of them is for keeping the
connection. -/
theorem retval_keeps {headers : List (List Byte)} : ∀ {retval : ℤ},
    (∀ header ∈ headers, 0 ∉ header) →
    (∀ header ∈ headers, firstWord 58 header = ascii "Connection" →
      word 32 header 1 = ascii "Keep-Alive") →
    (retval = 1 ∨ ∃ header ∈ headers, firstWord 58 header = ascii "Connection") →
      (headers.map (· ++ crlf)).foldl retvalAfter retval = 1 := by
  induction headers with
  | nil =>
      intro retval _ _ kept
      rcases kept with kept | ⟨_, member, _⟩
      · exact kept
      · cases member
  | cons header headers ih =>
      intro retval plain noOther kept
      have title : firstWord 58 (cstr (header ++ crlf)) = firstWord 58 header :=
        word_crlf 58 (plain header List.mem_cons_self) 0
      rw [List.map_cons, List.foldl_cons]
      apply ih (fun other member => plain other (List.mem_cons_of_mem _ member))
        (fun other member => noOther other (List.mem_cons_of_mem _ member))
      rw [retvalAfter, title, word_crlf 32 (plain header List.mem_cons_self)]
      by_cases connection : firstWord 58 header = ascii "Connection"
      · left
        rw [if_pos connection, if_pos (noOther header List.mem_cons_self connection)]
      · rw [if_neg connection]
        rcases kept with kept | ⟨other, member, titled⟩
        · exact .inl kept
        · rcases List.mem_cons.mp member with rfl | later
          · exact absurd titled connection
          · exact .inr ⟨other, later, titled⟩

/-- The method of the request is stored with its NUL. -/
theorem method_of_holds (holds : Holds request.lines locals) (fits : Fits request) :
    0 ∈ locals.method ∧ cstr locals.method = firstWord 0 request.line := by
  have first : firstWord 0 (headText request.lines) = firstWord 0 request.line :=
    word_crlf 0 (fits.plain request.line List.mem_cons_self) 0
  have method := holds.method.2.1
  rw [first] at method
  exact method fits.method

/-- After the lines of a request the variables hold the request. -/
theorem parsed_of_holds (holds : Holds request.lines locals) (fits : Fits request)
    (proper : Proper world request) : Parsed locals request := by
  have plain : ∀ header ∈ request.headers, 0 ∉ header :=
    fun header member => fits.plain header (List.mem_cons_of_mem _ member)
  have head : headText request.lines = request.line ++ crlf :=
    cstr_crlf (fits.plain request.line List.mem_cons_self)
  refine ⟨holds.headline.2.2.trans head, ?_, (method_of_holds holds fits).2, ?_⟩
  · rw [holds.requestHeader.2.2, Request.lines, List.map_cons, List.tail_cons, List.map_map]
    exact congrArg List.flatten
      (List.map_congr_left fun header member => cstr_crlf (plain header member))
  · rw [holds.retval]
    exact retval_keeps plain proper.noOther (.inr ⟨_, proper.keepAlive, by decide +kernel⟩)

/-- The first word of a string is stored, with its NUL or without. -/
theorem callGetToken_isSome {buf token : List Byte} {delim : Byte} (terminated : 0 ∈ buf)
    (first : firstWord delim (cstr buf) ≠ []) (positive : 0 < token.length) :
    ∃ stored, callGetToken checked buf 1 token token.length delim = some stored := by
  by_cases large : token.length ≤ (firstWord delim (cstr buf)).length
  · obtain ⟨stored, called, _⟩ := @callGetToken_first_unterminated checked buf token delim
      terminated first positive large
    exact ⟨stored, called⟩
  · obtain ⟨stored, called, _⟩ := @callGetToken_first checked buf token delim token.length
      terminated first (Nat.le_refl _) (Nat.lt_of_not_le large)
    exact ⟨stored, called⟩

/-- The answer to `GET` sends the file. -/
theorem get_sends (holds : Holds request.lines locals) (fits : Fits request)
    (proper : Proper world request) (gets : request.Gets) :
    ∃ after, locals.get false world socket = some (locals.retval, after) := by
  obtain ⟨_, terminated, head⟩ := holds.headline
  have words : ∀ index, word 0 (cstr locals.headline) index = word 0 request.line index := by
    intro index
    rw [head]
    exact word_crlf 0 (fits.plain request.line List.mem_cons_self) index
  have named : request.uri ≠ [] := by
    intro empty
    apply fits.path gets
    rw [empty]
    rfl
  have first : firstWord 0 request.line ≠ [] := by
    have first := fits.admitted.first _ rfl
    rwa [← word, word_crlf 0 (fits.plain request.line List.mem_cons_self)] at first
  have method := fits.method
  have short := fits.uri gets
  rw [Request.uri] at short
  obtain ⟨uri, called, size, inUri, isUri⟩ :=
    @getToken_words 0 1024 locals.headline locals.uri 1 terminated
      (by
        intro index small
        rw [words]
        rcases Nat.le_one_iff_eq_zero_or_eq_one.mp small with rfl | rfl
        · exact first
        · exact named)
      (by
        intro index small
        rw [words, holds.uri, List.length_replicate]
        rcases Nat.le_one_iff_eq_zero_or_eq_one.mp small with rfl | rfl
        · rw [word]
          omega
        · omega)
  rw [words] at isUri
  have first_ : firstWord 47 (cstr uri) ≠ [] := by
    rw [isUri]
    exact fits.path gets
  obtain ⟨dir, calledDir⟩ := @callGetToken_isSome false uri (List.replicate 255 0) 47 inUri first_
    (by rw [List.length_replicate]; decide)
  rw [List.length_replicate] at calledDir
  have path : pathOf uri = some (ascii "." ++ request.uri) := by
    rw [pathOf, isUri, if_pos ⟨inUri, by omega⟩]
    rfl
  obtain ⟨file, opened⟩ := Option.ne_none_iff_exists'.mp proper.exists_
  refine ⟨sendFile world socket file, ?_⟩
  rw [Locals.get, callGetToken_unchecked, called, Option.map_some, Option.bind_some, calledDir,
    Option.bind_some, path, Option.bind_some]
  simp only [opened]

/-- The connection is kept after the answer. -/
theorem respond_keeps (holds : Holds request.lines locals) (fits : Fits request)
    (proper : Proper world request) :
    ∃ after, locals.respond false world socket = some (1, after) := by
  have kept := (parsed_of_holds holds fits proper).2.2.2
  obtain ⟨inMethod, isMethod⟩ := method_of_holds holds fits
  have sends : request.Gets → ∃ after, locals.get false world socket = some (1, after) := by
    intro gets
    rw [← kept]
    exact get_sends holds fits proper gets
  rw [Locals.respond, strcmpEq_of_mem inMethod, strcmpEq_of_mem inMethod, Option.bind_some,
    isMethod, kept]
  by_cases upper : (firstWord 0 request.line == ascii "GET") = true
  · rw [if_pos upper, Option.bind_some, if_pos rfl]
    exact sends (.inl (eq_of_beq upper))
  · rw [if_neg upper, Option.bind_some]
    split
    · rename_i lower
      exact sends (.inr (eq_of_beq lower))
    · exact ⟨socket, rfl⟩

end LinuxUnix.HttpServer

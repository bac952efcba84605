import LinuxUnix.Network.HttpPaths

/-! # The header lines of a message

`httpd` takes the second word of `buf` for the value of a `Connection` header. The words of `buf`
do not end at the NUL of the line: behind it stands what longer lines have left there
(`LinuxUnix.HttpServer.covered`). What the header loop computes from the header lines of a message,
and on which of them it runs past an array, is decided by their texts alone
(`LinuxUnix.HttpServer.Scanned.takeHeaders`).
-/

namespace LinuxUnix.HttpServer

open CMemory CrlfLines

/-- A header line: a name, a colon, white space, and a value. -/
structure HeaderLine where
  name : List Byte
  space : List Byte
  value : List Byte
  named : name ≠ [] ∧ ∀ byte ∈ name, isSeparator 58 byte = false
  blank : ∀ byte ∈ space, byte = 32 ∨ byte = 9
  clean : 13 ∉ value ∧ 10 ∉ value
  started : ∀ byte ∈ value.head?, byte ≠ 32 ∧ byte ≠ 9

def HeaderLine.text (header : HeaderLine) : List Byte :=
  header.name ++ 58 :: (header.space ++ header.value)

def HeaderLine.IsConnection (header : HeaderLine) : Prop :=
  header.name = ascii "Connection"

instance (header : HeaderLine) : Decidable header.IsConnection :=
  inferInstanceAs (Decidable (_ = _))

/-- What an array holds after a line has been stored where other bytes stood, up to zeros. -/
def covered (line left : List Byte) : List Byte :=
  line ++ 0 :: left.drop (line.length + 1)

/-- The words that are found from the start of a header line on, where other bytes stood. -/
def HeaderLine.found (header : HeaderLine) (left : List Byte) (index : ℕ) : List Byte :=
  word 32 (covered (header.text ++ crlf) left) index

/-- The second word is there, and it and the first one fit `hValue`. -/
def HeaderLine.Readable (header : HeaderLine) (left : List Byte) : Prop :=
  (header.found left 0).length < 128 ∧ header.found left 1 ≠ [] ∧
    (header.found left 1).length < 128

instance (header : HeaderLine) (left : List Byte) : Decidable (header.Readable left) :=
  inferInstanceAs (Decidable (_ ∧ _ ∧ _))

/-- `retval` after one header line, if there is one. -/
def HeaderLine.retval (header : HeaderLine) (left : List Byte) (retval : ℤ) : Option ℤ :=
  if header.IsConnection then
    if header.Readable left then
      some (if header.found left 1 = ascii "Keep-Alive" then 1 else -1)
    else none
  else some retval

/-- `retval` after some header lines, if there is one. -/
def retvalFrom : ℤ → List Byte → List HeaderLine → Option ℤ
  | retval, _, [] => some retval
  | retval, left, header :: headers =>
      (header.retval left retval).bind fun retval =>
        retvalFrom retval (covered (header.text ++ crlf) left) headers

/-- The array holds a text and then zeros, and its last byte is a NUL. -/
structure Filled (left buf : List Byte) : Prop where
  size : buf.length = 512
  last : ∃ text, buf = text ++ [0]
  rest : ∃ zeros, buf = left ++ List.replicate zeros 0

/-- What the variables hold after the request line and some header lines of so many bytes: apart
from `buf`, the header and `retval` it is what they held after the request line. -/
structure Scanned (line left : List Byte) (size : ℕ) (locals : Locals) : Prop where
  apart : Holds [line] { locals with
    requestHeader := List.replicate bufferSize 0, retval := 0 }
  filled : Filled left locals.buf
  requestHeader : locals.requestHeader.length = bufferSize ∧ 0 ∈ locals.requestHeader ∧
    (cstr locals.requestHeader).length ≤ size

variable {checked : Bool} {locals after : Locals} {line left text buf : List Byte} {size : ℕ}
  {header : HeaderLine}

/-- The lines of a message are those that `fgets` can return. -/
theorem HeaderLine.line_text (header : HeaderLine) : Line header.text ∧ 10 ∉ header.text := by
  have other : ∀ byte : Byte, byte ≠ 58 → byte ≠ 32 → byte ≠ 9 → isSeparator 58 byte = true →
      byte ∉ header.value → byte ∉ header.text := by
    intro byte colon space tab separator valued member
    rcases List.mem_append.mp member with named | behind
    · cases separator.symm.trans (header.named.2 byte named)
    · rcases List.mem_cons.mp behind with same | behind
      · exact colon same
      · rcases List.mem_append.mp behind with blank | inside
        · exact (header.blank byte blank).elim space tab
        · exact valued inside
  refine ⟨⟨?_, ?_⟩, ?_⟩
  · exact List.append_ne_nil_of_right_ne_nil _ (List.cons_ne_nil _ _)
  · exact other 13 (by decide) (by decide) (by decide) (by decide) header.clean.1
  · exact other 10 (by decide) (by decide) (by decide) (by decide) header.clean.2

/-- The title of a header line is its name. -/
theorem HeaderLine.firstWord_text (header : HeaderLine) :
    firstWord 58 (cstr (header.text ++ crlf)) = header.name := by
  have plain : 0 ∉ header.name := by
    intro member
    cases (isSeparator_zero 58).symm.trans (header.named.2 0 member)
  rw [HeaderLine.text, List.append_assoc, List.cons_append, cstr_append_of_clean plain,
    cstr_cons_of_ne (by decide)]
  exact (firstWord_append header.named.1 header.named.2 (by decide)).1

theorem isSeparator_of_colon {byte : Byte} (kept : isSeparator 58 byte = false) :
    isSeparator 32 byte = false := by
  simp only [isSeparator, Bool.or_eq_false_iff] at kept ⊢
  exact ⟨⟨⟨⟨⟨kept.1.1.1.1.2, kept.1.1.1.1.2⟩, kept.1.1.1.2⟩, kept.1.1.2⟩, kept.1.2⟩, kept.2⟩

/-- A header line starts with a word. -/
theorem HeaderLine.found_zero (header : HeaderLine) (left : List Byte) :
    header.found left 0 ≠ [] := by
  obtain ⟨first, more, same⟩ := List.exists_cons_of_ne_nil header.named.1
  have start : isSeparator 32 first = false :=
    isSeparator_of_colon (header.named.2 first (same ▸ List.mem_cons_self))
  rw [HeaderLine.found, word, covered, HeaderLine.text, same]
  exact firstWord_ne_nil start _

/-- White space behind the colon, and a value of one word that fits `hValue`. -/
structure HeaderLine.Spaced (header : HeaderLine) : Prop where
  space : header.space ≠ []
  value : header.value ≠ []
  single : ∀ byte ∈ header.value, isSeparator 32 byte = false
  short : header.value.length < 128

/-- Such a value is found, whatever stood in the array before. -/
theorem HeaderLine.Spaced.found (spaced : header.Spaced) (left : List Byte) :
    header.found left 0 = header.name ++ [58] ∧ header.found left 1 = header.value := by
  obtain ⟨blank, more, same⟩ := List.exists_cons_of_ne_nil spaced.space
  have blanks : ∀ byte ∈ header.space, isSeparator 32 byte = true := by
    intro byte member
    rcases header.blank byte member with rfl | rfl <;> decide
  have title : ∀ byte ∈ header.name ++ [58], isSeparator 32 byte = false := by
    intro byte member
    rcases List.mem_append.mp member with named | colon
    · exact isSeparator_of_colon (header.named.2 byte named)
    · rw [List.mem_singleton.mp colon]
      decide
  have split : covered (header.text ++ crlf) left = (header.name ++ [58]) ++ blank :: (more ++
      (header.value ++ 13 :: 10 :: 0 :: left.drop ((header.text ++ crlf).length + 1))) := by
    simp only [covered, HeaderLine.text, same, crlf, List.append_assoc, List.cons_append,
      List.nil_append]
  obtain ⟨first, after⟩ := firstWord_append (List.append_ne_nil_of_right_ne_nil _
    (List.cons_ne_nil 58 [])) title (blanks blank (same ▸ List.mem_cons_self))
  rw [HeaderLine.found, HeaderLine.found, split, word, word, word, first, after]
  refine ⟨rfl, ?_⟩
  rw [← List.cons_append, ← same, firstWord_separators_append blanks]
  exact (firstWord_append spaced.value spaced.single (by decide)).1

/-- A line with its NUL is stored at the start of the array. -/
theorem Filled.store (filled : Filled left buf) (short : line.length ≤ 511) :
    Filled (covered line left) (overwrite buf 0 (line ++ [0])) := by
  have room : (line ++ [0]).length = line.length + 1 := List.length_append
  have size := filled.size
  have same : overwrite buf 0 (line ++ [0]) = line ++ 0 :: buf.drop (line.length + 1) := by
    rw [overwrite, List.take_zero, List.nil_append, List.append_assoc, List.singleton_append,
      Nat.zero_add, room]
  refine ⟨?_, ?_, ?_⟩
  · rw [length_overwrite (by omega), size]
  · obtain ⟨text, last⟩ := filled.last
    rw [same]
    by_cases full : line.length = 511
    · refine ⟨line, ?_⟩
      rw [List.drop_eq_nil_of_le (by omega)]
    · have long : line.length + 1 ≤ text.length := by
        rw [last, List.length_append, List.length_singleton] at size
        omega
      refine ⟨line ++ 0 :: text.drop (line.length + 1), ?_⟩
      rw [last, List.drop_append_of_le_length long, List.append_assoc, List.cons_append]
  · obtain ⟨zeros, rest⟩ := filled.rest
    refine ⟨zeros - (line.length + 1 - left.length), ?_⟩
    rw [same, rest, List.drop_append, List.drop_replicate, covered, List.append_assoc,
      List.cons_append]

/-- The words of the array are those of the text. -/
theorem Filled.words (filled : Filled left buf) :
    ∃ text, buf = text ++ [0] ∧ ∀ index, word 32 text index = word 32 left index := by
  obtain ⟨text, last⟩ := filled.last
  obtain ⟨zeros, rest⟩ := filled.rest
  refine ⟨text, last, fun index => ?_⟩
  rw [← word_append_zeros left zeros, ← rest, last]
  exact (word_append_zeros text 1 index).symm

/-- `fgets` returns a line that fits `buf`, and the loop works on it. -/
theorem takeBytes_crlf (clean : Line text ∧ 10 ∉ text) (reading : locals.ended = false)
    (size : locals.buf.length = 512) (start : locals.count = 0)
    (short : (text ++ crlf).length ≤ 511) (rest : List Byte) :
    locals.takeBytes checked (text ++ crlf ++ rest) =
      (if locals.isFirst then
        { locals with buf := overwrite locals.buf 0 (text ++ crlf ++ [0]) }.takeHeadline checked
      else
        { locals with buf := overwrite locals.buf 0 (text ++ crlf ++ [0]) }.takeHeader checked).bind
          fun locals => locals.takeBytes checked rest := by
  obtain ⟨cut, noNewline, other⟩ := clean.1.cut clean.2
  rw [cut, List.length_append] at short
  rw [cut, List.append_assoc _ [10], List.singleton_append, takeBytes_line noNewline reading size
    start (Nat.le_of_succ_le_succ short), Locals.takeLine,
    if_neg fun blank => other ((blank_iff noNewline _).mp blank)]

/-- The second word of `buf` is taken for the value of a `Connection` header. -/
theorem takeConnection_readable (valueSize : locals.hValue.length = 128)
    (filled : Filled (covered (header.text ++ crlf) left) locals.buf)
    (readable : header.Readable left) :
    ∃ hValue, hValue.length = 128 ∧ locals.takeConnection false = some { locals with
      hValue, retval := if header.found left 1 = ascii "Keep-Alive" then 1 else -1 } := by
  obtain ⟨text, last, words⟩ := filled.words
  obtain ⟨hValue, found, foundSize, inValue, isWord⟩ :=
    @tokenLoop_words 32 128 1 text [] locals.hValue 0
      (by
        intro index small
        rw [words]
        rcases Nat.le_one_iff_eq_zero_or_eq_one.mp small with rfl | rfl
        · exact header.found_zero left
        · exact readable.2.1)
      (by
        intro index small
        rw [words, valueSize, and_self]
        rcases Nat.le_one_iff_eq_zero_or_eq_one.mp small with rfl | rfl
        · exact readable.1
        · exact readable.2.2)
  have called : callGetToken false locals.buf 2 locals.hValue 128 32 = some hValue := by
    rw [callGetToken_unchecked, getToken, last, found, Option.map_some]
  refine ⟨hValue, foundSize.trans valueSize, ?_⟩
  rw [Locals.takeConnection, called, Option.bind_some, strcmpEq_of_mem inValue, Option.bind_some,
    isWord, words, ← HeaderLine.found]
  by_cases keepAlive : header.found left 1 = ascii "Keep-Alive"
  · rw [if_pos keepAlive, if_pos (beq_iff_eq.mpr keepAlive)]
  · rw [if_neg keepAlive, if_neg fun same => keepAlive (beq_iff_eq.mp same)]

/-- Without a second word, or if a word does not fit, an array is left. -/
theorem takeConnection_unreadable (valueSize : locals.hValue.length = 128)
    (filled : Filled (covered (header.text ++ crlf) left) locals.buf)
    (unreadable : ¬ header.Readable left) : locals.takeConnection false = none := by
  obtain ⟨text, last, words⟩ := filled.words
  have fails := @tokenLoop_fails 32 1 text locals.hValue 0
    (by rw [valueSize]; decide)
    (by
      intro fits
      rw [valueSize] at fits
      have first := fits 0 (Nat.zero_le 1)
      have second := fits 1 (Nat.le_refl 1)
      rw [words] at first second
      exact unreadable ⟨first.2, second⟩)
  rw [valueSize] at fails
  rw [Locals.takeConnection, callGetToken_unchecked, getToken, last]
  rcases fails with none_ | ⟨stored, found, unterminated⟩
  · rw [none_, Option.map_none, Option.bind_none]
  · rw [found, Option.map_some, Option.bind_some, strcmpEq_of_not_mem unterminated,
      Option.bind_none]

/-- What the body of the loop does on a header line. -/
theorem Scanned.takeHeader (scanned : Scanned line left size locals)
    (short : (header.text ++ crlf).length ≤ 511) (name : header.name.length < 32)
    (total : size + (header.text ++ crlf).length < bufferSize) :
    match header.retval left locals.retval with
    | none => { locals with
        buf := overwrite locals.buf 0 (header.text ++ crlf ++ [0]) }.takeHeader false = none
    | some retval => ∃ after, { locals with
        buf := overwrite locals.buf 0 (header.text ++ crlf ++ [0]) }.takeHeader false = some after ∧
          Scanned line (covered (header.text ++ crlf) left) (size + (header.text ++ crlf).length)
            after ∧ after.retval = retval := by
  have filled := scanned.filled.store short
  have inBuf : 0 ∈ overwrite locals.buf 0 (header.text ++ crlf ++ [0]) := zero_mem_overwrite ..
  have string : cstr (overwrite locals.buf 0 (header.text ++ crlf ++ [0])) =
      cstr (header.text ++ crlf) := cstr_overwrite ..
  generalize overwrite locals.buf 0 (header.text ++ crlf ++ [0]) = buf at filled inBuf string ⊢
  obtain ⟨headerSize, inHeader, within⟩ := scanned.requestHeader
  have titleSize : locals.hTitle.length = 32 := scanned.apart.hTitle
  have valueSize : locals.hValue.length = 128 := scanned.apart.hValue
  have part : (cstr buf).length ≤ (header.text ++ crlf).length := by
    rw [string]
    exact (List.takeWhile_prefix _).length_le
  obtain ⟨requestHeader, copied, headerSize', inHeader', isHeader⟩ :=
    @strcat_fits locals.requestHeader buf inHeader inBuf (by omega)
  obtain ⟨hTitle, called, titleSize', inTitle, isTitle⟩ :=
    @callGetToken_first false buf locals.hTitle 58 32 inBuf
      (by rw [string, header.firstWord_text]; exact header.named.1) (by rw [titleSize])
      (by rw [string, header.firstWord_text]; exact name)
  rw [string, header.firstWord_text] at isTitle
  have within' : (cstr requestHeader).length ≤ size + (header.text ++ crlf).length := by
    rw [isHeader, List.length_append]
    omega
  have scanned' : ∀ (hValue : List Byte) (retval : ℤ), hValue.length = 128 →
      Scanned line (covered (header.text ++ crlf) left) (size + (header.text ++ crlf).length)
        { locals with buf, requestHeader, hTitle, hValue, retval } := by
    intro hValue retval valueSize
    exact {
      apart := { scanned.apart with
        buf := filled.size
        hTitle := titleSize'.trans titleSize
        hValue := valueSize }
      filled
      requestHeader := ⟨headerSize'.trans headerSize, inHeader', within'⟩ }
  simp only [Locals.takeHeader, copied, called, Option.bind_some, strcmpEq_of_mem inTitle, isTitle,
    beq_iff_eq]
  rw [HeaderLine.retval]
  by_cases connection : header.IsConnection
  · have named : header.name = ascii "Connection" := connection
    rw [if_pos connection, if_pos named]
    by_cases readable : header.Readable left
    · obtain ⟨hValue, valueSize', taken⟩ := @takeConnection_readable
        { locals with buf, requestHeader, hTitle } left header valueSize filled readable
      rw [if_pos readable]
      exact ⟨_, taken, scanned' hValue _ valueSize', rfl⟩
    · rw [if_neg readable]
      exact takeConnection_unreadable valueSize filled readable
  · have other : ¬ header.name = ascii "Connection" := connection
    rw [if_neg connection, if_neg other]
    exact ⟨_, rfl, scanned' locals.hValue locals.retval valueSize, rfl⟩

/-- The bytes of some header lines. -/
def headerBytes (headers : List HeaderLine) : List Byte :=
  (headers.map fun header => header.text ++ crlf).flatten

/-- The header lines fit `buf`, `hTitle`, and what is left of `requestHeader`. -/
structure HeadersFit (size : ℕ) (headers : List HeaderLine) : Prop where
  short : ∀ header ∈ headers, (header.text ++ crlf).length ≤ 511
  name : ∀ header ∈ headers, header.name.length < 32
  total : size + (headerBytes headers).length < bufferSize

/-- The header loop goes through the header lines as long as there is a `retval`. -/
theorem Scanned.takeHeaders {headers : List HeaderLine} (rest : List Byte) :
    ∀ {left : List Byte} {size : ℕ} {locals : Locals}, Scanned line left size locals →
      HeadersFit size headers →
      match retvalFrom locals.retval left headers with
      | none => locals.takeBytes false (headerBytes headers ++ rest) = none
      | some retval => ∃ after left' size', locals.takeBytes false (headerBytes headers ++ rest) =
          after.takeBytes false rest ∧ Scanned line left' size' after ∧ after.retval = retval := by
  induction headers with
  | nil =>
      intro left size locals scanned _
      exact ⟨locals, left, size, rfl, scanned, rfl⟩
  | cons header headers ih =>
      intro left size locals scanned fits
      have bytes : headerBytes (header :: headers) = header.text ++ crlf ++ headerBytes headers :=
        List.flatten_cons
      have total := fits.total
      rw [bytes, List.length_append] at total
      have short := fits.short header List.mem_cons_self
      have step := @Scanned.takeHeader locals line left size header scanned short
        (fits.name header List.mem_cons_self) (by omega)
      have reading : locals.ended = false := scanned.apart.reading
      have start : locals.count = 0 := scanned.apart.start
      have later : locals.isFirst = false := scanned.apart.isFirst
      rw [bytes, List.append_assoc, takeBytes_crlf header.line_text reading scanned.filled.size
        start short, if_neg (Bool.not_eq_true _ ▸ later), retvalFrom]
      cases value : header.retval left locals.retval with
      | none =>
          rw [value] at step
          simp only [step, Option.bind_none]
      | some retval =>
          rw [value] at step
          obtain ⟨middle, taken, scanned', same⟩ := step
          simp only [taken, Option.bind_some]
          rw [← same]
          exact ih scanned' {
            short := fun other member => fits.short other (List.mem_cons_of_mem _ member)
            name := fun other member => fits.name other (List.mem_cons_of_mem _ member)
            total := by omega }

/-- The variables before the request line. -/
def firstLine (line : List Byte) : Locals :=
  { Locals.start with buf := overwrite Locals.start.buf 0 (line ++ [0]) }

/-- What the body of the loop does on the request line. -/
theorem takeHeadline_scanned (short : line.length ≤ 511) (first : firstWord 0 (cstr line) ≠ []) :
    ∃ after, (firstLine line).takeHeadline false = some after ∧
      Scanned line (covered line []) 0 after ∧ after.retval = 0 := by
  have empty : Filled [] Locals.start.buf :=
    ⟨List.length_replicate, ⟨List.replicate 511 0, by decide +kernel⟩, 512, rfl⟩
  have filled := empty.store short
  obtain ⟨after, taken, holds⟩ := @takeHeadline_holds false Locals.start
    (firstLine line).buf line holds_start filled.size (zero_mem_overwrite ..) (cstr_overwrite ..)
    short first
  refine ⟨after, taken, ⟨{ holds with
    requestHeader := holds_start.requestHeader
    retval := rfl }, ?_, ?_⟩, holds.retval⟩
  · simp only [Locals.takeHeadline, Option.bind_eq_some_iff] at taken
    obtain ⟨headline, _, method, _, same⟩ := taken
    cases same
    exact filled
  · obtain ⟨length, terminated, same⟩ := holds.requestHeader
    exact ⟨length, terminated, same ▸ Nat.le_refl 0⟩

/-- Without a method `headline` is left. -/
theorem takeHeadline_wordless (short : line.length ≤ 511)
    (wordless : firstWord 0 (cstr line) = []) : (firstLine line).takeHeadline false = none := by
  rw [Locals.takeHeadline, Option.bind_eq_none_iff]
  intro headline copied
  have part : (cstr line).length ≤ line.length := (List.takeWhile_prefix _).length_le
  have string : cstr (firstLine line).buf = cstr line := cstr_overwrite ..
  have same : headline = cstr line ++ 0 :: List.replicate (1023 - (cstr line).length) 0 := by
    rw [strcpy, Option.ite_none_right_eq_some, Option.some.injEq, string] at copied
    rw [← copied.2]
    change overwrite (List.replicate 1024 0) 0 (cstr line ++ [0]) = _
    rw [overwrite_replicate]
    congr 3
    omega
  have wordless' : firstWord 0 (cstr line ++ 0 ::
      List.replicate (1023 - (cstr line).length) 0) = [] :=
    (word_append_zeros (cstr line) (1023 - (cstr line).length + 1) 0).trans wordless
  rw [callGetToken_unchecked, getToken, same, tokenLoop_wordless wordless', Option.map_none,
    Option.bind_none]

/-- A request line and header lines. -/
structure Message where
  line : List Byte
  headers : List HeaderLine
  clean : Line line ∧ 10 ∉ line

/-- The request as the client sends it. -/
def Message.request (message : Message) : Request where
  line := message.line
  headers := message.headers.map HeaderLine.text
  clean := by
    intro text member
    rcases List.mem_cons.mp member with rfl | member
    · exact message.clean
    · obtain ⟨header, _, rfl⟩ := List.mem_map.mp member
      exact header.line_text

/-- The first word of the request line. -/
def Message.method (message : Message) : List Byte :=
  firstWord 0 (cstr message.line)

/-- What the header loop computes from the header lines, if it comes to their end. -/
def Message.retval (message : Message) : Option ℤ :=
  retvalFrom 0 (covered (message.line ++ crlf) []) message.headers

def Message.Gets (message : Message) : Prop :=
  message.method = ascii "GET" ∨ message.method = ascii "get"

instance (message : Message) : Decidable message.Gets :=
  inferInstanceAs (Decidable (_ ∨ _))

/-- The lines fit `buf`, `method`, `uri`, `path`, `requestHeader` and `hTitle`. -/
structure Message.FitsBuffers (message : Message) : Prop where
  line : (message.line ++ crlf).length ≤ 511
  method : message.method.length < 255
  uri : message.Gets → message.request.target.length ≤ 510
  headers : HeadersFit 0 message.headers

/-- What the variables hold after the header loop. -/
structure Message.Heard (message : Message) (locals : Locals) : Prop where
  ended : locals.ended = true
  clear : Clear locals
  named : message.method ≠ []
  headline : cstr locals.headline = cstr (message.line ++ crlf)
  method : 0 ∈ locals.method ∧ cstr locals.method = message.method
  uri : locals.uri = List.replicate 512 0
  retval : message.retval = some locals.retval

variable {message : Message}

/-- The first word of `headline` is that of the request line. -/
theorem Message.firstWord_line (message : Message) :
    firstWord 0 (cstr (message.line ++ crlf)) = message.method :=
  word_headText message.request 0

/-- The bytes of a message are its request line, its header lines, and the empty line. -/
theorem Message.bytes_eq (message : Message) :
    message.request.bytes = message.line ++ crlf ++ (headerBytes message.headers ++ crlf) := by
  rw [Request.bytes, block, List.map_cons, List.flatten_cons, List.append_assoc]
  congr 2
  rw [headerBytes, Message.request, List.map_map]
  rfl

theorem takeBytes_requestLine (fits : message.FitsBuffers) :
    Locals.start.takeBytes false message.request.bytes =
      ((firstLine (message.line ++ crlf)).takeHeadline false).bind fun locals =>
        locals.takeBytes false (headerBytes message.headers ++ crlf) := by
  have now : Locals.start.isFirst = true := rfl
  rw [message.bytes_eq, takeBytes_crlf message.clean rfl List.length_replicate rfl fits.line,
    if_pos now]
  rfl

/-- The empty line ends the header loop. -/
theorem takeBytes_blank (reading : locals.ended = false) (size : locals.buf.length = 512)
    (start : locals.count = 0) : locals.takeBytes checked crlf = some { locals with
      buf := overwrite locals.buf 0 ([13] ++ [10] ++ [0]), ended := true } := by
  have clean : (10 : Byte) ∉ [13] := by decide
  have last := @takeBytes_line checked locals [13] clean reading size start (by decide) []
  rwa [Locals.takeLine, if_pos ((blank_iff clean _).mpr rfl), Option.bind_some] at last

/-- The header loop comes to its end exactly if there is a method and a `retval`. -/
theorem takeBytes_message (fits : message.FitsBuffers) :
    match if message.method = [] then none else message.retval with
    | none => Locals.start.takeBytes false message.request.bytes = none
    | some _ => ∃ locals, Locals.start.takeBytes false message.request.bytes = some locals ∧
        message.Heard locals := by
  rw [takeBytes_requestLine fits]
  by_cases named : message.method = []
  · rw [if_pos named, takeHeadline_wordless fits.line (message.firstWord_line.trans named)]
    rfl
  obtain ⟨first, taken, scanned, start⟩ := takeHeadline_scanned fits.line
    (fun wordless => named (message.firstWord_line.symm.trans wordless))
  have loop := scanned.takeHeaders crlf fits.headers
  rw [start, ← Message.retval] at loop
  rw [if_neg named, taken, Option.bind_some]
  cases value : message.retval with
  | none => rwa [value] at loop
  | some retval =>
      rw [value] at loop
      obtain ⟨after, left, size, goes, scanned', same⟩ := loop
      have method := scanned'.apart.method.2.1
      rw [headText, List.head?_cons, Option.map_some, Option.getD_some,
        message.firstWord_line] at method
      have taken' := goes.trans (takeBytes_blank scanned'.apart.reading scanned'.filled.size
        scanned'.apart.start)
      refine ⟨_, taken', ?_⟩
      exact {
        ended := rfl
        clear := by
          apply @clear_takeBytes false _ message.request.bytes Locals.start clear_start
          rw [takeBytes_requestLine fits, taken, Option.bind_some, taken']
        named
        headline := scanned'.apart.headline.2.2
        method := method fits.method
        uri := scanned'.apart.uri
        retval := by rw [value, ← same] }

end LinuxUnix.HttpServer

import LinuxUnix.Network.HttpServer

/-! # The header loop line by line

What `httpd` has in its arrays after some lines of a request is determined by these
lines (`LinuxUnix.HttpServer.Holds`), as long as every one of them fits
(`LinuxUnix.HttpServer.Admitted`): the loop takes a further line if and only if the
lines with it are admitted (`LinuxUnix.HttpServer.Holds.takeLine`).
-/

namespace LinuxUnix.HttpServer

open CMemory

/-- The complete lines of a stream with their newlines, and the rest. -/
def splitLines : List Byte → List (List Byte) × List Byte
  | [] => ([], [])
  | byte :: rest =>
      if byte = 10 then ([10] :: (splitLines rest).1, (splitLines rest).2)
      else match splitLines rest with
        | ([], tail) => ([], byte :: tail)
        | (line :: lines, tail) => ((byte :: line) :: lines, tail)

theorem splitLines_open {tail : List Byte} (clean : 10 ∉ tail) : splitLines tail = ([], tail) := by
  induction tail with
  | nil => rfl
  | cons byte tail ih =>
      rw [List.mem_cons, not_or] at clean
      rw [splitLines, if_neg (Ne.symm clean.1), ih clean.2]

theorem splitLines_append {text : List Byte} (clean : 10 ∉ text) (rest : List Byte) :
    splitLines (text ++ 10 :: rest) =
      ((text ++ [10]) :: (splitLines rest).1, (splitLines rest).2) := by
  induction text with
  | nil => rw [List.nil_append, splitLines, if_pos rfl, List.nil_append]
  | cons byte text ih =>
      rw [List.mem_cons, not_or] at clean
      rw [List.cons_append, splitLines, if_neg (Ne.symm clean.1), ih clean.2, List.cons_append]

variable {checked : Bool} {locals : Locals}

theorem takeBytes_cons (checked : Bool) (locals : Locals) (byte : Byte) (bytes : List Byte) :
    locals.takeBytes checked (byte :: bytes) =
      (locals.takeByte checked byte).bind fun locals => locals.takeBytes checked bytes :=
  rfl

/-- After the header loop the rest of the stream is not read. -/
theorem takeBytes_ended {checked : Bool} (ended : locals.ended = true) (stream : List Byte) :
    locals.takeBytes checked stream = some locals := by
  induction stream with
  | nil => rfl
  | cons byte stream ih => rw [takeBytes_cons, Locals.takeByte, if_pos ended, Option.bind_some, ih]

theorem takeBytes_append (checked : Bool) (locals : Locals) (first second : List Byte) :
    locals.takeBytes checked (first ++ second) =
      (locals.takeBytes checked first).bind fun locals => locals.takeBytes checked second := by
  rw [Locals.takeBytes, List.foldlM_append]
  rfl

/-- `fgets` stores a byte that is not a newline. -/
theorem takeByte_text {byte : Byte} (other : byte ≠ 10) (reading : locals.ended = false)
    (size : locals.buf.length = 512) (room : locals.count < 512) :
    locals.takeByte checked byte = some { locals with
      buf := overwrite locals.buf locals.count [byte], count := locals.count + 1 } := by
  have more : ¬ (byte = 10 ∨ locals.count + 1 = bufferSize - 1) := by
    rintro (newline | full)
    · exact other newline
    · rw [bufferSize] at full
      omega
  rw [Locals.takeByte, if_neg (Bool.not_eq_true _ ▸ reading), store, if_pos (by omega),
    Option.bind_some, if_neg more, set_eq_overwrite (by omega)]

/-- `fgets` has no room for the byte. -/
theorem takeByte_full {byte : Byte} (reading : locals.ended = false)
    (size : locals.buf.length = 512) (full : 512 ≤ locals.count) :
    locals.takeByte checked byte = none := by
  rw [Locals.takeByte, if_neg (Bool.not_eq_true _ ▸ reading), store, if_neg (by omega),
    Option.bind_none]

/-- At a newline `fgets` returns the line, with its NUL. -/
theorem takeByte_newline (reading : locals.ended = false) (size : locals.buf.length = 512)
    (room : locals.count ≤ 510) :
    locals.takeByte checked 10 = { locals with
      buf := overwrite locals.buf locals.count [10, 0], count := 0 }.takeLine checked := by
  have length : (overwrite locals.buf locals.count [10]).length = 512 := by
    rw [length_overwrite (by rw [List.length_singleton]; omega), size]
  have stored : overwrite (overwrite locals.buf locals.count [10]) (locals.count + 1) [0] =
      overwrite locals.buf locals.count [10, 0] := overwrite_append (by omega) [0]
  rw [Locals.takeByte, if_neg (Bool.not_eq_true _ ▸ reading), store, if_pos (by omega),
    Option.bind_some, if_pos (.inl rfl), Locals.endLine, set_eq_overwrite (by omega)]
  simp only [store]
  rw [if_pos (by omega), Option.bind_some, set_eq_overwrite (by omega), stored]

theorem takeByte_newline_large (reading : locals.ended = false) (size : locals.buf.length = 512)
    (large : 510 < locals.count) : locals.takeByte checked 10 = none := by
  by_cases full : 512 ≤ locals.count
  · exact takeByte_full reading size full
  · rw [Locals.takeByte, if_neg (Bool.not_eq_true _ ▸ reading), store, if_pos (by omega),
      Option.bind_some, if_pos (.inl rfl), Locals.endLine]
    simp only [store, List.length_set]
    rw [if_neg (by omega), Option.bind_none]

/-- `fgets` stores bytes without a newline as long as they fit `buf`. -/
theorem takeBytes_text {text : List Byte} : ∀ {locals : Locals} {rest : List Byte}, 10 ∉ text →
    locals.ended = false → locals.buf.length = 512 → locals.count + text.length ≤ 512 →
    locals.takeBytes checked (text ++ rest) =
      { locals with
        buf := overwrite locals.buf locals.count text
        count := locals.count + text.length }.takeBytes checked rest := by
  induction text with
  | nil =>
      intro locals rest _ _ _ _
      rw [overwrite_nil]
      rfl
  | cons byte text ih =>
      intro locals rest clean reading size room
      rw [List.mem_cons, not_or] at clean
      rw [List.length_cons] at room
      have length : (overwrite locals.buf locals.count [byte]).length = 512 := by
        rw [length_overwrite (by rw [List.length_singleton]; omega), size]
      have stored : overwrite (overwrite locals.buf locals.count [byte]) (locals.count + 1) text =
          overwrite locals.buf locals.count (byte :: text) := overwrite_append (by omega) text
      have last : locals.count + 1 + text.length = locals.count + (text.length + 1) := by omega
      have next := @ih
        { locals with
          buf := overwrite locals.buf locals.count [byte]
          count := locals.count + 1 } rest clean.2 reading length (by rwa [last])
      rw [List.cons_append, takeBytes_cons,
        takeByte_text (Ne.symm clean.1) reading size (by omega), Option.bind_some, next, stored,
        last, List.length_cons]

/-- A line that does not fit runs past `buf`. -/
theorem takeBytes_large {text rest : List Byte} (clean : 10 ∉ text)
    (reading : locals.ended = false) (size : locals.buf.length = 512) (start : locals.count = 0)
    (large : 512 < text.length) : locals.takeBytes checked (text ++ rest) = none := by
  have split : text ++ rest = text.take 512 ++ (text[512] :: (text.drop 513 ++ rest)) := by
    rw [← List.cons_append, ← List.drop_eq_getElem_cons, ← List.append_assoc,
      List.take_append_drop]
  have first : (text.take 512).length = 512 := List.length_take_of_le large.le
  have length : (overwrite locals.buf locals.count (text.take 512)).length = 512 := by
    rw [length_overwrite (by omega), size]
  rw [split, takeBytes_text (fun member => clean (List.mem_of_mem_take member)) reading size
    (by omega), takeBytes_cons, takeByte_full]
  · rfl
  · exact reading
  · exact length
  · simp only
    omega

/-- The lines that `fgets` can return are worked on one after the other. -/
theorem takeBytes_line {text : List Byte} (clean : 10 ∉ text)
    (reading : locals.ended = false) (size : locals.buf.length = 512) (start : locals.count = 0)
    (short : text.length ≤ 510) (rest : List Byte) :
    locals.takeBytes checked (text ++ 10 :: rest) =
      ({ locals with
        buf := overwrite locals.buf 0 (text ++ [10] ++ [0]) }.takeLine checked).bind
          fun locals => locals.takeBytes checked rest := by
  have length : (overwrite locals.buf 0 text).length = 512 := by
    rw [length_overwrite (by omega), size]
  have stored : overwrite (overwrite locals.buf 0 text) text.length [10, 0] =
      overwrite locals.buf 0 (text ++ [10] ++ [0]) := by
    rw [List.append_assoc, List.singleton_append, ← overwrite_append (Nat.zero_le _),
      Nat.zero_add]
  have ended : locals.count + text.length = text.length := by omega
  rw [takeBytes_text clean reading size (by omega), takeBytes_cons, ended, start,
    takeByte_newline]
  · rw [stored]
  · exact reading
  · exact length
  · exact short

/-- A header line on which the loop can do its work: it has a title that fits
`hTitle`, and a `Connection` header has a second word, which fits `hValue` as the
first one does. -/
def HeaderFits (line : List Byte) : Prop :=
  firstWord 58 (cstr line) ≠ [] ∧ (firstWord 58 (cstr line)).length < 32 ∧
    (firstWord 58 (cstr line) = ascii "Connection" →
      ∀ index ≤ 1, word 32 (cstr line) index ≠ [] ∧ (word 32 (cstr line) index).length < 128)

/-- The lines of a request header that the loop can take. -/
structure Admitted (lines : List (List Byte)) : Prop where
  short : ∀ line ∈ lines, line.length ≤ 511
  first : ∀ line ∈ lines.head?, firstWord 0 (cstr line) ≠ []
  headers : ∀ line ∈ lines.tail, HeaderFits line
  total : (lines.tail.map cstr).flatten.length < bufferSize

/-- The string in `headline` after some lines. -/
def headText (lines : List (List Byte)) : List Byte :=
  (lines.head?.map cstr).getD []

/-- `retval` after one header line. -/
def retvalAfter (retval : ℤ) (line : List Byte) : ℤ :=
  if firstWord 58 (cstr line) = ascii "Connection" then
    if word 32 (cstr line) 1 = ascii "Keep-Alive" then 1 else -1
  else retval

/-- What the variables hold after some lines, before `fgets` is called. -/
structure Holds (lines : List (List Byte)) (locals : Locals) : Prop where
  reading : locals.ended = false
  start : locals.count = 0
  buf : locals.buf.length = 512
  isFirst : locals.isFirst = lines.isEmpty
  headline : locals.headline.length = 1024 ∧ 0 ∈ locals.headline ∧
    cstr locals.headline = headText lines
  method : locals.method.length = 255 ∧
    ((firstWord 0 (headText lines)).length < 255 →
      0 ∈ locals.method ∧ cstr locals.method = firstWord 0 (headText lines)) ∧
    (255 ≤ (firstWord 0 (headText lines)).length → 0 ∉ locals.method)
  requestHeader : locals.requestHeader.length = bufferSize ∧ 0 ∈ locals.requestHeader ∧
    cstr locals.requestHeader = (lines.tail.map cstr).flatten
  hTitle : locals.hTitle.length = 32
  hValue : locals.hValue.length = 128
  uri : locals.uri = List.replicate 512 0
  retval : locals.retval = lines.tail.foldl retvalAfter 0

/-- No line has been read at the start. -/
theorem holds_start : Holds [] Locals.start where
  reading := rfl
  start := rfl
  buf := List.length_replicate
  isFirst := rfl
  headline := ⟨List.length_replicate, by decide +kernel, by decide +kernel⟩
  method := ⟨List.length_replicate, fun _ => ⟨by decide +kernel, by decide +kernel⟩,
    fun large => absurd large (by decide)⟩
  requestHeader := ⟨List.length_replicate, by decide +kernel, by decide +kernel⟩
  hTitle := List.length_replicate
  hValue := List.length_replicate
  uri := rfl
  retval := rfl

/-- `fgets` returns an empty line exactly if it got a CR and a newline. -/
theorem blank_iff {text : List Byte} (clean : 10 ∉ text) (memory : List Byte) :
    ((overwrite memory 0 (text ++ [10] ++ [0]))[0]? = some 13 ∧
      (overwrite memory 0 (text ++ [10] ++ [0]))[1]? = some 10) ↔ text = [13] := by
  rw [overwrite, List.take_zero, List.nil_append]
  cases text with
  | nil => simp
  | cons first text =>
      cases text with
      | nil => simp
      | cons second text =>
          have other : second ≠ 10 := by
            rintro rfl
            exact clean (List.mem_cons_of_mem _ List.mem_cons_self)
          simp [other]

variable {buf token : List Byte} {delim : Byte} {toklen : ℕ}

/-- Without the check a call is what `GetToken` does. -/
theorem callGetToken_unchecked (buf token : List Byte) (n toklen : ℕ) (delim : Byte) :
    callGetToken false buf n token toklen delim =
      (getToken buf n token toklen delim).map Prod.snd := by
  rw [callGetToken, if_neg fun both => Bool.false_ne_true both.1]

/-- A call of `GetToken` that gets what it needs stores the word. -/
theorem callGetToken_words (count : ℕ) (terminated : 0 ∈ buf)
    (words : ∀ index ≤ count, word delim (cstr buf) index ≠ []) (room : toklen ≤ token.length)
    (fits : ∀ index ≤ count, (word delim (cstr buf) index).length < toklen) :
    ∃ stored, callGetToken checked buf (count + 1) token toklen delim = some stored ∧
      stored.length = token.length ∧ 0 ∈ stored ∧ cstr stored = word delim (cstr buf) count := by
  obtain ⟨stored, found, rest⟩ := getToken_words count terminated words fun index small =>
    ⟨fits index small, (fits index small).trans_le room⟩
  have needs : Needs buf (count + 1) token toklen delim :=
    ⟨terminated, fun index small => words index (Nat.le_of_lt_succ small), room⟩
  refine ⟨stored, ?_, rest⟩
  rw [callGetToken, if_neg fun both => both.2 needs, found, Option.map_some]

/-- A word as long as its array is left without a NUL. -/
theorem callGetToken_unterminated (count : ℕ) (terminated : 0 ∈ buf)
    (words : ∀ index ≤ count, word delim (cstr buf) index ≠ []) (positive : 0 < token.length)
    (large : ∃ index ≤ count, token.length ≤ (word delim (cstr buf) index).length) :
    ∃ stored, callGetToken checked buf (count + 1) token token.length delim = some stored ∧
      stored.length = token.length ∧ 0 ∉ stored := by
  obtain ⟨stored, found, rest⟩ := @getToken_unterminated delim buf token count terminated words
    positive large
  have needs : Needs buf (count + 1) token token.length delim :=
    ⟨terminated, fun index small => words index (Nat.le_of_lt_succ small), Nat.le_refl _⟩
  refine ⟨stored, ?_, rest⟩
  rw [callGetToken, if_neg fun both => both.2 needs, found, Option.map_some]

/-- The first word is stored if it fits. -/
theorem callGetToken_first (terminated : 0 ∈ buf) (first : firstWord delim (cstr buf) ≠ [])
    (room : toklen ≤ token.length) (fits : (firstWord delim (cstr buf)).length < toklen) :
    ∃ stored, callGetToken checked buf 1 token toklen delim = some stored ∧
      stored.length = token.length ∧ 0 ∈ stored ∧ cstr stored = firstWord delim (cstr buf) := by
  apply callGetToken_words 0 terminated _ room
  · intro index start
    cases Nat.le_zero.mp start
    exact fits
  · intro index start
    cases Nat.le_zero.mp start
    exact first

/-- The first word is left without a NUL if it does not fit. -/
theorem callGetToken_first_unterminated (terminated : 0 ∈ buf)
    (first : firstWord delim (cstr buf) ≠ []) (positive : 0 < token.length)
    (large : token.length ≤ (firstWord delim (cstr buf)).length) :
    ∃ stored, callGetToken checked buf 1 token token.length delim = some stored ∧
      stored.length = token.length ∧ 0 ∉ stored := by
  apply callGetToken_unterminated 0 terminated _ positive ⟨0, Nat.le_refl 0, large⟩
  intro index start
  cases Nat.le_zero.mp start
  exact first

/-- A call that does not find its words is not allowed. -/
theorem callGetToken_none {count : ℕ}
    (wordless : ∃ index < count, word delim (cstr buf) index = []) :
    callGetToken true buf count token toklen delim = none := by
  obtain ⟨index, small, empty⟩ := wordless
  rw [callGetToken, if_pos]
  exact ⟨rfl, fun needs => needs.2.1 index small empty⟩

/-- The body of the loop on the first line of a request. -/
theorem takeHeadline_holds {line : List Byte} (holds : Holds [] locals) (size : buf.length = 512)
    (terminated : 0 ∈ buf) (text : cstr buf = cstr line) (short : line.length ≤ 511)
    (first : firstWord 0 (cstr line) ≠ []) :
    ∃ after, { locals with buf }.takeHeadline checked = some after ∧ Holds [line] after := by
  have fits : (cstr line).length < 1024 := by
    have part := (List.takeWhile_prefix (fun byte : Byte => byte != 0) (l := line)).length_le
    rw [cstr]
    omega
  let headline := overwrite locals.headline 0 (cstr buf ++ [0])
  have length : headline.length = 1024 := by
    rw [length_overwrite, holds.headline.1]
    rw [holds.headline.1, List.length_append, List.length_singleton, text]
    omega
  have inside : 0 ∈ headline := zero_mem_overwrite ..
  have same : cstr headline = cstr line := by
    rw [cstr_overwrite, text, cstr_eq_self (zero_not_mem_cstr line)]
  have copied : strcpy locals.headline buf = some headline := by
    rw [strcpy, if_pos ⟨terminated, by rw [text, holds.headline.1]; exact fits⟩]
  have after : ∀ method : List Byte, method.length = 255 →
      ((firstWord 0 (cstr line)).length < 255 →
        0 ∈ method ∧ cstr method = firstWord 0 (cstr line)) →
      (255 ≤ (firstWord 0 (cstr line)).length → 0 ∉ method) →
      Holds [line] { locals with buf, headline, method, isFirst := false } := by
    intro method methodSize fitting overlong
    exact {
      reading := holds.reading
      start := holds.start
      buf := size
      isFirst := rfl
      headline := ⟨length, inside, same⟩
      method := ⟨methodSize, fitting, overlong⟩
      requestHeader := holds.requestHeader
      hTitle := holds.hTitle
      hValue := holds.hValue
      uri := holds.uri
      retval := holds.retval }
  simp only [Locals.takeHeadline, copied, Option.bind_some]
  rw [← same] at first
  by_cases large : 255 ≤ (firstWord 0 (cstr line)).length
  · obtain ⟨method, called, methodSize, unterminated⟩ :=
      @callGetToken_first_unterminated checked headline locals.method 0 inside first
        (by rw [holds.method.1]; decide) (by rwa [holds.method.1, same])
    rw [holds.method.1] at called methodSize
    refine ⟨_, by rw [called, Option.bind_some], after method methodSize ?_ fun _ => unterminated⟩
    intro fitting
    omega
  · obtain ⟨method, called, methodSize, inMethod, isWord⟩ :=
      @callGetToken_first checked headline locals.method 0 255 inside first
        (by rw [holds.method.1]) (by rw [same]; exact Nat.lt_of_not_le large)
    rw [holds.method.1] at methodSize
    rw [same] at isWord
    refine ⟨_, by rw [called, Option.bind_some], after method methodSize ?_ ?_⟩
    · exact fun _ => ⟨inMethod, isWord⟩
    · exact fun overlong => absurd overlong large

theorem strcmpEq_of_mem {memory : List Byte} (terminated : 0 ∈ memory) (text : String) :
    strcmpEq memory text = some (cstr memory == ascii text) := by
  rw [strcmpEq, if_pos terminated]

/-- The `Connection` header sets `retval`. -/
theorem takeConnection_eq {line : List Byte} (size : locals.hValue.length = 128)
    (terminated : 0 ∈ locals.buf) (text : cstr locals.buf = cstr line)
    (connection : firstWord 58 (cstr line) = ascii "Connection")
    (fits : ∀ index ≤ 1, word 32 (cstr line) index ≠ [] ∧
      (word 32 (cstr line) index).length < 128) :
    ∃ hValue, hValue.length = 128 ∧ locals.takeConnection checked =
      some { locals with hValue, retval := retvalAfter locals.retval line } := by
  obtain ⟨hValue, called, valueSize, inValue, isWord⟩ :=
    @callGetToken_words checked locals.buf locals.hValue 32 128 1 terminated
      (by rw [text]; exact fun index small => (fits index small).1) (by rw [size])
      (by rw [text]; exact fun index small => (fits index small).2)
  refine ⟨hValue, valueSize.trans size, ?_⟩
  rw [Locals.takeConnection, called, Option.bind_some, strcmpEq_of_mem inValue, Option.bind_some,
    isWord, text, retvalAfter, if_pos connection]
  simp only [beq_iff_eq]

/-- `strcat` puts a string that fits behind another one. -/
theorem strcat_fits {dest src : List Byte} (inDest : 0 ∈ dest) (inSrc : 0 ∈ src)
    (room : (cstr dest).length + (cstr src).length < dest.length) :
    ∃ after, strcat dest src = some after ∧ after.length = dest.length ∧ 0 ∈ after ∧
      cstr after = cstr dest ++ cstr src := by
  refine ⟨_, by rw [strcat, if_pos ⟨inDest, inSrc, room⟩], ?_, zero_mem_overwrite .., ?_⟩
  · apply length_overwrite
    rw [List.length_append, List.length_singleton]
    omega
  · rw [cstr_overwrite_append, cstr_eq_self (zero_not_mem_cstr src)]

/-- The body of the loop on a header line. -/
theorem takeHeader_holds {lines : List (List Byte)} {line : List Byte} (holds : Holds lines locals)
    (started : lines ≠ []) (size : buf.length = 512) (terminated : 0 ∈ buf)
    (text : cstr buf = cstr line) (fits : HeaderFits line)
    (total : (lines.tail.map cstr).flatten.length + (cstr line).length < bufferSize) :
    ∃ after, { locals with buf }.takeHeader checked = some after ∧
      Holds (lines ++ [line]) after := by
  obtain ⟨first, more, rfl⟩ := List.exists_cons_of_ne_nil started
  obtain ⟨headerSize, inHeader, isHeader⟩ := holds.requestHeader
  rw [List.tail_cons] at total isHeader
  obtain ⟨requestHeader, copied, length, inHeader', same⟩ :=
    @strcat_fits locals.requestHeader buf inHeader terminated
      (by rw [isHeader, text, headerSize]; exact total)
  rw [headerSize] at length
  rw [isHeader, text] at same
  have after : ∀ (hTitle hValue : List Byte), hTitle.length = 32 → hValue.length = 128 →
      Holds (first :: more ++ [line]) { locals with
        buf, requestHeader, hTitle, hValue, retval := retvalAfter locals.retval line } := by
    intro hTitle hValue titleSize valueSize
    exact {
      reading := holds.reading
      start := holds.start
      buf := size
      isFirst := holds.isFirst
      headline := holds.headline
      method := holds.method
      requestHeader := by
        refine ⟨length, inHeader', ?_⟩
        rw [same, List.cons_append, List.tail_cons, List.map_append, List.flatten_append,
          List.map_singleton, List.flatten_singleton]
      hTitle := titleSize
      hValue := valueSize
      uri := holds.uri
      retval := by
        rw [List.cons_append, List.tail_cons, List.foldl_append, holds.retval, List.tail_cons]
        rfl }
  obtain ⟨hTitle, called, titleSize, inTitle, isWord⟩ :=
    @callGetToken_first checked buf locals.hTitle 58 32 terminated (by rw [text]; exact fits.1)
      (by rw [holds.hTitle]) (by rw [text]; exact fits.2.1)
  rw [holds.hTitle] at titleSize
  rw [text] at isWord
  simp only [Locals.takeHeader, copied, called, Option.bind_some, strcmpEq_of_mem inTitle, isWord,
    beq_iff_eq]
  by_cases connection : firstWord 58 (cstr line) = ascii "Connection"
  · obtain ⟨hValue, valueSize, set⟩ := @takeConnection_eq checked
      { locals with buf, requestHeader, hTitle } line holds.hValue terminated text connection
      (fits.2.2 connection)
    refine ⟨_, ?_, after hTitle hValue titleSize valueSize⟩
    rw [if_pos connection, set]
  · refine ⟨_, ?_, after hTitle locals.hValue titleSize holds.hValue⟩
    rw [if_neg connection, retvalAfter, if_neg connection]

theorem strcmpEq_of_not_mem {memory : List Byte} (unterminated : 0 ∉ memory) (text : String) :
    strcmpEq memory text = none := by
  rw [strcmpEq, if_neg unterminated]

/-- A `Connection` header whose first two words are not there, or do not fit, ends in
a violation. -/
theorem takeConnection_none {line : List Byte} (size : locals.hValue.length = 128)
    (terminated : 0 ∈ locals.buf) (text : cstr locals.buf = cstr line)
    (unfit : ¬ ∀ index ≤ 1, word 32 (cstr line) index ≠ [] ∧
      (word 32 (cstr line) index).length < 128) :
    locals.takeConnection true = none := by
  rw [← text] at unfit
  by_cases words : ∀ index ≤ 1, word 32 (cstr locals.buf) index ≠ []
  · obtain ⟨index, unfit⟩ := not_forall.mp unfit
    obtain ⟨small, large⟩ := Classical.not_imp.mp unfit
    have overlong := Nat.le_of_not_lt fun fits => large ⟨words index small, fits⟩
    obtain ⟨hValue, called, _, unterminated⟩ :=
      @callGetToken_unterminated true locals.buf locals.hValue 32 1 terminated words
        (by rw [size]; decide) ⟨index, small, by rwa [size]⟩
    rw [size] at called
    rw [Locals.takeConnection, called, Option.bind_some, strcmpEq_of_not_mem unterminated,
      Option.bind_none]
  · obtain ⟨index, wordless⟩ := not_forall.mp words
    obtain ⟨small, empty⟩ := Classical.not_imp.mp wordless
    rw [Locals.takeConnection,
      callGetToken_none ⟨index, Nat.lt_succ_of_le small, not_not.mp empty⟩, Option.bind_none]

/-- A line without a title, or with one that does not fit, ends in a violation. -/
theorem takeHeader_none {line : List Byte} (titleSize : locals.hTitle.length = 32)
    (valueSize : locals.hValue.length = 128) (terminated : 0 ∈ locals.buf)
    (text : cstr locals.buf = cstr line) (unfit : ¬ HeaderFits line) :
    locals.takeHeader true = none := by
  rw [Locals.takeHeader, Option.bind_eq_none_iff]
  intro requestHeader _
  by_cases titled : firstWord 58 (cstr line) = []
  · rw [callGetToken_none ⟨0, Nat.zero_lt_one, by rw [text]; exact titled⟩, Option.bind_none]
  rw [← text] at titled
  by_cases large : 32 ≤ (firstWord 58 (cstr locals.buf)).length
  · obtain ⟨hTitle, called, _, unterminated⟩ :=
      @callGetToken_first_unterminated true locals.buf locals.hTitle 58 terminated titled
        (by rw [titleSize]; decide) (by rwa [titleSize])
    rw [titleSize] at called
    rw [called, Option.bind_some, strcmpEq_of_not_mem unterminated, Option.bind_none]
  · obtain ⟨hTitle, called, _, inTitle, isWord⟩ :=
      @callGetToken_first true locals.buf locals.hTitle 58 32 terminated titled
        (by rw [titleSize]) (Nat.lt_of_not_le large)
    rw [text] at titled large isWord
    rw [called, Option.bind_some, strcmpEq_of_mem inTitle, Option.bind_some, isWord]
    have unfit' : firstWord 58 (cstr line) = ascii "Connection" ∧ ¬ ∀ index ≤ 1,
        word 32 (cstr line) index ≠ [] ∧ (word 32 (cstr line) index).length < 128 :=
      Classical.not_imp.mp fun fits => unfit ⟨titled, Nat.lt_of_not_le large, fits⟩
    rw [if_pos (beq_iff_eq.mpr unfit'.1)]
    exact takeConnection_none valueSize terminated text unfit'.2

/-- What `fgets` leaves in `buf` is the line with its NUL. -/
theorem Holds.filled {lines : List (List Byte)} (holds : Holds lines locals) {line : List Byte}
    (short : line.length ≤ 511) :
    (overwrite locals.buf 0 (line ++ [0])).length = 512 ∧
      0 ∈ overwrite locals.buf 0 (line ++ [0]) ∧
      cstr (overwrite locals.buf 0 (line ++ [0])) = cstr line := by
  refine ⟨?_, zero_mem_overwrite .., cstr_overwrite ..⟩
  rw [length_overwrite, holds.buf]
  rw [holds.buf, List.length_append, List.length_singleton]
  omega

variable {lines : List (List Byte)} {text : List Byte}

/-- The body of the loop takes a line that is admitted after the others. -/
theorem Holds.takeLine (holds : Holds lines locals) (clean : 10 ∉ text) (other : text ≠ [13])
    (admitted : Admitted (lines ++ [text ++ [10]])) :
    ∃ after, { locals with
        buf := overwrite locals.buf 0 (text ++ [10] ++ [0]) }.takeLine checked = some after ∧
      Holds (lines ++ [text ++ [10]]) after := by
  have short := admitted.short (text ++ [10]) (List.mem_append_right _ List.mem_cons_self)
  obtain ⟨size, terminated, same⟩ := holds.filled short
  rw [Locals.takeLine, if_neg fun blank => other ((blank_iff clean _).mp blank)]
  cases lines with
  | nil =>
      have now : locals.isFirst = true := holds.isFirst
      rw [if_pos now]
      exact takeHeadline_holds holds size terminated same short (admitted.first _ rfl)
  | cons first lines =>
      have later : locals.isFirst = false := holds.isFirst
      rw [if_neg (Bool.not_eq_true _ ▸ later)]
      have last : text ++ [10] ∈ (first :: lines ++ [text ++ [10]]).tail :=
        List.mem_append_right _ List.mem_cons_self
      have total := admitted.total
      rw [List.cons_append, List.tail_cons, List.map_append, List.flatten_append,
        List.map_singleton, List.flatten_singleton, List.length_append] at total
      exact takeHeader_holds holds (List.cons_ne_nil _ _) size terminated same
        (admitted.headers _ last) total

theorem admitted_singleton {line : List Byte} (short : line.length ≤ 511)
    (first : firstWord 0 (cstr line) ≠ []) : Admitted [line] where
  short := by
    intro other member
    rwa [List.mem_singleton.mp member]
  first := by
    rintro _ ⟨⟩
    exact first
  headers := by
    intro other member
    cases member
  total := by
    change 0 < bufferSize
    decide

theorem Admitted.concat {first line : List Byte} (before : Admitted (first :: lines))
    (short : line.length ≤ 511) (fits : HeaderFits line)
    (total : (lines.map cstr).flatten.length + (cstr line).length < bufferSize) :
    Admitted (first :: lines ++ [line]) where
  short := by
    intro other member
    rcases List.mem_append.mp member with old | new
    · exact before.short other old
    · rwa [List.mem_singleton.mp new]
  first := before.first
  headers := by
    intro other member
    rcases List.mem_append.mp member with old | new
    · exact before.headers other old
    · rwa [List.mem_singleton.mp new]
  total := by
    rw [List.cons_append, List.tail_cons, List.map_append, List.flatten_append,
      List.map_singleton, List.flatten_singleton, List.length_append]
    exact total

theorem admitted_nil : Admitted [] where
  short := by intro line member; cases member
  first := by intro line member; cases member
  headers := by intro line member; cases member
  total := by
    change 0 < bufferSize
    decide

/-- Lines that are admitted are admitted without the last ones. -/
theorem Admitted.of_append {more : List (List Byte)} (admitted : Admitted (lines ++ more)) :
    Admitted lines := by
  cases lines with
  | nil => exact admitted_nil
  | cons first lines =>
      exact {
        short := fun line member => admitted.short line (List.mem_append_left _ member)
        first := admitted.first
        headers := fun line member => admitted.headers line (List.mem_append_left _ member)
        total := by
          have total := admitted.total
          rw [List.cons_append, List.tail_cons, List.map_append, List.flatten_append,
            List.length_append] at total
          rw [List.tail_cons]
          omega }

/-- A line that is not admitted after the others ends in a violation. -/
theorem Holds.takeLine_none (holds : Holds lines locals) (clean : 10 ∉ text)
    (other : text ≠ [13]) (before : Admitted lines) (short : (text ++ [10]).length ≤ 511)
    (unfit : ¬ Admitted (lines ++ [text ++ [10]])) :
    { locals with
      buf := overwrite locals.buf 0 (text ++ [10] ++ [0]) }.takeLine true = none := by
  obtain ⟨size, terminated, same⟩ := holds.filled short
  rw [Locals.takeLine, if_neg fun blank => other ((blank_iff clean _).mp blank)]
  cases lines with
  | nil =>
      have now : locals.isFirst = true := holds.isFirst
      have empty : firstWord 0 (cstr (text ++ [10])) = [] := by
        by_contra first
        exact unfit (admitted_singleton short first)
      rw [if_pos now, Locals.takeHeadline, Option.bind_eq_none_iff]
      intro headline copied
      rw [strcpy, Option.ite_none_right_eq_some] at copied
      obtain ⟨_, copied⟩ := copied
      cases copied
      rw [callGetToken_none ⟨0, Nat.zero_lt_one, ?_⟩, Option.bind_none]
      rw [cstr_overwrite, same, cstr_eq_self (zero_not_mem_cstr _)]
      exact empty
  | cons first lines =>
      have later : locals.isFirst = false := holds.isFirst
      rw [if_neg (Bool.not_eq_true _ ▸ later)]
      by_cases fits : HeaderFits (text ++ [10])
      · rw [Locals.takeHeader, strcat, if_neg, Option.bind_none]
        rintro ⟨_, _, total⟩
        apply unfit
        apply before.concat short fits
        simpa only [holds.requestHeader.2.2, same, holds.requestHeader.1, List.tail_cons] using
          total
      · exact takeHeader_none holds.hTitle holds.hValue terminated same fits

end LinuxUnix.HttpServer

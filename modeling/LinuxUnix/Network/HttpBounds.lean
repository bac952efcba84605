import LinuxUnix.Foundation.Tokens
import LinuxUnix.Network.HttpHeader

/-! # When `httpd` stays inside its arrays

`httpd` is safe on exactly those streams that reach an empty line, or pause before
it, with lines that are admitted, and whose method is not `GET`
(`LinuxUnix.HttpServer.staysInside_iff_harmless`): for `GET` it tells `GetToken` that
`uri` has twice the bytes that it has.
-/

namespace LinuxUnix.HttpServer

open CMemory CrlfLines

/-- `httpd` reads and writes its arrays only, dereferences no null pointer, hands only
strings to `strcmp`, `strcat` and `strcpy`, and gives `GetToken` what it needs. -/
def StaysInside (world : World) (socket : Socket) (stream : List Byte) (ending : Ending) : Prop :=
  httpd true world socket stream ending ≠ .undefined

/-- The lines of a stream before the first empty one. -/
def requestLines (stream : List Byte) : List (List Byte) :=
  (splitLines stream).1.takeWhile (· != crlf)

/-- A stream that does no harm after some lines of the same request. -/
structure HarmlessAfter (lines : List (List Byte)) (stream : List Byte) (ending : Ending) :
    Prop where
  admitted : Admitted (lines ++ requestLines stream)
  ends : crlf ∈ (splitLines stream).1 ∨
    ending = .paused ∧ (splitLines stream).2.length ≤ 512
  method : crlf ∈ (splitLines stream).1 →
    firstWord 0 (headText (lines ++ requestLines stream)) ∉ [ascii "GET", ascii "get"] ∧
      (firstWord 0 (headText (lines ++ requestLines stream))).length < 255

/-- A stream on which `httpd` does no harm. Its lines before the empty line have at
most 511 bytes, the first of them has a word, the others have titles that fit, and
all of them fit `request_header`. There is an empty line, or the client pauses in a
line of at most 512 bytes. If there is an empty line, the first word is shorter than
255 bytes and neither `GET` nor `get`. -/
def Harmless (stream : List Byte) (ending : Ending) : Prop :=
  HarmlessAfter [] stream ending

instance : ∀ outcome : Outcome, Decidable (outcome = .undefined)
  | .undefined => isTrue rfl
  | .waiting => isFalse (by intro same; cases same)
  | .returned _ _ => isFalse (by intro same; cases same)

instance (world : World) (socket : Socket) (stream : List Byte) (ending : Ending) :
    Decidable (StaysInside world socket stream ending) :=
  inferInstanceAs (Decidable (¬ _ = _))

variable {locals : Locals} {lines : List (List Byte)} {text rest : List Byte} {world : World}
  {socket : Socket} {ending : Ending}

/-- A line that does not fit `buf` with its NUL runs past it. -/
theorem takeBytes_line_large {checked : Bool} (clean : 10 ∉ text) (reading : locals.ended = false)
    (size : locals.buf.length = 512) (start : locals.count = 0) (large : 510 < text.length) :
    locals.takeBytes checked (text ++ 10 :: rest) = none := by
  by_cases stored : text.length ≤ 512
  · have length : (overwrite locals.buf locals.count text).length = 512 := by
      rw [length_overwrite (by omega), size]
    rw [takeBytes_text clean reading size (by omega), takeBytes_cons, takeByte_newline_large]
    · rfl
    · exact reading
    · exact length
    · simp only
      omega
  · exact takeBytes_large clean reading size start (by omega)

/-- Once the header loop has ended, `httpd` answers. -/
theorem finish_ended {checked : Bool} (ended : locals.ended = true) :
    locals.finish checked world socket ending =
      .ofAnswer (locals.respond checked world socket) := by
  cases ending with
  | closed => simp only [Locals.finish, Locals.takeEnd, ended, ↓reduceIte]
  | paused => simp only [Locals.finish, ended, ↓reduceIte]

/-- The answer does what is needed exactly if the method is a string other than `GET`. -/
theorem respond_ne_none_iff (holds : Holds lines locals) :
    locals.respond true world socket ≠ none ↔
      firstWord 0 (headText lines) ∉ [ascii "GET", ascii "get"] ∧
        (firstWord 0 (headText lines)).length < 255 := by
  have refuses : locals.get true world socket = none := by
    have small : ¬ Needs locals.headline 2 locals.uri 1024 0 := by
      rintro ⟨_, _, room⟩
      rw [holds.uri, List.length_replicate] at room
      exact absurd room (by decide)
    rw [Locals.get, callGetToken, if_pos ⟨rfl, small⟩, Option.bind_none]
  by_cases large : 255 ≤ (firstWord 0 (headText lines)).length
  · rw [Locals.respond, strcmpEq_of_not_mem (holds.method.2.2 large), Option.bind_none]
    simp only [ne_eq, not_true_eq_false, false_iff, not_and]
    intro _ short
    omega
  · have short := Nat.lt_of_not_le large
    obtain ⟨terminated, isWord⟩ := holds.method.2.1 short
    rw [Locals.respond, strcmpEq_of_mem terminated, Option.bind_some, strcmpEq_of_mem terminated,
      isWord, refuses]
    by_cases upper : firstWord 0 (headText lines) = ascii "GET"
    · simp [upper]
    · by_cases lower : firstWord 0 (headText lines) = ascii "get"
      · simp [lower]
      · simp [upper, lower, short]

/-- Only an empty line ends the header loop. -/
theorem ended_takeLine {checked : Bool} {after : Locals} (reading : locals.ended = false)
    (full : ¬ (locals.buf[0]? = some 13 ∧ locals.buf[1]? = some 10))
    (taken : locals.takeLine checked = some after) : after.ended = false := by
  rw [Locals.takeLine, if_neg full] at taken
  split at taken
  · simp only [Locals.takeHeadline, Option.bind_eq_some_iff] at taken
    obtain ⟨headline, _, method, _, same⟩ := taken
    cases same
    exact reading
  · simp only [Locals.takeHeader, Option.bind_eq_some_iff] at taken
    obtain ⟨requestHeader, _, hTitle, _, connection, _, taken⟩ := taken
    split at taken
    · simp only [Locals.takeConnection, Option.bind_eq_some_iff] at taken
      obtain ⟨hValue, _, keepAlive, _, same⟩ := taken
      cases same
      exact reading
    · cases taken
      exact reading

/-- A line without a newline is not the empty one. -/
theorem not_blank_of_unfinished (clean : 10 ∉ text) (memory : List Byte) :
    ¬ ((overwrite memory 0 (text ++ [0]))[0]? = some 13 ∧
      (overwrite memory 0 (text ++ [0]))[1]? = some 10) := by
  rw [overwrite, List.take_zero, List.nil_append]
  cases text with
  | nil => simp
  | cons first text =>
      cases text with
      | nil => simp
      | cons second text =>
          have other : second ≠ 10 := by
            rintro rfl
            exact clean (List.mem_cons_of_mem _ List.mem_cons_self)
          simp [other]

/-- A stream that ends before the empty line leads to the null pointer. -/
theorem takeEnd_eq_none {checked : Bool} (reading : locals.ended = false)
    (size : locals.buf.length = 512) (clean : 10 ∉ text) (short : text.length ≤ 512) :
    { locals with
      buf := overwrite locals.buf 0 text
      count := text.length }.takeEnd checked = none := by
  have length : (overwrite locals.buf 0 text).length = 512 := by
    rw [length_overwrite (by omega), size]
  rw [Locals.takeEnd, if_neg (Bool.not_eq_true _ ▸ reading)]
  split
  · rfl
  · rw [Option.bind_eq_none_iff]
    intro after returned
    rw [if_neg]
    rw [Locals.endLine, Option.bind_eq_some_iff] at returned
    obtain ⟨buf, terminated, taken⟩ := returned
    rw [Bool.not_eq_true]
    refine ended_takeLine ?_ ?_ taken
    · exact reading
    · rw [store, Option.ite_none_right_eq_some] at terminated
      obtain ⟨room, same⟩ := terminated
      cases same
      have stored : (overwrite locals.buf 0 text).set text.length 0 =
          overwrite locals.buf 0 (text ++ [0]) := by
        rw [set_eq_overwrite room, ← overwrite_append (Nat.zero_le _), Nat.zero_add]
      simp only [stored]
      exact not_blank_of_unfinished clean locals.buf

/-- `httpd` goes on with the bytes of a stream. -/
def goesOn (world : World) (socket : Socket) (ending : Ending) (locals : Locals)
    (stream : List Byte) : Outcome :=
  match locals.takeBytes true stream with
  | none => .undefined
  | some after => after.finish true world socket ending

/-- An unfinished line does no harm exactly if the client pauses and the line fits
`buf`. -/
theorem unfinished_iff {tail : List Byte} (holds : Holds lines locals) (clean : 10 ∉ tail) :
    goesOn world socket ending locals tail ≠ .undefined ↔
      ending = .paused ∧ tail.length ≤ 512 := by
  rw [goesOn]
  by_cases short : tail.length ≤ 512
  · have read : locals.takeBytes true tail = some { locals with
        buf := overwrite locals.buf 0 tail, count := tail.length } := by
      have all := @takeBytes_text true tail locals [] clean holds.reading holds.buf
        (by rw [holds.start]; omega)
      rw [List.append_nil, holds.start, Nat.zero_add] at all
      exact all
    rw [read]
    cases ending with
    | closed =>
        simp only [Locals.finish, takeEnd_eq_none holds.reading holds.buf clean short, ne_eq,
          not_true_eq_false, reduceCtorEq, false_and]
    | paused =>
        simp only [Locals.finish, holds.reading, Bool.false_eq_true, ↓reduceIte, ne_eq,
          reduceCtorEq, not_false_eq_true, short, and_self]
  · have overrun := @takeBytes_large true locals tail [] clean holds.reading holds.buf
      holds.start (Nat.lt_of_not_le short)
    rw [List.append_nil] at overrun
    simp only [overrun, ne_eq, not_true_eq_false, short, and_false]

/-- The empty line does no harm exactly if the answer does none. -/
theorem blank_harmless_iff (holds : Holds lines locals) (admitted : Admitted lines) :
    goesOn world socket ending locals (13 :: 10 :: rest) ≠ .undefined ↔
      HarmlessAfter lines (13 :: 10 :: rest) ending := by
  have clean : (10 : Byte) ∉ [13] := by decide
  have split : splitLines (13 :: 10 :: rest) =
      (crlf :: (splitLines rest).1, (splitLines rest).2) := splitLines_append clean rest
  have head : requestLines (13 :: 10 :: rest) = [] := by
    rw [requestLines, split, List.takeWhile_cons_of_neg (by decide)]
  have read : locals.takeBytes true (13 :: 10 :: rest) = some { locals with
      buf := overwrite locals.buf 0 ([13] ++ [10] ++ [0]), ended := true } := by
    have line := @takeBytes_line true locals [13] clean holds.reading holds.buf holds.start
      (by decide) rest
    rw [Locals.takeLine, if_pos ((blank_iff clean _).mpr rfl), Option.bind_some] at line
    exact line.trans (takeBytes_ended rfl rest)
  have answers : goesOn world socket ending locals (13 :: 10 :: rest) ≠ .undefined ↔
      locals.respond true world socket ≠ none := by
    rw [goesOn, read]
    simp only [finish_ended]
    change Outcome.ofAnswer (locals.respond true world socket) ≠ .undefined ↔ _
    cases locals.respond true world socket with
    | none => simp only [Outcome.ofAnswer, ne_eq, not_true_eq_false]
    | some answer => simp only [Outcome.ofAnswer, ne_eq, reduceCtorEq, not_false_eq_true]
  rw [answers, respond_ne_none_iff holds]
  constructor
  · intro method
    exact {
      admitted := by rwa [head, List.append_nil]
      ends := .inl (by rw [split]; exact List.mem_cons_self)
      method := fun _ => by rwa [head, List.append_nil] }
  · intro harmless
    have method := harmless.method (by rw [split]; exact List.mem_cons_self)
    rwa [head, List.append_nil] at method

/-- A line that is not empty is one line more of the same request. -/
theorem harmlessAfter_append_iff (clean : 10 ∉ text) (other : text ≠ [13]) :
    HarmlessAfter lines (text ++ 10 :: rest) ending ↔
      HarmlessAfter (lines ++ [text ++ [10]]) rest ending := by
  have different : (text ++ [10] != crlf) = true := by
    rw [bne_iff_ne]
    intro same
    exact other (List.append_cancel_right (same : text ++ [10] = [13] ++ [10]))
  have split := splitLines_append clean rest
  have head : requestLines (text ++ 10 :: rest) = (text ++ [10]) :: requestLines rest := by
    rw [requestLines, split]
    exact List.takeWhile_cons_of_pos different
  have member : crlf ∈ (splitLines (text ++ 10 :: rest)).1 ↔ crlf ∈ (splitLines rest).1 := by
    rw [split, List.mem_cons]
    exact or_iff_right fun same => bne_iff_ne.mp different same.symm
  have tail : (splitLines (text ++ 10 :: rest)).2 = (splitLines rest).2 := by rw [split]
  have joined : lines ++ requestLines (text ++ 10 :: rest) =
      lines ++ [text ++ [10]] ++ requestLines rest := by
    rw [head, List.append_assoc, List.singleton_append]
  constructor
  · rintro ⟨admitted, ends, method⟩
    rw [joined] at admitted method
    rw [member] at ends method
    rw [tail] at ends
    exact ⟨admitted, ends, method⟩
  · rintro ⟨admitted, ends, method⟩
    rw [← joined] at admitted method
    rw [← member] at ends method
    rw [← tail] at ends
    exact ⟨admitted, ends, method⟩

/-- After some lines `httpd` does no harm on exactly the harmless streams. -/
theorem goesOn_iff (stream : List Byte) : ∀ {lines : List (List Byte)} {locals : Locals},
    Holds lines locals → Admitted lines →
      (goesOn world socket ending locals stream ≠ .undefined ↔
        HarmlessAfter lines stream ending) := by
  induction stream using Tokens.separator_induction (10 : Byte) with
  | last tail clean =>
      intro lines locals holds admitted
      have split := splitLines_open clean
      have head : requestLines tail = [] := by rw [requestLines, split, List.takeWhile_nil]
      rw [unfinished_iff holds clean]
      constructor
      · intro paused
        exact {
          admitted := by rwa [head, List.append_nil]
          ends := .inr (by rwa [split])
          method := by
            rw [split]
            intro member
            cases member }
      · intro harmless
        rcases harmless.ends with member | paused
        · rw [split] at member
          cases member
        · rwa [split] at paused
  | next text rest clean ih =>
      intro lines locals holds admitted
      by_cases blank : text = [13]
      · subst blank
        exact blank_harmless_iff holds admitted
      rw [harmlessAfter_append_iff clean blank]
      by_cases fits : Admitted (lines ++ [text ++ [10]])
      · have short := fits.short (text ++ [10]) (List.mem_append_right _ List.mem_cons_self)
        rw [List.length_append, List.length_singleton] at short
        obtain ⟨after, taken, held⟩ := @Holds.takeLine true locals lines text holds clean blank fits
        have read := @takeBytes_line true locals text clean holds.reading holds.buf holds.start
          (Nat.le_of_succ_le_succ short) rest
        rw [taken, Option.bind_some] at read
        rw [goesOn, read]
        exact ih held fits
      · have none_ : locals.takeBytes true (text ++ 10 :: rest) = none := by
          by_cases short : text.length ≤ 510
          · rw [takeBytes_line clean holds.reading holds.buf holds.start short rest,
              holds.takeLine_none clean blank admitted _ fits, Option.bind_none]
            rw [List.length_append, List.length_singleton]
            omega
          · exact takeBytes_line_large clean holds.reading holds.buf holds.start
              (Nat.lt_of_not_le short)
        rw [goesOn, none_]
        constructor
        · intro defined
          exact absurd rfl defined
        · intro harmless
          exact absurd harmless.admitted.of_append fits

/-- `httpd` stays inside its arrays on exactly the harmless streams. -/
theorem staysInside_iff_harmless (world : World) (socket : Socket) (stream : List Byte)
    (ending : Ending) : StaysInside world socket stream ending ↔ Harmless stream ending :=
  goesOn_iff stream holds_start admitted_nil

/-- A request for a file leads to a call of `GetToken` that does not get what it
needs. -/
theorem not_staysInside_of_get :
    ¬ ∀ world socket stream ending, StaysInside world socket stream ending := by
  intro inside
  have broken : ¬ StaysInside noFiles ⟨[], fun _ => 512⟩
      (ascii "GET /index.html HTTP/1.1\r\nHost: localhost\r\n\r\n") .paused := by
    decide +kernel
  exact broken (inside _ _ _ _)

end LinuxUnix.HttpServer

import LinuxUnix.Network.HttpServer

/-! # What a session sends

On a connection that is kept open the client sends one request after the other, each
after the answer to the one before. What `httpd` sends is never a sequence of
well-formed responses, one for each request, unless no request is sent at all
(`LinuxUnix.HttpServer.wellAnswered_iff`): requests with another method than `GET` are
not answered, and every answer has a header line without a colon
(`LinuxUnix.HttpServer.sent_of_session`).
-/

namespace LinuxUnix.HttpServer

open CMemory CrlfLines

/-- The part of a message that a line can hold. -/
def Clean (text : List Byte) : Prop :=
  13 ∉ text ∧ 10 ∉ text

/-- `HTTP/1.1 code phrase` -/
def statusLine (code phrase : List Byte) : List Byte :=
  ascii "HTTP/1.1 " ++ code ++ ascii " " ++ phrase

/-- `name: value` -/
def headerLine (header : List Byte × List Byte) : List Byte :=
  header.1 ++ ascii ": " ++ header.2

/-- A status line, header lines, an empty line, and as many bytes as the
`Content-Length` header says. -/
def IsResponse (bytes : List Byte) : Prop :=
  ∃ (code phrase : List Byte) (headers : List (List Byte × List Byte)) (body : List Byte),
    Clean code ∧ Clean phrase ∧ (∀ header ∈ headers, Clean header.1 ∧ Clean header.2) ∧
      (ascii "Content-Length", decimal body.length) ∈ headers ∧
      bytes = block (statusLine code phrase :: headers.map headerLine) ++ body

/-- The bytes sent on a connection that serves one request after the other, each in
the world of its time. -/
def session : List (Request × World) → Socket → Option Socket
  | [], socket => some socket
  | (request, world) :: visits, socket =>
      match httpd false world socket request.bytes .paused with
      | .undefined => none
      | .waiting => some socket
      | .returned retval socket => if retval < 0 then some socket else session visits socket

/-- The bytes sent are one response for each request, in order. -/
def WellAnswered (visits : List (Request × World)) (accepts : ℕ → ℕ) : Prop :=
  ∃ (socket : Socket) (responses : List (List Byte)), session visits ⟨[], accepts⟩ = some socket ∧
    responses.length = visits.length ∧ (∀ response ∈ responses, IsResponse response) ∧
    socket.sent = responses.flatten

/-- The bytes start with a block that has a line without a colon. -/
def Spoiled (bytes : List Byte) : Prop :=
  ∃ lines rest, bytes = block lines ++ rest ∧ (∀ line ∈ lines, Line line) ∧
    ascii "Content-Type text/html" ∈ lines

variable {socket after : Socket} {world : World} {bytes : List Byte}

theorem Spoiled.append (spoiled : Spoiled bytes) (more : List Byte) : Spoiled (bytes ++ more) := by
  obtain ⟨lines, rest, rfl, proper, member⟩ := spoiled
  exact ⟨lines, rest ++ more, List.append_assoc .., proper, member⟩

/-- What is sent does not depend on how much the calls of `send` accept. -/
theorem sent_sendAll (socket : Socket) (buf : List Byte) :
    (socket.sendAll buf).sent = socket.sent ++ buf := by
  induction socket, buf using Socket.sendAll.induct with
  | case1 socket => rw [Socket.sendAll, dif_pos rfl, List.append_nil]
  | case2 socket buf unfinished ih =>
      rw [Socket.sendAll, dif_neg unfinished, ih, Socket.send, List.append_assoc,
        List.take_append_drop]

/-- A text that `SendBuf` sends as it is. -/
theorem sent_sendBuf (socket : Socket) {text : List Byte} (clean : 0 ∉ text) :
    (sendBuf socket text).sent = socket.sent ++ text := by
  rw [sendBuf, sent_sendAll, cstr_eq_self clean]

/-- Texts that hold neither a NUL nor a CR. -/
def Plain (text : List Byte) : Prop :=
  ∀ byte ∈ text, byte ≠ 0 ∧ byte ≠ 13

theorem Plain.append {first second : List Byte} (left : Plain first) (right : Plain second) :
    Plain (first ++ second) := by
  intro byte member
  rcases List.mem_append.mp member with member | member
  · exact left byte member
  · exact right byte member

/-- `SendBuf` sends such a text with its CR and newline as it is. -/
theorem Plain.clean {text : List Byte} (plain : Plain text) : 0 ∉ text ++ crlf := by
  rw [List.mem_append, not_or]
  exact ⟨fun member => (plain 0 member).1 rfl, by decide +kernel⟩

instance (text : List Byte) : Decidable (Plain text) :=
  inferInstanceAs (Decidable (∀ _ ∈ _, _))

/-- A digit is a byte from 48 on. -/
theorem toUInt8_of_isDigit {digit : Char} (isDigit : digit.isDigit = true) :
    48 ≤ digit.toUInt8.toNat := by
  simp only [Char.isDigit, Bool.and_eq_true, decide_eq_true_eq, ge_iff_le,
    UInt32.le_iff_toNat_le] at isDigit
  have low : 48 ≤ digit.val.toNat := isDigit.1
  have high : digit.val.toNat ≤ 57 := isDigit.2
  rw [Char.toUInt8, UInt32.toNat_toUInt8, Nat.mod_eq_of_lt (by omega)]
  exact low

theorem plain_digits (number : ℕ) : Plain ((Nat.toDigits 10 number).map Char.toUInt8) := by
  intro byte member
  obtain ⟨digit, digitMember, rfl⟩ := List.mem_map.mp member
  have large := toUInt8_of_isDigit
    (Nat.isDigit_of_mem_toDigits (by decide) (by decide) digitMember)
  constructor
  · intro zero
    rw [zero] at large
    exact absurd large (by decide)
  · intro cr
    rw [cr] at large
    exact absurd large (by decide)

theorem plain_decimal (number : ℤ) : Plain (decimal number) := by
  unfold decimal
  split
  · exact Plain.append (by decide +kernel) (plain_digits _)
  · exact Plain.append (by decide +kernel) (plain_digits _)

theorem plain_date (date : DateText) : Plain date.text := by
  intro byte member
  exact ⟨fun zero => date.clean.1 (zero ▸ member), fun cr => date.clean.2.1 (cr ▸ member)⟩

theorem line_of_plain {text : List Byte} (plain : Plain text) (nonempty : text ≠ []) : Line text :=
  ⟨nonempty, fun member => (plain 13 member).2 rfl⟩

/-- The lines of an answer's header hold neither a NUL nor a CR, and none is empty. -/
theorem plain_headerTexts {code : ℤ} {phase : String} {length : ℤ} {pftime : Option DateText}
    (plain : Plain (ascii phase)) :
    ∀ text ∈ headerTexts world code phase length pftime, Plain text ∧ text ≠ [] := by
  intro text member
  have literal : ∀ (start : String) {more : List Byte}, Plain (ascii start) →
      ascii start ≠ [] → Plain more →
      Plain (ascii start ++ more) ∧ ascii start ++ more ≠ [] := by
    intro start more plain nonempty plainToo
    exact ⟨plain.append plainToo, fun empty => nonempty (List.append_eq_nil_iff.mp empty).1⟩
  simp only [headerTexts, List.mem_append, List.mem_cons, List.not_mem_nil, or_false,
    Option.mem_toList, Option.map_eq_some_iff] at member
  rcases member with ((rfl | rfl | rfl) | ⟨time, _, rfl⟩) | rfl | rfl | rfl | rfl
  · rw [List.append_assoc, List.append_assoc]
    exact literal "HTTP/1.1 " (by decide +kernel) (by decide +kernel)
      ((plain_decimal code).append (Plain.append (by decide +kernel) plain))
  · exact literal "Date: " (by decide +kernel) (by decide +kernel) (plain_date _)
  · decide +kernel
  · exact literal "Last-Modified: " (by decide +kernel) (by decide +kernel) (plain_date _)
  · decide +kernel
  · exact literal "Content-Length: " (by decide +kernel) (by decide +kernel) (plain_decimal _)
  · decide +kernel
  · decide +kernel

/-- The header of an answer is a block of lines. -/
theorem sent_sendHTTPHeader {code : ℤ} {phase : String} {length : ℤ} {pftime : Option DateText}
    (plain : Plain (ascii phase)) :
    (sendHTTPHeader socket world code phase length pftime).sent =
      socket.sent ++ block (headerTexts world code phase length pftime) := by
  have each : ∀ (texts : List (List Byte)) (socket : Socket), (∀ text ∈ texts, Plain text) →
      (texts.foldl (fun socket text => sendBuf socket (text ++ crlf)) socket).sent =
        socket.sent ++ (texts.map (· ++ crlf)).flatten := by
    intro texts
    induction texts with
    | nil => intro socket _; exact (List.append_nil _).symm
    | cons text texts ih =>
        intro socket plain
        have clean := (plain text List.mem_cons_self).clean
        rw [List.foldl_cons, ih _ fun text member => plain text (List.mem_cons_of_mem _ member),
          sent_sendBuf socket clean, List.map_cons, List.flatten_cons, List.append_assoc]
  rw [sendHTTPHeader, sent_sendBuf _ (by decide +kernel),
    each _ socket fun text member => (plain_headerTexts plain text member).1, block,
    List.append_assoc]

/-- Every header is spoiled by its last line. -/
theorem spoiled_header {code : ℤ} {phase : String} {length : ℤ} {pftime : Option DateText}
    (plain : Plain (ascii phase)) (rest : List Byte) :
    Spoiled (block (headerTexts world code phase length pftime) ++ rest) := by
  refine ⟨_, rest, rfl, ?_, ?_⟩
  · intro text member
    obtain ⟨clean, nonempty⟩ := plain_headerTexts plain text member
    exact line_of_plain clean nonempty
  · exact List.mem_append_right _ (by simp only [List.mem_cons, true_or, or_true])

/-- What an answer adds to the bytes sent: nothing, or a spoiled header and more. -/
def Adds (socket after : Socket) : Prop :=
  after.sent = socket.sent ∨ ∃ bytes, after.sent = socket.sent ++ bytes ∧ Spoiled bytes

theorem sent_sendBlock (socket : Socket) (buf : List Byte) (size : ℤ) :
    (sendBlock socket buf size).sent = socket.sent ++ buf.take size.toNat :=
  sent_sendAll ..

/-- Behind the body of every answer stand two more empty lines. -/
theorem sent_answer {code : ℤ} {phase : String} {length size : ℤ} {pftime : Option DateText}
    (plain : Plain (ascii phase)) (buf : List Byte) :
    (sendBuf (sendBlock (sendHTTPHeader socket world code phase length pftime) buf size)
      (crlf ++ crlf)).sent = socket.sent ++ (block (headerTexts world code phase length pftime) ++
        (buf.take size.toNat ++ (crlf ++ crlf))) := by
  rw [sent_sendBuf _ (by decide +kernel), sent_sendBlock, sent_sendHTTPHeader plain]
  simp only [List.append_assoc]

theorem adds_of_header {code : ℤ} {phase : String} {length size : ℤ} {pftime : Option DateText}
    (plain : Plain (ascii phase)) (buf : List Byte) :
    Adds socket (sendBuf (sendBlock (sendHTTPHeader socket world code phase length pftime) buf
      size) (crlf ++ crlf)) :=
  .inr ⟨_, sent_answer plain buf, spoiled_header plain _⟩

/-- What `httpd` sends after the header loop. -/
theorem adds_of_respond {checked : Bool} {locals : Locals} {retval : ℤ}
    (answered : locals.respond checked world socket = some (retval, after)) :
    Adds socket after := by
  simp only [Locals.respond, Option.bind_eq_some_iff] at answered
  obtain ⟨upper, _, get, _, answered⟩ := answered
  split at answered
  · simp only [Locals.get, Option.bind_eq_some_iff] at answered
    obtain ⟨uri, _, dir, _, path, _, answered⟩ := answered
    split at answered
    · cases answered
      exact adds_of_header (by decide +kernel) _
    · cases answered
      exact adds_of_header (by decide +kernel) _
  · cases answered
    exact .inl rfl

/-- What a call of `httpd` that returns has sent. -/
theorem adds_of_httpd {checked : Bool} {stream : List Byte} {ending : Ending} {retval : ℤ}
    (returned : httpd checked world socket stream ending = .returned retval after) :
    Adds socket after := by
  rw [httpd] at returned
  split at returned
  · cases returned
  · unfold Locals.finish at returned
    split at returned
    · cases returned
    · split at returned
      · rename_i locals _ _
        cases answer : locals.respond checked world socket with
        | none =>
            rw [answer] at returned
            cases returned
        | some answer' =>
            rw [answer] at returned
            cases returned
            exact adds_of_respond answer
      · cases returned

/-- Nothing, or bytes that start with a spoiled block. -/
def NothingOrSpoiled (bytes : List Byte) : Prop :=
  bytes = [] ∨ Spoiled bytes

theorem NothingOrSpoiled.adds (before : NothingOrSpoiled socket.sent) (adds : Adds socket after) :
    NothingOrSpoiled after.sent := by
  rcases adds with same | ⟨bytes, same, spoiled⟩
  · rwa [same]
  · right
    rw [same]
    rcases before with nothing | spoiled'
    · rwa [nothing]
    · exact spoiled'.append bytes

/-- A session sends nothing, or starts with a spoiled block. -/
theorem sent_of_session (visits : List (Request × World)) : ∀ {socket after : Socket},
    NothingOrSpoiled socket.sent → session visits socket = some after →
      NothingOrSpoiled after.sent := by
  induction visits with
  | nil =>
      intro socket after before served
      cases served
      exact before
  | cons visit visits ih =>
      intro socket after before served
      rw [session] at served
      split at served
      · cases served
      · cases served
        exact before
      · next returned =>
        have adds := adds_of_httpd returned
        split at served
        · cases served
          exact before.adds adds
        · exact ih (before.adds adds) served

/-- The lines of a response that is well formed have no spoiled line among them. -/
theorem not_spoiled_of_response (response : IsResponse bytes) (rest : List Byte) :
    ¬ Spoiled (bytes ++ rest) := by
  obtain ⟨code, phrase, headers, body, cleanCode, cleanPhrase, cleanHeaders, _, rfl⟩ := response
  rintro ⟨lines, rest', same, proper, spoiled⟩
  have status : Line (statusLine code phrase) := by
    refine ⟨by simp [statusLine, ascii], ?_⟩
    simp only [statusLine, List.mem_append, not_or]
    exact ⟨⟨⟨by decide +kernel, cleanCode.1⟩, by decide +kernel⟩, cleanPhrase.1⟩
  have header : ∀ header ∈ headers, Line (headerLine header) := by
    intro header member
    refine ⟨by simp [headerLine, ascii], ?_⟩
    simp only [headerLine, List.mem_append, not_or]
    exact ⟨⟨(cleanHeaders header member).1.1, by decide +kernel⟩, (cleanHeaders header member).2.1⟩
  rw [List.append_assoc] at same
  obtain ⟨rfl, _⟩ := block_unique (by
    intro line member
    rcases List.mem_cons.mp member with rfl | member
    · exact status
    · obtain ⟨other, otherMember, rfl⟩ := List.mem_map.mp member
      exact header other otherMember) proper same
  rcases List.mem_cons.mp spoiled with first | member
  · have start : some (67 : Byte) = some 72 := congrArg List.head? first
    exact absurd start (by decide +kernel)
  · obtain ⟨other, _, isOther⟩ := List.mem_map.mp member
    have colon : (58 : Byte) ∈ headerLine other := by
      rw [headerLine]
      exact List.mem_append_left _ (List.mem_append_right _ (by decide +kernel))
    rw [isOther] at colon
    exact absurd colon (by decide +kernel)

/-- Only a session without requests is well answered. -/
theorem eq_nil_of_wellAnswered {visits : List (Request × World)} {accepts : ℕ → ℕ}
    (answered : WellAnswered visits accepts) : visits = [] := by
  obtain ⟨socket, responses, served, count, proper, same⟩ := answered
  cases responses with
  | nil => exact List.length_eq_zero_iff.mp count.symm
  | cons response responses =>
      have first := proper response List.mem_cons_self
      rcases sent_of_session visits (.inl rfl) served with nothing | spoiled
      · rw [nothing, List.flatten_cons] at same
        have empty := (List.append_eq_nil_iff.mp same.symm).1
        obtain ⟨code, phrase, headers, body, _, _, _, _, isBlock⟩ := first
        rw [empty, block_cons] at isBlock
        exact absurd isBlock.symm (List.append_ne_nil_of_right_ne_nil _ (List.cons_ne_nil _ _))
      · rw [same, List.flatten_cons] at spoiled
        exact absurd spoiled (not_spoiled_of_response first _)

/-- A session is well answered exactly if no request is sent. -/
theorem wellAnswered_iff (visits : List (Request × World)) (accepts : ℕ → ℕ) :
    WellAnswered visits accepts ↔ visits = [] := by
  constructor
  · exact eq_nil_of_wellAnswered
  · rintro rfl
    exact ⟨_, [], rfl, rfl, (by intro response member; cases member), rfl⟩

/-- A request for a file that does not exist. -/
def missing : Request where
  line := ascii "GET /missing HTTP/1.1"
  headers := [ascii "Host: localhost"]
  clean := by decide +kernel

theorem not_wellAnswered_missing :
    ¬ ∀ (visits : List (Request × World)) (accepts : ℕ → ℕ), WellAnswered visits accepts := by
  intro answered
  have served := answered [(missing, noFiles)] fun _ => 512
  exact absurd (eq_nil_of_wellAnswered served) (List.cons_ne_nil _ _)

end LinuxUnix.HttpServer

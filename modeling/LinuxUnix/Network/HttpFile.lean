import LinuxUnix.Network.HttpPaths
import LinuxUnix.Network.HttpResponse
import Mathlib.Data.List.TakeDrop

/-! # The answer with a file

`httpd` gives the size that `stat` has stored to `malloc` and to `fread`, and as an `int` to
`SendHTTPHeader` and to `SendBlock`, without looking at what the object is and at what the calls
return. Here these calls can fail, and the memory that `malloc` returns has not been written.
Which answers carry the file is decided by `LinuxUnix.HttpServer.carriesFile_iff_of_fopenPath`.
-/

namespace LinuxUnix.HttpServer

open CMemory CrlfLines

/-- A byte of memory, or one that has not been written. -/
abbrev Cell := Option Byte

/-- A connection that carries so many more bytes; then `send` returns −1. -/
structure Connection where
  sent : List Cell
  accepts : ℕ → ℕ
  room : ℕ

/-- `send` -/
def Connection.send (connection : Connection) (buf : List Cell) : Option (ℕ × Connection) :=
  if connection.room = 0 then none
  else
    let len := min (pieceSize connection.accepts buf.length) connection.room
    some (len, {
      sent := connection.sent ++ buf.take len
      accepts := later connection.accepts
      room := connection.room - len })

theorem send_eq_some_iff {connection after : Connection} {buf : List Cell} {len : ℕ} :
    connection.send buf = some (len, after) ↔ connection.room ≠ 0 ∧
      len = min (pieceSize connection.accepts buf.length) connection.room ∧
      after = {
        sent := connection.sent ++ buf.take len
        accepts := later connection.accepts
        room := connection.room - len } := by
  rw [Connection.send, Option.ite_none_left_eq_some, Option.some.injEq, Prod.mk.injEq]
  constructor
  · rintro ⟨room, rfl, rfl⟩
    exact ⟨room, rfl, rfl⟩
  · rintro ⟨room, rfl, rfl⟩
    exact ⟨room, rfl, rfl⟩

theorem send_pos {connection after : Connection} {buf : List Cell} {len : ℕ}
    (nonempty : buf ≠ []) (sends : connection.send buf = some (len, after)) : 0 < len := by
  obtain ⟨room, rfl, _⟩ := send_eq_some_iff.mp sends
  have long := List.length_pos_iff.mpr nonempty
  exact Nat.lt_min.mpr ⟨pieceSize_pos connection.accepts long, Nat.pos_of_ne_zero room⟩

/-- The loop of `SendBlock` and `SendBuf` on what is still to be sent. -/
def Connection.sendAll (connection : Connection) (buf : List Cell) : Connection :=
  if _finished : buf = [] then connection
  else match _sends : connection.send buf with
    | none => connection
    | some (len, connection) => connection.sendAll (buf.drop len)
termination_by buf.length
decreasing_by
  rw [List.length_drop]
  exact Nat.sub_lt (List.length_pos_iff.mpr _finished) (send_pos _finished _sends)

theorem send_le {connection after : Connection} {buf : List Cell} {len : ℕ}
    (sends : connection.send buf = some (len, after)) :
    len ≤ buf.length ∧ len ≤ connection.room := by
  obtain ⟨_, rfl, _⟩ := send_eq_some_iff.mp sends
  exact ⟨Nat.le_trans (Nat.min_le_left ..) (Nat.min_le_right ..), Nat.min_le_right ..⟩

@[simp] theorem sendAll_nil (connection : Connection) : connection.sendAll [] = connection := by
  rw [Connection.sendAll, dif_pos rfl]

theorem sendAll_of_refused {connection : Connection} {buf : List Cell}
    (refused : connection.send buf = none) : connection.sendAll buf = connection := by
  rw [Connection.sendAll]
  split
  · rfl
  · split
    · rfl
    · rename_i sends
      cases refused.symm.trans sends

theorem sendAll_of_sent {connection later : Connection} {buf : List Cell} {len : ℕ}
    (nonempty : buf ≠ []) (sends : connection.send buf = some (len, later)) :
    connection.sendAll buf = later.sendAll (buf.drop len) := by
  rw [Connection.sendAll, dif_neg nonempty]
  split
  · rename_i refused
    cases refused.symm.trans sends
  · rename_i same
    cases same.symm.trans sends
    rfl

def Connection.sendBlock (connection : Connection) (buf : List Cell) (size : ℤ) : Connection :=
  connection.sendAll (buf.take size.toNat)

def Connection.sendBuf (connection : Connection) (buf : List Byte) : Connection :=
  connection.sendAll ((cstr buf).map some)

def Connection.sendHTTPHeader (connection : Connection) (world : World) (code : ℤ)
    (phase : String) (length : ℤ) (pftime : Option DateText) : Connection :=
  ((headerTexts world code phase length pftime).foldl
    (fun connection text => connection.sendBuf (text ++ crlf)) connection).sendBuf crlf

/-- What `fopen` has opened: the bytes that can be read from it, and what `stat` says. -/
structure Opened where
  bytes : List Byte
  stSize : ℕ
  /-- it is an `off_t` -/
  offT : stSize < 9223372036854775808
  stMtime : DateText

/-- How the calls of `malloc` and `fread` go: whether there is memory, and after how many bytes
reading fails. -/
structure Calls where
  malloc : Bool
  reads : ℕ

/-- What `fread` gets. -/
def Opened.fread (opened : Opened) (calls : Calls) : List Byte :=
  opened.bytes.take (min calls.reads opened.stSize)

/-- The memory at `blob` after `fread`, which must not be given the null pointer unless it has
nothing to do. -/
def Opened.blob (opened : Opened) (calls : Calls) : Option (List Cell) :=
  if opened.stSize = 0 then some []
  else if calls.malloc then
    some ((opened.fread calls).map some ++
      List.replicate (opened.stSize - (opened.fread calls).length) none)
  else none

/-- What an answer depends on besides the request. -/
structure Disk where
  now : DateText
  fopen : List Byte → Option Opened

/-- The files that would be sent if nothing failed. -/
def Disk.world (disk : Disk) : World where
  now := disk.now
  fopen path := (disk.fopen path).map fun opened => ⟨opened.bytes, opened.stMtime⟩

/-- An answer: the number given to `SendHTTPHeader`, and the connection after the header, after
the file, and at the end. -/
structure Answer where
  length : ℤ
  header : Connection
  body : Connection
  done : Connection

/-- The answer with what has been opened. -/
def Connection.sendOpened (connection : Connection) (disk : Disk) (calls : Calls)
    (opened : Opened) : Option Answer :=
  let size := toInt opened.stSize
  let header := connection.sendHTTPHeader disk.world 200 "OK" size (some opened.stMtime)
  (opened.blob calls).map fun blob =>
    let body := header.sendBlock blob size
    { length := size, header, body, done := body.sendBuf (crlf ++ crlf) }

/-- The answer to a request for something that can be opened. -/
def Request.answer (request : Request) (disk : Disk) (calls : Calls) (connection : Connection) :
    Option Answer :=
  request.fopenPath.bind fun path => (disk.fopen path).bind (connection.sendOpened disk calls)

/-- The header announces so many bytes as the file has, and these are sent. -/
structure CarriesFile (disk : Disk) (opened : Opened) (connection : Connection) (answer : Answer) :
    Prop where
  header : answer.header.sent = connection.sent ++
    (block (headerTexts disk.world 200 "OK" answer.length (some opened.stMtime))).map some
  length : answer.length = opened.bytes.length
  body : answer.body.sent = answer.header.sent ++ opened.bytes.map some

/-- These cells are sent, as far as the connection carries them. -/
structure Sends (before after : Connection) (cells : List Cell) : Prop where
  sent : after.sent = before.sent ++ cells.take before.room
  room : after.room = before.room - cells.length

theorem Sends.refl (connection : Connection) : Sends connection connection [] where
  sent := by rw [List.take_nil, List.append_nil]
  room := rfl

theorem Sends.trans {before middle after : Connection} {first second : List Cell}
    (left : Sends before middle first) (right : Sends middle after second) :
    Sends before after (first ++ second) where
  sent := by rw [right.sent, left.sent, left.room, List.take_append, List.append_assoc]
  room := by rw [right.room, left.room, List.length_append, Nat.sub_sub]

variable {connection header after : Connection} {disk : Disk} {calls : Calls} {opened : Opened}
  {answer : Answer} {world : World}

/-- The pieces in which `send` takes what is to be sent do not matter. -/
theorem sends_sendAll (connection : Connection) (buf : List Cell) :
    Sends connection (connection.sendAll buf) buf := by
  induction connection, buf using Connection.sendAll.induct with
  | case1 connection =>
      rw [sendAll_nil]
      exact .refl connection
  | case2 connection buf unfinished broken =>
      rw [sendAll_of_refused broken]
      have empty : connection.room = 0 := by
        rw [Connection.send] at broken
        split at broken
        · assumption
        · cases broken
      refine ⟨?_, ?_⟩
      · rw [empty, List.take_zero, List.append_nil]
      · rw [empty, Nat.zero_sub]
  | case3 connection buf unfinished len middle sends ih =>
      rw [sendAll_of_sent unfinished sends]
      obtain ⟨piece, within⟩ := send_le sends
      obtain ⟨_, _, rfl⟩ := send_eq_some_iff.mp sends
      refine ⟨?_, ?_⟩
      · rw [ih.sent, List.append_assoc, ← List.take_add, Nat.add_sub_cancel' within]
      · rw [ih.room, List.length_drop]
        change connection.room - len - (buf.length - len) = connection.room - buf.length
        omega

theorem sends_sendBuf (connection : Connection) {text : List Byte} (clean : 0 ∉ text) :
    Sends connection (connection.sendBuf text) (text.map some) := by
  rw [Connection.sendBuf, cstr_eq_self clean]
  exact sends_sendAll ..

theorem sends_sendHTTPHeader {code : ℤ} {phase : String} {length : ℤ} {pftime : Option DateText}
    (plain : Plain (ascii phase)) :
    Sends connection (connection.sendHTTPHeader world code phase length pftime)
      ((block (headerTexts world code phase length pftime)).map some) := by
  have each : ∀ (texts : List (List Byte)) (connection : Connection),
      (∀ text ∈ texts, Plain text) →
      Sends connection
        (texts.foldl (fun connection text => connection.sendBuf (text ++ crlf)) connection)
        ((texts.map (· ++ crlf)).flatten.map some) := by
    intro texts
    induction texts with
    | nil => intro connection _; exact .refl connection
    | cons text texts ih =>
        intro connection plain
        have clean := (plain text List.mem_cons_self).clean
        rw [List.foldl_cons, List.map_cons, List.flatten_cons, List.map_append]
        exact (sends_sendBuf connection clean).trans
          (ih _ fun text member => plain text (List.mem_cons_of_mem _ member))
  rw [block, List.map_append]
  exact (each _ connection fun text member => (plain_headerTexts plain text member).1).trans
    (sends_sendBuf _ (by decide +kernel))

theorem toInt_eq (size : ℕ) : toInt size =
    if (size : ℤ) % 4294967296 < 2147483648 then (size : ℤ) % 4294967296
    else (size : ℤ) % 4294967296 - 4294967296 :=
  rfl

/-- What the conversion to `int` keeps. -/
theorem toInt_eq_iff (size count : ℕ) :
    toInt size = count ↔ count < 2147483648 ∧ size % 4294967296 = count := by
  rw [toInt_eq]
  omega

theorem length_fread (opened : Opened) (calls : Calls) :
    (opened.fread calls).length = min (min calls.reads opened.stSize) opened.bytes.length :=
  List.length_take

/-- There is memory, or none is needed. -/
def Opened.HasMemory (opened : Opened) (calls : Calls) : Prop :=
  opened.stSize = 0 ∨ calls.malloc = true

theorem blob_eq_some_iff {blob : List Cell} : opened.blob calls = some blob ↔
    opened.HasMemory calls ∧ blob = (opened.fread calls).map some ++
      List.replicate (opened.stSize - (opened.fread calls).length) none := by
  rw [Opened.blob, Opened.HasMemory]
  by_cases empty : opened.stSize = 0
  · have nothing : opened.fread calls = [] := by
      rw [Opened.fread, empty, Nat.min_zero, List.take_zero]
    rw [if_pos empty, nothing, empty, Option.some.injEq, eq_comm]
    simp only [true_or, true_and, List.map_nil, List.length_nil, Nat.sub_self,
      List.replicate_zero, List.append_nil]
  · rw [if_neg empty, Option.ite_none_right_eq_some, Option.some.injEq, eq_comm (a := blob)]
    simp only [empty, false_or]

/-- Cells that have all been written come from what has been read. -/
theorem length_le_of_written {got bytes : List Byte} {rest count : ℕ}
    (written : (got.map some ++ List.replicate rest none).take count = bytes.map some) :
    bytes.length ≤ got.length := by
  by_contra more
  have cell := congrArg (·[got.length]?) written
  have there : got.length < bytes.length := Nat.lt_of_not_le more
  simp only [List.getElem?_take, List.getElem?_map, List.getElem?_eq_getElem there,
    Option.map_some] at cell
  split at cell
  · rw [List.getElem?_append_right (List.length_map ..).le, List.getElem?_replicate] at cell
    split at cell
    · cases cell
    · cases cell
  · cases cell

/-- What `SendBlock` is given is the file if all has been read. -/
theorem take_blob (read : opened.bytes.length ≤ calls.reads)
    (small : opened.bytes.length ≤ opened.stSize) (rest : ℕ) :
    ((opened.fread calls).map some ++ List.replicate rest none).take opened.bytes.length =
      opened.bytes.map some := by
  have all : opened.fread calls = opened.bytes :=
    List.take_of_length_le (Nat.le_min.mpr ⟨read, small⟩)
  rw [all]
  exact List.take_left' (List.length_map ..)

/-- The size of the object fits an `int` and is the number of its bytes, as far as an `int` can
tell; there is memory, all is read, and the connection carries the header and the file. -/
structure GoesWell (disk : Disk) (calls : Calls) (connection : Connection) (opened : Opened) :
    Prop where
  size : opened.bytes.length < 2147483648 ∧ opened.stSize % 4294967296 = opened.bytes.length
  memory : opened.HasMemory calls
  read : opened.bytes.length ≤ calls.reads
  carried : (block (headerTexts disk.world 200 "OK" opened.bytes.length
    (some opened.stMtime))).length + opened.bytes.length ≤ connection.room

theorem sendOpened_eq_some_iff : connection.sendOpened disk calls opened = some answer ↔
    ∃ blob, opened.blob calls = some blob ∧ answer.length = toInt opened.stSize ∧
      answer.header = connection.sendHTTPHeader disk.world 200 "OK" (toInt opened.stSize)
        (some opened.stMtime) ∧
      answer.body = answer.header.sendBlock blob (toInt opened.stSize) ∧
      answer.done = answer.body.sendBuf (crlf ++ crlf) := by
  simp only [Connection.sendOpened, Option.map_eq_some_iff]
  generalize toInt opened.stSize = size
  refine exists_congr fun blob => and_congr_right fun _ => ?_
  obtain ⟨length, header, body, done⟩ := answer
  simp only [Answer.mk.injEq]
  constructor
  · rintro ⟨rfl, rfl, rfl, rfl⟩
    exact ⟨rfl, rfl, rfl, rfl⟩
  · rintro ⟨rfl, rfl, rfl, rfl⟩
    exact ⟨rfl, rfl, rfl, rfl⟩

/-- What the header and `SendBlock` send of an answer. -/
theorem sends_sendOpened (sent : connection.sendOpened disk calls opened = some answer) :
    opened.HasMemory calls ∧ answer.length = toInt opened.stSize ∧
      Sends connection answer.header ((block (headerTexts disk.world 200 "OK" answer.length
        (some opened.stMtime))).map some) ∧
      Sends answer.header answer.body (((opened.fread calls).map some ++
        List.replicate (opened.stSize - (opened.fread calls).length) none).take
          answer.length.toNat) ∧
      Sends answer.body answer.done ((crlf ++ crlf).map some) := by
  obtain ⟨blob, got, length, header, body, done⟩ := sendOpened_eq_some_iff.mp sent
  obtain ⟨memory, rfl⟩ := blob_eq_some_iff.mp got
  rw [← length] at header body
  refine ⟨memory, length, ?_, ?_, ?_⟩
  · rw [header]
    exact sends_sendHTTPHeader (by decide +kernel)
  · rw [body]
    exact sends_sendAll ..
  · rw [done]
    exact sends_sendBuf _ (by decide +kernel)

theorem GoesWell.toInt_eq (goesWell : GoesWell disk calls connection opened) :
    toInt opened.stSize = opened.bytes.length :=
  (toInt_eq_iff ..).mpr goesWell.size

/-- If all goes well then the file is sent. -/
theorem GoesWell.carriesFile (goesWell : GoesWell disk calls connection opened) :
    ∃ answer, connection.sendOpened disk calls opened = some answer ∧
      CarriesFile disk opened connection answer := by
  obtain ⟨blob, got⟩ : ∃ blob, opened.blob calls = some blob :=
    ⟨_, blob_eq_some_iff.mpr ⟨goesWell.memory, rfl⟩⟩
  obtain ⟨answer, sent⟩ : ∃ answer, connection.sendOpened disk calls opened = some answer := by
    rw [Connection.sendOpened, got, Option.map_some]
    exact ⟨_, rfl⟩
  obtain ⟨_, length, header, body, _⟩ := sends_sendOpened sent
  rw [goesWell.toInt_eq] at length
  have carried := goesWell.carried
  have small : opened.bytes.length ≤ opened.stSize := by
    have size := goesWell.size.2
    omega
  rw [length, Int.toNat_natCast, take_blob goesWell.read small] at body
  have wholeHeader := header.sent
  rw [length] at wholeHeader header
  refine ⟨answer, sent, ?_, length, ?_⟩
  · rw [wholeHeader, length, List.take_of_length_le]
    rw [List.length_map]
    omega
  · rw [body.sent, List.take_of_length_le]
    rw [header.room, List.length_map, List.length_map]
    omega

/-- If the file is sent then all has gone well. -/
theorem goesWell_of_carriesFile (sent : connection.sendOpened disk calls opened = some answer)
    (carries : CarriesFile disk opened connection answer) :
    GoesWell disk calls connection opened := by
  obtain ⟨memory, length, header, body, _⟩ := sends_sendOpened sent
  have wholeHeader := List.append_cancel_left (header.sent.symm.trans carries.header)
  have wholeBody := List.append_cancel_left (body.sent.symm.trans carries.body)
  have room := header.room
  rw [List.take_eq_self_iff, carries.length, List.length_map] at wholeHeader
  rw [carries.length, List.length_map] at room
  have all := congrArg List.length wholeBody
  rw [List.take_take] at wholeBody
  have read := length_le_of_written wholeBody
  rw [length_fread] at read
  rw [List.length_take, List.length_map] at all
  refine ⟨(toInt_eq_iff ..).mp (length.symm.trans carries.length), memory, by omega, by omega⟩

theorem carriesFile_iff : (∃ answer, connection.sendOpened disk calls opened = some answer ∧
    CarriesFile disk opened connection answer) ↔ GoesWell disk calls connection opened :=
  ⟨fun ⟨_, sent, carries⟩ => goesWell_of_carriesFile sent carries, GoesWell.carriesFile⟩

/-- A regular file is sent exactly if an `int` can hold its size, as long as the calls do not
fail. -/
theorem carriesFile_iff_of_regular (regular : opened.stSize = opened.bytes.length)
    (memory : opened.HasMemory calls) (read : opened.bytes.length ≤ calls.reads)
    (carried : (block (headerTexts disk.world 200 "OK" opened.bytes.length
      (some opened.stMtime))).length + opened.bytes.length ≤ connection.room) :
    (∃ answer, connection.sendOpened disk calls opened = some answer ∧
      CarriesFile disk opened connection answer) ↔ opened.bytes.length < 2147483648 := by
  rw [carriesFile_iff]
  constructor
  · exact fun goesWell => goesWell.size.1
  · intro small
    have size : opened.stSize % 4294967296 = opened.bytes.length := by omega
    exact ⟨⟨small, size⟩, memory, read, carried⟩

variable {request : Request} {path : List Byte}

theorem sent_sendFile (world : World) (socket : Socket) (file : File) :
    (sendFile world socket file).sent = socket.sent ++
      (block (headerTexts world 200 "OK" (toInt file.blob.length) (some file.modified)) ++
        file.blob.take (toInt file.blob.length).toNat ++ (crlf ++ crlf)) := by
  rw [sendFile]
  generalize toInt file.blob.length = size
  rw [sent_answer (by decide +kernel), List.append_assoc (block _)]

/-- If no call fails then the answer with a regular file is what `httpd` sends. -/
theorem httpd_of_answer {sent : List Byte} {accepts : ℕ → ℕ} {room : ℕ}
    (hands : request.fopenPath = some path) (opens : disk.fopen path = some opened)
    (regular : opened.stSize = opened.bytes.length) (read : opened.bytes.length ≤ calls.reads)
    (carried : (block (headerTexts disk.world 200 "OK" (toInt opened.stSize)
      (some opened.stMtime)) ++ opened.bytes ++ (crlf ++ crlf)).length ≤ room)
    (answered : request.answer disk calls ⟨sent.map some, accepts, room⟩ = some answer)
    (ending : Ending) :
    ∃ retval socket, httpd false disk.world ⟨sent, accepts⟩ request.bytes ending =
      .returned retval socket ∧ answer.done.sent = socket.sent.map some := by
  obtain ⟨retval, returned⟩ :=
    @httpd_of_fopenPath request disk.world ⟨sent, accepts⟩ path hands ending
  have file : disk.world.fopen path = some ⟨opened.bytes, opened.stMtime⟩ := by
    change (disk.fopen path).map _ = _
    rw [opens]
    rfl
  rw [file] at returned
  refine ⟨retval, _, returned, ?_⟩
  rw [Request.answer, hands, Option.bind_some, opens, Option.bind_some] at answered
  obtain ⟨_, length, header, body, done⟩ := sends_sendOpened answered
  have all : opened.fread calls = opened.bytes :=
    List.take_of_length_le (Nat.le_min.mpr ⟨read, regular.ge⟩)
  rw [all, regular, Nat.sub_self, List.replicate_zero, List.append_nil, ← List.map_take, length,
    regular] at body
  rw [length, regular] at header
  rw [regular] at carried
  have file := sent_sendFile disk.world ⟨sent, accepts⟩ ⟨opened.bytes, opened.stMtime⟩
  simp only at file
  have short : (block (headerTexts disk.world 200 "OK" (toInt opened.bytes.length)
      (some opened.stMtime)) ++ opened.bytes.take (toInt opened.bytes.length).toNat ++
      (crlf ++ crlf)).length ≤ room := by
    refine Nat.le_trans ?_ carried
    exact (((List.take_sublist ..).append_left _).append_right _).length_le
  have whole := ((header.trans body).trans done).sent
  rw [← List.map_append, ← List.map_append, List.take_of_length_le] at whole
  · rw [whole, file]
    exact List.map_append.symm
  · rw [List.length_map]
    exact short

/-- Whether the answer to a request for something that can be opened carries it. -/
theorem carriesFile_iff_of_fopenPath (hands : request.fopenPath = some path)
    (opens : disk.fopen path = some opened) (calls : Calls) (connection : Connection) :
    (∃ answer, request.answer disk calls connection = some answer ∧
      CarriesFile disk opened connection answer) ↔ GoesWell disk calls connection opened := by
  rw [Request.answer, hands, Option.bind_some, opens, Option.bind_some]
  exact carriesFile_iff

/-- Nothing fails. -/
def noFailure : Calls where
  malloc := true
  reads := 9223372036854775807

/-- A connection that carries more than an answer here needs. -/
def wideOpen : Connection where
  sent := []
  accepts := fun _ => 512
  room := 10000

def regularFile : Opened where
  bytes := ascii "hello"
  stSize := 5
  offT := by decide
  stMtime := noFiles.now

/-- A directory can be opened, but not read. -/
def directory : Opened where
  bytes := []
  stSize := 4096
  offT := by decide
  stMtime := noFiles.now

/-- A file system with one object. -/
def diskWith (opened : Opened) : Disk where
  now := noFiles.now
  fopen path := if path = ascii "./a" then some opened else none

theorem fopen_diskWith (opened : Opened) :
    (diskWith opened).fopen (ascii "./a") = some opened := by
  change (if ascii "./a" = ascii "./a" then some opened else none) = some opened
  exact if_pos rfl

theorem carriesFile_of_getFile : ∃ answer,
    getFile.answer (diskWith regularFile) noFailure wideOpen = some answer ∧
      CarriesFile (diskWith regularFile) regularFile wideOpen answer :=
  (carriesFile_iff_of_fopenPath (by decide +kernel) (fopen_diskWith _) noFailure wideOpen).mpr
    { size := by decide +kernel
      memory := .inr rfl
      read := by decide +kernel
      carried := by decide +kernel }

/-- For a directory 4096 bytes are sent that nobody has written. -/
theorem not_carriesFile_of_directory :
    ¬ ∀ (request : Request) (disk : Disk) (path : List Byte) (opened : Opened) (calls : Calls)
      (connection : Connection), request.fopenPath = some path → disk.fopen path = some opened →
        ∃ answer, request.answer disk calls connection = some answer ∧
          CarriesFile disk opened connection answer := by
  intro carries
  have hands : getFile.fopenPath = some (ascii "./a") := by decide +kernel
  have sent := carries getFile (diskWith directory) _ directory noFailure wideOpen hands
    (fopen_diskWith _)
  rw [Request.answer, hands, Option.bind_some, fopen_diskWith, Option.bind_some] at sent
  exact absurd (carriesFile_iff.mp sent).size (by decide +kernel)

end LinuxUnix.HttpServer

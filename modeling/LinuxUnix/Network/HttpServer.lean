import LinuxUnix.Foundation.CrlfLines
import LinuxUnix.Foundation.Delivery
import LinuxUnix.Network.HttpToken
import Mathlib.Data.Int.ModEq

/-! # The HTTP server

`httpd` reads one request from the connection and answers it. Its header loop gets
one byte after the other from the stream (`LinuxUnix.HttpServer.Locals.takeByte`)
and works on a line when `fgets` returns it (`LinuxUnix.HttpServer.Locals.takeLine`);
an empty line ends the loop, and `LinuxUnix.HttpServer.respond` sends the answer. An
access outside an array, a null pointer and an array without NUL where a string is
expected have no result. If `checked` is set, neither has a call of `GetToken` that
does not get what it needs.

The outputs to the terminal are left out.
-/

namespace LinuxUnix.HttpServer

open CMemory CrlfLines

/-- The bytes of a string literal. -/
def ascii (text : String) : List Byte :=
  text.toList.map Char.toUInt8

/-- `strcpy` -/
def strcpy (dest src : List Byte) : Option (List Byte) :=
  if 0 ∈ src ∧ (cstr src).length < dest.length then
    some (overwrite dest 0 (cstr src ++ [0]))
  else none

/-- `strcat` -/
def strcat (dest src : List Byte) : Option (List Byte) :=
  if 0 ∈ dest ∧ 0 ∈ src ∧ (cstr dest).length + (cstr src).length < dest.length then
    some (overwrite dest (cstr dest).length (cstr src ++ [0]))
  else none

/-- Whether `strcmp` returns 0 for an array and a literal. -/
def strcmpEq (memory : List Byte) (text : String) : Option Bool :=
  if 0 ∈ memory then some (cstr memory == ascii text) else none

/-- A call of `GetToken`; its result is not used. -/
def callGetToken (checked : Bool) (buf : List Byte) (n : ℕ) (token : List Byte) (toklen : ℕ)
    (delim : Byte) : Option (List Byte) :=
  if checked ∧ ¬ Needs buf n token toklen delim then none
  else (getToken buf n token toklen delim).map Prod.snd

/-- `BUFFER_SIZE` -/
def bufferSize : ℕ := 2048

/-- The variables of `httpd`: its arrays, the number of bytes that the current call of
`fgets` has stored, and whether the header loop has ended. -/
structure Locals where
  retval : ℤ
  buf : List Byte
  method : List Byte
  uri : List Byte
  headline : List Byte
  requestHeader : List Byte
  hTitle : List Byte
  hValue : List Byte
  isFirst : Bool
  count : ℕ
  ended : Bool
  deriving DecidableEq

/-- The variables as they are initialised. -/
def Locals.start : Locals where
  retval := 0
  buf := List.replicate 512 0
  method := List.replicate 255 0
  uri := List.replicate 512 0
  headline := List.replicate 1024 0
  requestHeader := List.replicate bufferSize 0
  hTitle := List.replicate 32 0
  hValue := List.replicate 128 0
  isFirst := true
  count := 0
  ended := false

/-- The first line of a request. -/
def Locals.takeHeadline (checked : Bool) (locals : Locals) : Option Locals :=
  (strcpy locals.headline locals.buf).bind fun headline =>
    (callGetToken checked headline 1 locals.method 255 0).bind fun method =>
      some { locals with headline, method, isFirst := false }

/-- A `Connection` header: `retval` depends on its second word. -/
def Locals.takeConnection (checked : Bool) (locals : Locals) : Option Locals :=
  (callGetToken checked locals.buf 2 locals.hValue 128 32).bind fun hValue =>
    (strcmpEq hValue "Keep-Alive").bind fun keepAlive =>
      some { locals with hValue, retval := if keepAlive then 1 else -1 }

/-- Another line of the request header. -/
def Locals.takeHeader (checked : Bool) (locals : Locals) : Option Locals :=
  (strcat locals.requestHeader locals.buf).bind fun requestHeader =>
    (callGetToken checked locals.buf 1 locals.hTitle 32 58).bind fun hTitle =>
      (strcmpEq hTitle "Connection").bind fun connection =>
        if connection then
          { locals with requestHeader, hTitle }.takeConnection checked
        else some { locals with requestHeader, hTitle }

/-- The body of the header loop, after `fgets` has returned `buf`. -/
def Locals.takeLine (checked : Bool) (locals : Locals) : Option Locals :=
  if locals.buf[0]? = some 13 ∧ locals.buf[1]? = some 10 then some { locals with ended := true }
  else if locals.isFirst then locals.takeHeadline checked
  else locals.takeHeader checked

/-- `fgets(buf, BUFFER_SIZE, fd)` returns: it has stored `count` bytes. -/
def Locals.endLine (checked : Bool) (locals : Locals) : Option Locals :=
  (store locals.buf locals.count 0).bind fun buf =>
    { locals with buf, count := 0 }.takeLine checked

/-- `fgets` gets one more byte from the stream; after the header loop nothing is
read. -/
def Locals.takeByte (checked : Bool) (locals : Locals) (byte : Byte) : Option Locals :=
  if locals.ended then some locals
  else (store locals.buf locals.count byte).bind fun buf =>
    if byte = 10 ∨ locals.count + 1 = bufferSize - 1 then
      { locals with buf, count := locals.count + 1 }.endLine checked
    else some { locals with buf, count := locals.count + 1 }

/-- The header loop on the bytes of a stream. -/
def Locals.takeBytes (checked : Bool) (locals : Locals) (bytes : List Byte) : Option Locals :=
  bytes.foldlM (Locals.takeByte checked) locals

/-- At the end of the stream `fgets` returns what it has stored, and then the null
pointer, which is dereferenced. -/
def Locals.takeEnd (checked : Bool) (locals : Locals) : Option Locals :=
  if locals.ended then some locals
  else if locals.count = 0 then none
  else (locals.endLine checked).bind fun locals => if locals.ended then some locals else none

/-- The connection as the answer uses it: what has been sent, and how many bytes the
next calls of `send` accept. -/
structure Socket where
  sent : List Byte
  accepts : ℕ → ℕ

/-- `send` -/
def Socket.send (socket : Socket) (buf : List Byte) : Socket where
  sent := socket.sent ++ buf.take (pieceSize socket.accepts buf.length)
  accepts := later socket.accepts

/-- The loop of `SendBlock` and `SendBuf` on what is still to be sent. -/
def Socket.sendAll (socket : Socket) (buf : List Byte) : Socket :=
  if _finished : buf = [] then socket
  else (socket.send buf).sendAll (buf.drop (pieceSize socket.accepts buf.length))
termination_by buf.length
decreasing_by
  have long := List.length_pos_iff.mpr _finished
  have moved := pieceSize_pos socket.accepts long
  rw [List.length_drop]
  exact Nat.sub_lt long moved

def sendBlock (socket : Socket) (buf : List Byte) (size : ℤ) : Socket :=
  socket.sendAll (buf.take size.toNat)

def sendBuf (socket : Socket) (buf : List Byte) : Socket :=
  socket.sendAll (cstr buf)

/-- A text that `strftime` can produce. -/
structure DateText where
  text : List Byte
  clean : 0 ∉ text ∧ 13 ∉ text ∧ 10 ∉ text

/-- A file that can be opened: its bytes and the time of its last change. -/
structure File where
  blob : List Byte
  modified : DateText

/-- What an answer depends on besides the request. -/
structure World where
  now : DateText
  fopen : List Byte → Option File

/-- A file system without files. -/
def noFiles : World where
  now := ⟨ascii "Thu, 01 Jan 1970 00:00:00 GMT", by decide +kernel⟩
  fopen := fun _ => none

/-- The conversion of a size to `int`. -/
def toInt (size : ℕ) : ℤ :=
  Int.bmod size (2 ^ 32)

/-- `%d` -/
def decimal (number : ℤ) : List Byte :=
  (if number < 0 then ascii "-" else []) ++
    (Nat.toDigits 10 number.natAbs).map Char.toUInt8

/-- The lines that `SendHTTPHeader` sends one after the other, up to the empty one. -/
def headerTexts (world : World) (code : ℤ) (phase : String) (length : ℤ)
    (pftime : Option DateText) : List (List Byte) :=
  [ascii "HTTP/1.1 " ++ decimal code ++ ascii " " ++ ascii phase,
    ascii "Date: " ++ world.now.text,
    ascii "Server: http_server 0.1"] ++
  (pftime.map fun time => ascii "Last-Modified: " ++ time.text).toList ++
  [ascii "Accept-Ranges: none",
    ascii "Content-Length: " ++ decimal length,
    ascii "Connection: Keep-Alive",
    ascii "Content-Type text/html"]

def sendHTTPHeader (socket : Socket) (world : World) (code : ℤ) (phase : String) (length : ℤ)
    (pftime : Option DateText) : Socket :=
  sendBuf ((headerTexts world code phase length pftime).foldl
    (fun socket text => sendBuf socket (text ++ crlf)) socket) crlf

def error404 : List Byte :=
  ascii "<HTML><HEAD><TITLE>404 Not Found</TITLE>" ++
  ascii "</HEAD><BODY><H1>Nicht gefunden</H1>" ++
  ascii "Die angeforderte URL konnte nicht auf " ++
  ascii "disem Server gefunden werden." ++
  ascii "<P><HR><I>http_server0.1</I></BODY></HTML>\r\n\r\n"

/-- The answer if the file cannot be opened. -/
def sendNotFound (world : World) (socket : Socket) : Socket :=
  let socket := sendHTTPHeader socket world 404 "FILE NOT FOUND." (error404.length + 1) none
  let socket := sendBlock socket (error404 ++ [0]) (error404.length + 1)
  sendBuf socket (crlf ++ crlf)

/-- The answer with the bytes of a file. -/
def sendFile (world : World) (socket : Socket) (file : File) : Socket :=
  let size := toInt file.blob.length
  let socket := sendHTTPHeader socket world 200 "OK" size (some file.modified)
  let socket := sendBlock socket file.blob size
  sendBuf socket (crlf ++ crlf)

/-- `sprintf(path, ".%s", uri)` -/
def pathOf (uri : List Byte) : Option (List Byte) :=
  if 0 ∈ uri ∧ 1 + (cstr uri).length < 512 then some (ascii "." ++ cstr uri) else none

/-- The answer to `GET`. -/
def Locals.get (checked : Bool) (world : World) (socket : Socket) (locals : Locals) :
    Option (ℤ × Socket) :=
  (callGetToken checked locals.headline 2 locals.uri 1024 0).bind fun uri =>
    (callGetToken checked uri 1 (List.replicate 255 0) 255 47).bind fun _dir =>
      (pathOf uri).bind fun path =>
        match world.fopen path with
        | none => some (-1, sendNotFound world socket)
        | some file => some (locals.retval, sendFile world socket file)

/-- `httpd` after the header loop. -/
def Locals.respond (checked : Bool) (world : World) (socket : Socket) (locals : Locals) :
    Option (ℤ × Socket) :=
  (strcmpEq locals.method "GET").bind fun upper =>
    (if upper then some true else strcmpEq locals.method "get").bind fun get =>
      if get then locals.get checked world socket else some (locals.retval, socket)

/-- How the stream of a client ends, as far as it has been sent. -/
inductive Ending
  | closed
  | paused
  deriving DecidableEq

/-- `httpd` has no defined result, waits for more bytes, or returns. -/
inductive Outcome
  | undefined
  | waiting
  | returned (retval : ℤ) (socket : Socket)

/-- An answer that has a result is returned. -/
def Outcome.ofAnswer : Option (ℤ × Socket) → Outcome
  | none => .undefined
  | some (retval, socket) => .returned retval socket

/-- `httpd` after the bytes that have been sent. -/
def Locals.finish (checked : Bool) (world : World) (socket : Socket) (ending : Ending)
    (locals : Locals) : Outcome :=
  match (match ending with | .closed => locals.takeEnd checked | .paused => some locals) with
  | none => .undefined
  | some locals =>
      if locals.ended then .ofAnswer (locals.respond checked world socket) else .waiting

/-- `httpd` on the bytes that a client has sent. -/
def httpd (checked : Bool) (world : World) (socket : Socket) (stream : List Byte)
    (ending : Ending) : Outcome :=
  match Locals.start.takeBytes checked stream with
  | none => .undefined
  | some locals => locals.finish checked world socket ending

/-- A request as a client sends it: the request line and the header lines, and then
an empty line. -/
structure Request where
  line : List Byte
  headers : List (List Byte)
  clean : ∀ text ∈ line :: headers, Line text ∧ 10 ∉ text

def Request.bytes (request : Request) : List Byte :=
  block (request.line :: request.headers)

end LinuxUnix.HttpServer

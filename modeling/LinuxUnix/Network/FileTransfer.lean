import LinuxUnix.Foundation.CMemory
import Mathlib.Data.Int.Init
import Mathlib.Data.Nat.Notation

/-! # The file-transfer servers

`server2`, the child of `pserver` and the threads of `thserver` receive a file
with the same two loops: one byte at a time up to the first newline for the name,
then blocks of up to `MAX_ZEICHEN` bytes for the content. They differ in what
they do after a failed `open` and after they have closed the connection. The code
is modelled as a machine that issues one system call at a time
(`LinuxUnix.FileTransfer.request`) and goes on with what the kernel returned
(`LinuxUnix.FileTransfer.resume`).

The outputs are left out, and with them the count `ngesammt`. An access outside
`puffer` or `path_file` leads to `At.undefined`.
-/

namespace LinuxUnix.FileTransfer

open CMemory

/-- `MAX_ZEICHEN` -/
def maxZeichen : ℕ := 1024

/-- The system calls of the transfer. -/
inductive Request
  | read (fd : ℤ) (count : ℕ)
  | write (fd : ℤ) (data : List Byte)
  /-- `open(path, O_WRONLY | O_CREAT | O_TRUNC, 0644)` -/
  | create (path : List Byte)
  | close (fd : ℤ)
  deriving DecidableEq

/-- What a system call returns: -1, the bytes read, or a number. -/
inductive Reply
  | failed
  | data (bytes : List Byte)
  | value (number : ℕ)
  deriving DecidableEq

/-- Where the code stands. -/
inductive At
  /-- before `read(connfd, &puffer[j], 1)` -/
  | header (j : ℕ)
  /-- before `open` -/
  | openFile
  /-- after a failed `open`, before `close(connfd)` -/
  | refused
  /-- before `read(connfd, puffer, sizeof(puffer))` -/
  | block
  /-- before `write(fd, puffer, n)` -/
  | writing (n : ℕ)
  /-- before `close(fd)` -/
  | closeFile
  /-- before `close(connfd)` -/
  | closeConn
  /-- before the second `close(connfd)` -/
  | closeAgain
  /-- the connection has been served -/
  | done
  /-- after `exit(EXIT_FAILURE)` -/
  | exited
  /-- after an access outside the buffers -/
  | undefined
  deriving DecidableEq

/-- The variables of the transfer. -/
structure Locals where
  puffer : List Byte
  pathFile : List Byte
  connfd : ℤ
  fd : ℤ
  pc : At
  deriving DecidableEq

/-- What distinguishes the three servers: where they go after the `close` that
follows a failed `open`, and after the `close` that ends the transfer. -/
structure Server where
  afterRefused : At
  afterClose : At

/-- `server2` accepts the next connection in both cases. -/
def server2 : Server where
  afterRefused := .done
  afterClose := .done

/-- The child of `pserver` closes the connection once more after the transfer. -/
def pserver : Server where
  afterRefused := .done
  afterClose := .closeAgain

/-- `copy` goes on to its second loop after a failed `open`, and
`threading_socket` closes the connection once more after `copy` has returned. -/
def threadingSocket : Server where
  afterRefused := .block
  afterClose := .closeAgain

/-- `"/tmp/"` -/
def tmpDir : List Byte :=
  ['/'.toUInt8, 't'.toUInt8, 'm'.toUInt8, 'p'.toUInt8, '/'.toUInt8]

/-- The path put together from `$HOME`, `/tmp/` and the string in `puffer`;
there is none if `puffer` holds no NUL or the path does not fit `path_file`. -/
def pathOf (home puffer : List Byte) : Option (List Byte) :=
  if 0 ∈ puffer ∧ (home ++ tmpDir ++ cstr puffer).length < maxZeichen then
    some (home ++ tmpDir ++ cstr puffer)
  else none

/-- From the end of the name loop to the `open` call. -/
def Locals.enterOpen (home : List Byte) (locals : Locals) : Locals :=
  match pathOf home locals.puffer with
  | some path => { locals with pathFile := path, pc := .openFile }
  | none => { locals with pc := .undefined }

/-- The body of the name loop, with the byte that `read` stored. -/
def Locals.takeByte (home : List Byte) (locals : Locals) (j : ℕ) (byte : Byte) : Locals :=
  if j < maxZeichen then
    if byte = 10 then { locals with puffer := locals.puffer.set j 0 }.enterOpen home
    else { locals with puffer := locals.puffer.set j byte, pc := .header (j + 1) }
  else { locals with pc := .undefined }

/-- The next system call, if there is one. -/
def request (locals : Locals) : Option Request :=
  match locals.pc with
  | .header _ => some (.read locals.connfd 1)
  | .openFile => some (.create locals.pathFile)
  | .block => some (.read locals.connfd maxZeichen)
  | .writing n => some (.write locals.fd (locals.puffer.take n))
  | .closeFile => some (.close locals.fd)
  | .refused | .closeConn | .closeAgain => some (.close locals.connfd)
  | .done | .exited | .undefined => none

/-- The variables after a system call has returned. -/
def resume (server : Server) (home : List Byte) (locals : Locals) (reply : Reply) : Locals :=
  match locals.pc with
  | .header j => match reply with
    | .data (byte :: _) => locals.takeByte home j byte
    | .data [] => locals.enterOpen home
    | .failed | .value _ => { locals with pc := .exited }
  | .openFile => match reply with
    | .value number => { locals with fd := number, pc := .block }
    | .failed | .data _ => { locals with fd := -1, pc := .refused }
  | .block => match reply with
    | .data [] => { locals with pc := .closeFile }
    | .data bytes => { locals with
        puffer := overwrite locals.puffer 0 bytes
        pc := .writing bytes.length }
    | .failed | .value _ => { locals with pc := .exited }
  | .writing n =>
      if reply = .value n then { locals with pc := .block } else { locals with pc := .exited }
  | .refused => { locals with pc := server.afterRefused }
  | .closeFile => { locals with pc := .closeConn }
  | .closeConn => { locals with pc := server.afterClose }
  | .closeAgain => { locals with pc := .done }
  | .done | .exited | .undefined => locals

/-- The start of a transfer on a connection; the other variables keep what they
hold. -/
def Locals.begin (locals : Locals) (connfd : ℕ) : Locals :=
  { locals with connfd, pc := .header 0 }

/-- The variables of a server whose stack was clear. -/
def blank : Locals where
  puffer := List.replicate maxZeichen 0
  pathFile := List.replicate maxZeichen 0
  connfd := 0
  fd := 0
  pc := .done

end LinuxUnix.FileTransfer

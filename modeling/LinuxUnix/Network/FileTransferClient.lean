import LinuxUnix.Foundation.TransitionSystem
import LinuxUnix.Network.FileTransfer

/-! # client2.c

For each file the client connects to a server, sends the name of the file with a newline, and
then the file in blocks. `puffer` holds first the path with the newline and a NUL, and then each
block with a NUL behind it: a path that is too long is stored beyond its end, and so is the NUL
behind a full block. The client stays inside `puffer` in exactly those runs in which neither
happens (`LinuxUnix.FileTransferClient.defined_iff_fits`).

The search for the host and the outputs to the terminal are left out, and `sleep`.
-/

namespace LinuxUnix.FileTransferClient

open CMemory FileTransfer TransitionSystem

/-- `EXIT_SUCCESS` and `EXIT_FAILURE`. -/
inductive Status
  | exitSuccess
  | exitFailure
  deriving DecidableEq

/-- Where the client stands. -/
inductive At
  /-- before `socket` and `connect`, for a file -/
  | connecting (path : List Byte)
  /-- before `open` -/
  | opening (path : List Byte)
  /-- before `write(sockfd, help, name_len)` -/
  | naming
  /-- before `read(fd, puffer, sizeof(puffer))` -/
  | reading
  /-- before `write(sockfd, puffer, n)` -/
  | sending (n : ℕ)
  | returned (status : Status)
  /-- after an access outside of `puffer` -/
  | undefined
  deriving DecidableEq

/-- Where the client stands, the arguments behind the present one, and `puffer`. -/
structure State where
  place : At
  argv : List (List Byte)
  puffer : List Byte
  deriving DecidableEq

/-- The next file, if there is one. -/
def State.nextFile (state : State) : State :=
  match state.argv with
  | [] => { state with place := .returned .exitSuccess }
  | path :: argv => { state with place := .connecting path, argv := argv }

def start (argv : List (List Byte)) (puffer : List Byte) : State :=
  { place := .reading, argv := argv, puffer := puffer : State }.nextFile

def State.exit (state : State) : State :=
  { state with place := .returned .exitFailure }

/-- `strcpy(puffer, argv[i])` and `strcat(puffer, "\n")` -/
def storeName (state : State) (path : List Byte) : State :=
  if (cstr path).length + 2 ≤ maxZeichen then
    { state with place := .naming, puffer := overwrite state.puffer 0 (cstr path ++ [10] ++ [0]) }
  else { state with place := .undefined }

/-- `help`: what stands behind the last slash of a string. -/
def help (text : List Byte) : List Byte :=
  (text.reverse.takeWhile (· != 47)).reverse

/-- `puffer[n] = 0`, behind the bytes that `read` has stored. -/
def storeBlock (state : State) (bytes : List Byte) : State :=
  if bytes.length < maxZeichen then
    { state with
      place := .sending bytes.length
      puffer := (overwrite state.puffer 0 bytes).set bytes.length 0 }
  else { state with place := .undefined }

/-- The client after a call has returned. A `read` returns as many bytes as are asked for at
most. -/
def next (state : State) (reply : Reply) : Option State :=
  match state.place with
  | .connecting path =>
      match reply with
      | .failed => some state.exit
      | .value _ => some { state with place := .opening path }
      | .data _ => none
  | .opening path =>
      match reply with
      | .failed => some state.nextFile
      | .value _ => some (storeName state path)
      | .data _ => none
  | .naming =>
      match reply with
      | .failed => some state.nextFile
      | .value number =>
          if number = (help (cstr state.puffer)).length then some { state with place := .reading }
          else some state.nextFile
      | .data _ => none
  | .reading =>
      match reply with
      | .failed => some state.exit
      | .data bytes =>
          if bytes = [] then some state.nextFile
          else if bytes.length ≤ maxZeichen then some (storeBlock state bytes)
          else none
      | .value _ => none
  | .sending n =>
      match reply with
      | .failed => some state.exit
      | .value number => some (if number = n then { state with place := .reading } else state.exit)
      | .data _ => none
  | .returned _ | .undefined => none

/-- How many bytes are stored in `puffer`: a path with the newline and a NUL, or a block with a
NUL. -/
def filled (state : State) (reply : Reply) : ℕ :=
  match state.place, reply with
  | .opening path, .value _ => (cstr path).length + 2
  | .reading, .data bytes => bytes.length + 1
  | _, _ => 0

/-- What is stored fits `puffer`. -/
def Fits (state : State) (reply : Reply) : Prop := filled state reply ≤ maxZeichen

instance (state : State) (reply : Reply) : Decidable (Fits state reply) :=
  inferInstanceAs (Decidable (_ ≤ _))

variable {before after : State} {reply : Reply}

theorem nextFile_ne_undefined (state : State) : state.nextFile.place ≠ .undefined := by
  rw [State.nextFile]
  split
  · exact At.noConfusion
  · exact At.noConfusion

theorem storeName_iff (state : State) (path : List Byte) :
    (storeName state path).place ≠ .undefined ↔ (cstr path).length + 2 ≤ maxZeichen := by
  rw [storeName]
  split
  · rename_i fits
    exact iff_of_true At.noConfusion fits
  · rename_i long
    exact iff_of_false (fun defined => defined rfl) long

theorem storeBlock_iff (state : State) (bytes : List Byte) :
    (storeBlock state bytes).place ≠ .undefined ↔ bytes.length < maxZeichen := by
  rw [storeBlock]
  split
  · rename_i fits
    exact iff_of_true At.noConfusion fits
  · rename_i long
    exact iff_of_false (fun defined => defined rfl) long

/-- A step stays inside `puffer` if and only if what is stored fits. -/
theorem defined_step (moved : next before reply = some after) :
    after.place ≠ .undefined ↔ Fits before reply := by
  unfold next at moved
  split at moved
  · rename_i path here
    have fits : Fits before reply := by
      simp only [Fits, filled, here, Nat.zero_le]
    split at moved
    · cases moved
      exact iff_of_true At.noConfusion fits
    · cases moved
      exact iff_of_true At.noConfusion fits
    · cases moved
  · rename_i path here
    split at moved
    · cases moved
      refine iff_of_true (nextFile_ne_undefined _) ?_
      simp only [Fits, filled, here, Nat.zero_le]
    · cases moved
      simp only [Fits, filled, here]
      exact storeName_iff before path
    · cases moved
  · rename_i here
    have fits : Fits before reply := by
      simp only [Fits, filled, here, Nat.zero_le]
    refine iff_of_true ?_ fits
    split at moved
    · cases moved
      exact nextFile_ne_undefined _
    · split at moved
      · cases moved
        exact At.noConfusion
      · cases moved
        exact nextFile_ne_undefined _
    · cases moved
  · rename_i here
    split at moved
    · cases moved
      refine iff_of_true At.noConfusion ?_
      simp only [Fits, filled, here, Nat.zero_le]
    · rename_i bytes
      simp only [Fits, filled, here]
      split at moved
      · rename_i empty
        cases moved
        rw [empty]
        exact iff_of_true (nextFile_ne_undefined _) (by decide)
      · split at moved
        · cases moved
          exact storeBlock_iff before bytes
        · cases moved
    · cases moved
  · rename_i n here
    have fits : Fits before reply := by
      simp only [Fits, filled, here, Nat.zero_le]
    refine iff_of_true ?_ fits
    split at moved
    · cases moved
      exact At.noConfusion
    · cases moved
      split
      · exact At.noConfusion
      · exact At.noConfusion
    · cases moved
  · cases moved
  · cases moved

/-- **The client.** A run has stayed inside `puffer` if and only if everything stored in it has
fitted. -/
theorem defined_iff_fits {argv : List (List Byte)} {puffer : List Byte} {replies : List Reply}
    (executed : run next (start argv puffer) replies = some after) :
    after.place ≠ .undefined ↔ Along Fits next (start argv puffer) replies := by
  have stays : ∀ before reply after, before.place = .undefined →
      next before reply = some after → after.place = .undefined := by
    intro before reply after undefined moved
    unfold next at moved
    rw [undefined] at moved
    cases moved
  rcases run_decides (fun _ _ _ _ fits moved => (defined_step moved).mpr fits)
    (fun _ _ _ _ long moved => not_not.mp fun defined => long ((defined_step moved).mp defined))
    stays (nextFile_ne_undefined _) executed with ⟨along, defined⟩ | ⟨strayed, undefined⟩
  · exact iff_of_true defined along
  · exact iff_of_false (fun defined => defined undefined) strayed

end LinuxUnix.FileTransferClient

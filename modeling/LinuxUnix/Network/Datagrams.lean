import LinuxUnix.Foundation.Cells
import Mathlib.Data.List.Induction

/-! # udp_server.c and multicast_client.c

Both programs receive datagrams in an array and print the string at its start. udp_server.c
clears all bytes but the last one before each datagram, and reads that byte, which nobody
writes, if the datagram fills the others without a NUL. multicast_client.c clears nothing: it
prints a datagram as it is only if an earlier, longer one has left a NUL behind it
(`LinuxUnix.Datagrams.shown_iff`).

The sockets are left out, and what else is printed on a line: the time, the sender, the number
of the answer.
-/

namespace LinuxUnix.Datagrams

open CMemory Cells

/-- `BUF` in udp_server.c. -/
def buf : ℕ := 255

/-- How `recvfrom` turns out: a datagram, or `-1`. -/
abbrev Reply := Option (List Byte)

/-- The array of a program, and the strings that it has printed; a string that is not defined
is `none`. -/
structure State where
  array : List Cell
  printed : List (Option (List Byte))

/-- The programs start with an array of 256 cells. -/
def start : State where
  array := List.replicate 256 none
  printed := []

/-- `printf` with the array for `%s`. -/
def State.print (state : State) : State :=
  { state with printed := state.printed ++ [string state.array] }

/-- `recvfrom` with room for so many bytes; it leaves out the rest of a datagram. -/
def State.recvfrom (state : State) (size : ℕ) (datagram : List Byte) : State :=
  { state with array := store state.array (datagram.take size) }

/-- `memset(puffer, 0, BUF)` -/
def State.memset (state : State) : State :=
  { state with array := store state.array (List.replicate buf 0) }

/-- A round of the loop in udp_server.c. -/
def serverRound (state : State) : Reply → State
  | none => state.memset
  | some datagram => (state.memset.recvfrom buf datagram).print

/-- A round of the loop in multicast_client.c. -/
def clientRound (state : State) : Reply → State
  | none => state.print
  | some datagram => (state.recvfrom 256 datagram).print

/-- What udp_server.c prints after some replies. -/
def udpServer (replies : List Reply) : State :=
  replies.foldl serverRound start

/-- What multicast_client.c prints after some replies: there are ten rounds. -/
def multicastClient (replies : List Reply) : State :=
  (replies.take 10).foldl clientRound start

/-- The datagrams of udp_client.c: its arguments behind the server, each with its NUL. -/
def udpClient (argv : List (List Byte)) : List (List Byte) :=
  (argv.drop 2).map (· ++ [0])

/-- The datagrams of multicast_server.c: the text without its NUL. -/
def broadcastTxt : List Byte := "broadcast test (hallo client)".toUTF8.toList

/-- The text of a datagram: up to its first NUL, or the first 255 bytes without one. -/
def textOf (datagram : List Byte) : List Byte :=
  if 0 ∈ datagram then cstr datagram else datagram.take buf

/-- udp_server.c prints the text of a datagram. -/
def ServerShows (earlier : List Reply) (datagram : List Byte) : Prop :=
  (udpServer (earlier ++ [some datagram])).printed.getLast? = some (some (textOf datagram))

/-- multicast_client.c prints the bytes that it has received of a datagram. -/
def ClientShows (earlier : List Reply) (datagram : List Byte) : Prop :=
  (multicastClient (earlier ++ [some datagram])).printed.getLast? = some (some (datagram.take 256))

/-- The byte at an index in a datagram that has one there. -/
def byteAt (index : ℕ) (reply : Reply) : Option Byte :=
  reply.bind fun datagram => (datagram.take 256)[index]?

/-- The byte at an index in the last datagram that has one there. -/
def lastAt (replies : List Reply) (index : ℕ) : Option Byte :=
  (replies.filterMap (byteAt index)).getLast?

variable {earlier : List Reply} {datagram : List Byte}

theorem lastAt_concat (replies : List Reply) (reply : Reply) (index : ℕ) :
    lastAt (replies ++ [reply]) index =
      (byteAt index reply).or (lastAt replies index) := by
  rw [lastAt, List.filterMap_append, List.getLast?_append]
  cases found : byteAt index reply with
  | none =>
      rw [List.filterMap_cons_none found]
      rfl
  | some byte =>
      rw [List.filterMap_cons_some found]
      rfl

/-- No datagram has a byte behind the array. -/
theorem lastAt_lt {replies : List Reply} {index : ℕ} {byte : Byte}
    (found : lastAt replies index = some byte) : index < 256 := by
  obtain ⟨reply, -, there⟩ := List.mem_filterMap.mp (List.mem_of_getLast? found)
  obtain ⟨datagram, -, inside⟩ := Option.bind_eq_some_iff.mp there
  exact Nat.lt_of_lt_of_le (List.getElem?_eq_some_iff.mp inside).1 (List.length_take_le ..)

/-- The last byte of the array in udp_server.c is never written. -/
theorem drop_udpServer (replies : List Reply) : (udpServer replies).array.drop buf = [none] := by
  induction replies using List.reverseRecOn with
  | nil => rfl
  | append_singleton replies reply ih =>
      have cleared : (udpServer replies).memset.array.drop buf = [none] := by
        rw [State.memset, drop_store (Nat.le_of_eq List.length_replicate), ih]
      rw [udpServer, List.foldl_append]
      cases reply with
      | none => exact cleared
      | some datagram =>
          change (store _ _).drop buf = _
          rw [drop_store (List.length_take_le ..)]
          exact cleared

/-- What udp_server.c prints for a datagram. -/
theorem printed_udpServer (earlier : List Reply) (datagram : List Byte) :
    (udpServer (earlier ++ [some datagram])).printed.getLast? = some (
      if 0 ∈ datagram.take buf then some (cstr (datagram.take buf))
      else if datagram.length < buf then some datagram else none) := by
  have cleared : (udpServer earlier).memset.array =
      List.replicate buf (some 0) ++ [none] := by
    rw [State.memset, store, List.map_replicate, List.length_replicate, drop_udpServer]
  have printed : (udpServer (earlier ++ [some datagram])).printed.getLast? =
      some (string (store (List.replicate buf (some 0) ++ [none]) (datagram.take buf))) := by
    rw [udpServer, List.foldl_append, ← cleared]
    exact List.getLast?_concat ..
  rw [printed, store, string_append]
  split
  · rfl
  · by_cases short : datagram.length < buf
    · have whole : datagram.take buf = datagram := List.take_of_length_le (Nat.le_of_lt short)
      have more : buf - datagram.length = buf - datagram.length - 1 + 1 := by omega
      rw [if_pos short, whole, List.drop_append_of_le_length (by
        rw [List.length_replicate]
        exact Nat.le_of_lt short), List.drop_replicate, more, List.replicate_succ]
      simp [string]
    · have full : (datagram.take buf).length = buf :=
        List.length_take_of_le (Nat.le_of_not_lt short)
      rw [if_neg short, full, List.drop_left' List.length_replicate]
      rfl

/-- udp_server.c prints the text of a datagram if a NUL comes in time. -/
theorem serverShows_iff :
    ServerShows earlier datagram ↔ datagram.length < buf ∨ 0 ∈ datagram.take buf := by
  rw [ServerShows, printed_udpServer, Option.some.injEq, textOf]
  have whole := List.take_append_drop buf datagram
  by_cases terminated : 0 ∈ datagram.take buf
  · have same := cstr_append_of_mem terminated (datagram.drop buf)
    rw [whole] at same
    rw [if_pos terminated, if_pos (List.mem_of_mem_take terminated), same]
    exact iff_of_true rfl (.inr terminated)
  · rw [if_neg terminated, or_iff_left terminated]
    by_cases short : datagram.length < buf
    · have all : datagram.take buf = datagram := List.take_of_length_le (Nat.le_of_lt short)
      rw [all] at terminated
      rw [if_pos short, if_neg terminated, all]
      exact iff_of_true rfl short
    · rw [if_neg short]
      exact iff_of_false nofun short

/-- A round of multicast_client.c stores a datagram. -/
theorem array_clientRound (replies : List Reply) (index : ℕ) :
    (replies.foldl clientRound start).array[index]? =
      if index < 256 then some (lastAt replies index) else none := by
  induction replies using List.reverseRecOn with
  | nil =>
      rw [List.foldl_nil, start, List.getElem?_replicate]
      rfl
  | append_singleton replies reply ih =>
      rw [List.foldl_append, lastAt_concat]
      cases reply with
      | none => exact ih
      | some datagram =>
          change (store _ _)[index]? = _
          rw [getElem?_store, ih]
          have short : (datagram.take 256).length ≤ 256 := List.length_take_le ..
          by_cases inside : index < (datagram.take 256).length
          · rw [if_pos inside, if_pos (Nat.lt_of_lt_of_le inside short), byteAt, Option.bind_some,
              List.getElem?_eq_getElem inside]
            rfl
          · rw [if_neg inside, byteAt, Option.bind_some,
              List.getElem?_eq_none (Nat.le_of_not_lt inside), Option.none_or]

/-- What multicast_client.c prints for a datagram. -/
theorem printed_multicastClient (open_ : earlier.length < 10) (datagram : List Byte) :
    (multicastClient (earlier ++ [some datagram])).printed.getLast? = some (
      if 0 ∈ datagram.take 256 then some (cstr (datagram.take 256))
      else (string ((earlier.foldl clientRound start).array.drop (datagram.take 256).length)).map
        (datagram.take 256 ++ ·)) := by
  have rounds : (earlier ++ [some datagram]).take 10 = earlier ++ [some datagram] :=
    List.take_of_length_le (by rwa [List.length_append])
  have printed : (multicastClient (earlier ++ [some datagram])).printed.getLast? =
      some (string (store (earlier.foldl clientRound start).array (datagram.take 256))) := by
    rw [multicastClient, rounds, List.foldl_append]
    exact List.getLast?_concat ..
  rw [printed, store, string_append]

/-- multicast_client.c prints a datagram as it is if it holds no NUL, and finds one behind it. -/
theorem clientShows_iff (open_ : earlier.length < 10) : ClientShows earlier datagram ↔
    0 ∉ datagram.take 256 ∧ lastAt earlier (datagram.take 256).length = some 0 := by
  rw [ClientShows, printed_multicastClient open_, Option.some.injEq]
  split
  · rename_i terminated
    apply iff_of_false
    · intro same
      rw [Option.some.injEq] at same
      exact zero_not_mem_cstr _ (same.symm ▸ terminated)
    · exact fun clean => clean.1 terminated
  · rename_i clean
    rw [and_iff_right clean]
    have behind : ((earlier.foldl clientRound start).array.drop
        (datagram.take 256).length).head? = some (some 0) ↔
        lastAt earlier (datagram.take 256).length = some 0 := by
      rw [List.head?_drop, array_clientRound]
      split
      · exact Option.some_inj
      · rename_i full
        exact iff_of_false nofun fun found => full (lastAt_lt found)
    rw [← behind, ← string_eq_nil_iff]
    constructor
    · intro printed
      obtain ⟨rest, found, same⟩ := Option.map_eq_some_iff.mp printed
      rw [List.append_right_eq_self] at same
      rw [found, same]
    · intro found
      rw [found, Option.map_some, List.append_nil]

/-- A text with its NUL is shown if the NUL has room. -/
theorem serverShows_argument {argument : List Byte} (clean : 0 ∉ argument) :
    ServerShows earlier (argument ++ [0]) ↔ argument.length < buf := by
  rw [serverShows_iff, List.length_append, List.length_singleton]
  constructor
  · rintro (short | terminated)
    · exact Nat.lt_of_succ_lt short
    · by_contra long
      rw [List.take_append_of_le_length (Nat.le_of_not_lt long)] at terminated
      exact clean (List.mem_of_mem_take terminated)
  · intro short
    right
    have whole : (argument ++ [0]).take buf = argument ++ [0] :=
      List.take_of_length_le (by rwa [List.length_append])
    rw [whole]
    exact List.mem_append_right _ List.mem_cons_self

/-- A datagram of udp_client.c is shown if it fits `puffer` with its NUL. -/
theorem serverShows_udpClient {argv : List (List Byte)} (clean : ∀ argument ∈ argv, 0 ∉ argument)
    (sent : datagram ∈ udpClient argv) : ServerShows earlier datagram ↔ datagram.length ≤ buf := by
  obtain ⟨argument, there, rfl⟩ := List.mem_map.mp sent
  rw [serverShows_argument (clean argument (List.mem_of_mem_drop there)), List.length_append,
    List.length_singleton, Nat.lt_iff_add_one_le]

end LinuxUnix.Datagrams

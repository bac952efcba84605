import LinuxUnix.Network.FileTransferClient
import LinuxUnix.Network.FileTransferPaths

/-! # The buffers of the file transfer

The client and the servers fill arrays of 1024 bytes. The servers store the bytes before the
first newline one by one, without counting them, and put the name behind `$HOME`; the client
stores a path and blocks with a NUL behind them. All of them stay inside their arrays for
exactly those inputs that leave room for the terminators
(`LinuxUnix.FileTransfer.inBounds_iff_fits`).
-/

namespace LinuxUnix.FileTransfer

open CMemory DescriptorTable FileTransferClient TransitionSystem

/-- However far a transfer gets, there has been no access outside the buffers. -/
def InBounds (server : Server) (home : List Byte) (locals : Locals) (connection : Connection)
    (opens : List Byte → Bool) : Prop :=
  ∀ state, Reaches (tick server home)
      (locals.begin connection.connfd, connection.accepted opens) state →
    state.1.pc ≠ .undefined

/-- The path below `$HOME` fits `path_file`. -/
def PathFits (home name : List Byte) : Prop :=
  (home ++ tmpDir ++ cstr name).length < maxZeichen

/-- The bytes before the first newline leave room for a NUL, and their path fits; where there
is no newline, all the bytes fit, and the path of the string that they make together with what
stands behind them in `puffer`. -/
def NameFits (home puffer bytes : List Byte) : Prop :=
  if 10 ∈ bytes then
    (bytes.takeWhile (· != 10)).length < maxZeichen ∧
      PathFits home (bytes.takeWhile (· != 10))
  else
    bytes.length ≤ maxZeichen ∧ 0 ∈ bytes ++ puffer.drop bytes.length ∧
      PathFits home (bytes ++ puffer.drop bytes.length)

variable {server : Server} {home : List Byte} {locals : Locals} {connection : Connection}
  {opens : List Byte → Bool}

theorem pathOf_ne_none_iff {puffer : List Byte} :
    pathOf home puffer ≠ none ↔ 0 ∈ puffer ∧ PathFits home puffer := by
  rw [pathOf, PathFits]
  split
  · rename_i fits
    exact iff_of_true (Option.some_ne_none _) fits
  · rename_i long
    exact iff_of_false (fun some_ => some_ rfl) long

/-- The name loop leaves a path exactly if the name fits. -/
theorem nameFits_iff (home puffer bytes : List Byte) :
    NameFits home puffer bytes ↔ ∃ stored ∈ received puffer bytes, pathOf home stored ≠ none := by
  have of_some {stored : List Byte} (there : received puffer bytes = some stored) :
      (∃ stored ∈ received puffer bytes, pathOf home stored ≠ none) ↔
        0 ∈ stored ∧ PathFits home stored := by
    rw [there, ← pathOf_ne_none_iff]
    constructor
    · rintro ⟨_, same, some_⟩
      cases same
      exact some_
    · exact fun some_ => ⟨stored, rfl, some_⟩
  have of_none (there : received puffer bytes = none) :
      ¬ ∃ stored ∈ received puffer bytes, pathOf home stored ≠ none := by
    rintro ⟨_, same, _⟩
    rw [there] at same
    cases same
  rw [NameFits]
  by_cases newline : 10 ∈ bytes
  · rw [if_pos newline]
    by_cases short : (bytes.takeWhile (· != 10)).length < maxZeichen
    · rw [of_some (by rw [received, if_pos newline, if_pos short]), PathFits, PathFits,
        cstr_overwrite]
      exact and_congr_left fun _ => iff_of_true short (zero_mem_overwrite ..)
    · exact iff_of_false (fun fits => short fits.1)
        (of_none (by rw [received, if_pos newline, if_neg short]))
  · rw [if_neg newline]
    by_cases short : bytes.length ≤ maxZeichen
    · rw [of_some (by rw [received, if_neg newline, if_pos short]), overwrite, List.take_zero,
        List.nil_append, Nat.zero_add]
      exact and_iff_right short
    · exact iff_of_false (fun fits => short fits.1)
        (of_none (by rw [received, if_neg newline, if_neg short]))

/-- The servers stay inside their buffers exactly if the name fits. -/
theorem inBounds_iff (known : server ∈ [server2, pserver, threadingSocket])
    (size : locals.puffer.length = maxZeichen) :
    InBounds server home locals connection opens ↔
      NameFits home locals.puffer connection.bytes := by
  have outcome := run_of_received server home connection opens size
  rw [nameFits_iff]
  cases made : (received locals.puffer connection.bytes).bind (pathOf home) with
  | none =>
      rw [made] at outcome
      obtain ⟨final, run, undefined⟩ := outcome
      refine iff_of_false (fun inside => inside final run undefined) ?_
      rintro ⟨stored, stores, path⟩
      rw [Option.mem_def.mp stores, Option.bind_some] at made
      exact path made
  | some file =>
      rw [made] at outcome
      obtain ⟨opening, run, pc, _⟩ := outcome
      obtain ⟨stored, stores, path⟩ := Option.bind_eq_some_iff.mp made
      refine iff_of_true (fun state reached => (safe_of_opening known run pc reached).1)
        ⟨stored, stores, ?_⟩
      rw [path]
      exact Option.some_ne_none file

/-- **The buffers.** In every run the client has stayed inside `puffer` if and only if the paths
of the files and the blocks have left room for their terminators, and on every connection a
server stays inside `puffer` and `path_file` if and only if the name fits. -/
theorem inBounds_iff_fits (argv : List (List Byte)) (puffer : List Byte) (replies : List Reply)
    (home : List Byte) (connection : Connection) (opens : List Byte → Bool)
    (known : server ∈ [server2, pserver, threadingSocket])
    (size : locals.puffer.length = maxZeichen) :
    (∀ state, run next (start argv puffer) replies = some state →
      (state.place ≠ .undefined ↔ Along Fits next (start argv puffer) replies)) ∧
    (InBounds server home locals connection opens ↔
      NameFits home locals.puffer connection.bytes) :=
  ⟨fun _ executed => defined_iff_fits executed, inBounds_iff known size⟩

/-- The client connects, opens the file, sends its name, reads and sends one byte, and is at
the end of the file. -/
def oneByte : List Reply :=
  [.value 0, .value 3, .value 2, .data [120], .value 1, .data []]

theorem inBounds_upload :
    (∃ state, run next (start [[97]] (List.replicate maxZeichen 0)) oneByte = some state ∧
      state.place ≠ .undefined) ∧
    InBounds threadingSocket [47] blank upload fun _ => true := by
  have known : threadingSocket ∈ [server2, pserver, threadingSocket] := by simp
  have size : blank.puffer.length = maxZeichen := List.length_replicate
  obtain ⟨client, served⟩ := inBounds_iff_fits [[97]] (List.replicate maxZeichen 0) oneByte [47]
    upload (fun _ => true) known size
  constructor
  · have executed :
        (run next (start [[97]] (List.replicate maxZeichen 0)) oneByte).isSome = true := by
      decide +kernel
    obtain ⟨state, executed⟩ := Option.isSome_iff_exists.mp executed
    exact ⟨state, executed, (client state executed).mpr (by decide +kernel)⟩
  · rw [served, NameFits, if_pos (by decide)]
    exact ⟨by decide, by unfold PathFits; decide⟩

/-- A file whose first block is full, and a name of 1025 bytes. -/
theorem not_inBounds_of_longData :
    (¬ ∀ argv puffer replies state, run next (start argv puffer) replies = some state →
      state.place ≠ .undefined) ∧
    ¬ ∀ (server : Server) (home : List Byte) (locals : Locals) (connection : Connection)
      (opens : List Byte → Bool), server ∈ [server2, pserver, threadingSocket] →
        locals.puffer.length = maxZeichen → InBounds server home locals connection opens := by
  constructor
  · intro claim
    have overrun : (run next (start [[97]] (List.replicate maxZeichen 0))
        [.value 0, .value 3, .value 2, .data (List.replicate 1024 120)]).map State.place =
          some .undefined := by
      decide +kernel
    obtain ⟨state, executed, undefined⟩ := Option.map_eq_some_iff.mp overrun
    exact claim _ _ _ _ executed undefined
  · intro claim
    have inside := claim server2 [47] blank { upload with bytes := List.replicate 1025 97 }
      (fun _ => true) (by simp) List.length_replicate
    rw [inBounds_iff (by simp) List.length_replicate, NameFits, if_neg] at inside
    · have long := inside.1
      rw [List.length_replicate] at long
      exact absurd long (by decide)
    · intro newline
      cases List.eq_of_mem_replicate newline

end LinuxUnix.FileTransfer

import LinuxUnix.Foundation.LineInput

/-! # pipe3b.c and popen1.c

Both programs write a file to the filter. popen1.c copies it with `fgets` and `fputs`, and
writes exactly its bytes (`LinuxUnix.FilterPipes.popen1_eq`). pipe3b.c reads one block of
`PIPE_BUF` bytes, without a NUL behind them, and writes the string that begins there: what is
missing of a longer file, or stands behind a shorter one, is what the array happened to hold
(`LinuxUnix.FilterPipes.feeds_iff`).

The calls of `fopen`, `pipe`, `fork` and `popen` are taken to succeed, and the writes too.
-/

namespace LinuxUnix.FilterPipes

open CMemory

/-- `PIPE_BUF` -/
def pipeBuf : ℕ := 4096

/-- `MAX` of both programs. -/
def max : ℕ := pipeBuf * 8

/-- What an array `puffer` holds when the program starts. -/
structure Memory where
  bytes : List Byte
  size : bytes.length = max

/-- `fputs`: without a NUL it reads past the array. -/
def fputs (puffer : List Byte) : Option (List Byte) :=
  if 0 ∈ puffer then some (cstr puffer) else none

/-- What the parent in pipe3b.c writes: `fread` has stored the first block of the file. -/
def pipe3b (puffer file : List Byte) : Option (List Byte) :=
  fputs (overwrite puffer 0 (file.take pipeBuf))

/-- The loop of popen1.c over what `fgets` reads. -/
def copyPieces : List Byte → List (List Byte) → Option (List Byte)
  | _, [] => some []
  | puffer, piece :: pieces =>
      let puffer := overwrite puffer 0 (piece ++ [0])
      (fputs puffer).bind fun written => (copyPieces puffer pieces).map (written ++ ·)

/-- What popen1.c writes. -/
def popen1 (puffer file : List Byte) : Option (List Byte) :=
  copyPieces puffer (LineInput.pieces max file)

/-- Both programs write exactly the bytes of the file. -/
def Feeds (file : List Byte) (memory memory' : Memory) : Prop :=
  pipe3b memory.bytes file = some file ∧ popen1 memory'.bytes file = some file

/-- What the array of pipe3b.c holds behind the block that `fread` stores. -/
def behind (memory : Memory) (file : List Byte) : List Byte :=
  memory.bytes.drop (file.take pipeBuf).length

variable {file : List Byte}

/-- Pieces without NUL are copied as they are. -/
theorem copyPieces_eq {pieces : List (List Byte)} (clean : ∀ piece ∈ pieces, 0 ∉ piece) :
    ∀ puffer, copyPieces puffer pieces = some pieces.flatten := by
  induction pieces with
  | nil =>
      intro puffer
      rfl
  | cons piece pieces ih =>
      intro puffer
      have rest := ih fun other member => clean other (List.mem_cons_of_mem _ member)
      rw [copyPieces, fputs, if_pos (zero_mem_overwrite ..), Option.bind_some, rest,
        Option.map_some, cstr_overwrite, cstr_eq_self (clean piece List.mem_cons_self),
        List.flatten_cons]

/-- popen1.c writes the file. -/
theorem popen1_eq (clean : 0 ∉ file) (puffer : List Byte) : popen1 puffer file = some file := by
  have whole : (LineInput.pieces max file).flatten = file := LineInput.flatten_pieces (by decide) file
  rw [popen1, copyPieces_eq, whole]
  intro piece member zero
  apply clean
  rw [← whole]
  exact List.mem_flatten_of_mem member zero

/-- pipe3b.c writes the file if and only if the array holds what is missing, and a NUL. -/
theorem pipe3b_eq_iff (clean : 0 ∉ file) (memory : Memory) :
    pipe3b memory.bytes file = some file ↔
      0 ∈ behind memory file ∧ cstr (behind memory file) = file.drop pipeBuf := by
  have block : 0 ∉ file.take pipeBuf := fun member => clean (List.mem_of_mem_take member)
  have stored : overwrite memory.bytes 0 (file.take pipeBuf) =
      file.take pipeBuf ++ behind memory file := by
    rw [overwrite, List.take_zero, List.nil_append, Nat.zero_add]
    rfl
  rw [pipe3b, stored, fputs, cstr_append_of_clean block, Option.ite_none_right_eq_some,
    Option.some.injEq, List.mem_append, or_iff_right block]
  apply and_congr_right
  intro _
  have whole := List.take_append_drop pipeBuf file
  constructor
  · intro same
    exact List.append_cancel_left (same.trans whole.symm)
  · intro rest
    rw [rest, whole]

/-- An array that holds one byte only. -/
def filled (byte : Byte) : Memory where
  bytes := List.replicate max byte
  size := List.length_replicate

theorem behind_filled (byte : Byte) (file : List Byte) :
    behind (filled byte) file = List.replicate (max - (file.take pipeBuf).length) byte :=
  List.drop_replicate

/-- Behind the block there is always something left of the array. -/
theorem behind_filled_zero (file : List Byte) :
    0 ∈ behind (filled 0) file ∧ cstr (behind (filled 0) file) = [] := by
  have short : (file.take pipeBuf).length ≤ pipeBuf := List.length_take_le ..
  have more : max - (file.take pipeBuf).length = max - (file.take pipeBuf).length - 1 + 1 := by
    have large : pipeBuf < max := by decide
    omega
  rw [behind_filled, more, List.replicate_succ, cstr_zero_cons]
  exact ⟨List.mem_cons_self, rfl⟩

/-- Both programs feed the filter the file if and only if the array of pipe3b.c happens to hold
the bytes behind the first block, and a NUL behind them. -/
theorem feeds_iff (clean : 0 ∉ file) (memory memory' : Memory) :
    Feeds file memory memory' ↔
      0 ∈ behind memory file ∧ cstr (behind memory file) = file.drop pipeBuf := by
  rw [Feeds, and_iff_left (popen1_eq clean _), pipe3b_eq_iff clean]

/-- A short file, and an array of zeros. -/
theorem feeds_shortFile : Feeds [97, 10] (filled 0) (filled 0) := by
  refine (feeds_iff (by decide) _ _).mpr ⟨(behind_filled_zero _).1, ?_⟩
  rw [(behind_filled_zero _).2]
  rfl

/-- Of a file that is larger than a block only the first block is written. -/
theorem not_feeds_largeFile : ¬ ∀ file memory memory', 0 ∉ file → Feeds file memory memory' := by
  intro claim
  have clean : (0 : Byte) ∉ List.replicate (pipeBuf + 1) 97 := by
    intro zero
    exact absurd (List.eq_of_mem_replicate zero) (by decide)
  have written := (pipe3b_eq_iff clean (filled 0)).mp (claim _ (filled 0) (filled 0) clean).1
  have rest := written.2
  rw [(behind_filled_zero _).2, List.drop_replicate, Nat.add_sub_cancel_left] at rest
  exact List.cons_ne_nil _ _ rest.symm

/-- No file is fed right whatever the array holds. -/
theorem exists_not_feeds (clean : 0 ∉ file) : ∃ memory, ∀ memory', ¬ Feeds file memory memory' := by
  refine ⟨filled 1, fun memory' feeds => ?_⟩
  have zero := ((pipe3b_eq_iff clean _).mp feeds.1).1
  rw [behind_filled] at zero
  exact absurd (List.eq_of_mem_replicate zero) (by decide)

end LinuxUnix.FilterPipes

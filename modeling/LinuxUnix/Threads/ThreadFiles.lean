import LinuxUnix.Foundation.Decimal
import LinuxUnix.Foundation.ProcessCount
import LinuxUnix.Foundation.Rewriting
import LinuxUnix.Foundation.TransitionSystem

/-! # thread17.c

Each thread keeps a stream of its own under a key that all of them share, writes two lines to it, and
leaves the `fclose` to the destructor of the key. The name of the file has the number of the thread in
it, but is cut off behind 19 characters, so that two threads may write to the same file at the same
time. Whatever order they go in, and in whatever pieces the streams are written out, a file that has
been opened holds the two lines as soon as nobody has it open, and each stream is closed once
(`LinuxUnix.ThreadFiles.kept_of_reachable`).

The headlines of `main` are left out. The calls of `pthread_create`, `pthread_setspecific` and `write`
succeed.
-/

namespace LinuxUnix.ThreadFiles

open CMemory OpenFiles Rewriting TransitionSystem

/-- `MAX_THREADS` -/
def maxThreads : ℕ := 3

abbrev Thread := Fin maxThreads

abbrev Path := List Byte

/-- Where `main` is. -/
inductive MainAt
  /-- before the `pthread_create` of this thread, or behind the loop -/
  | creating (i : ℕ)
  /-- before the `pthread_join` of this thread, or behind the loop -/
  | joining (i : ℕ)
  | ended
  deriving DecidableEq

/-- Where a thread is. -/
inductive At
  | absent
  /-- before `fopen` -/
  | opening
  /-- before `pthread_setspecific` -/
  | setting
  /-- before `thread_write` of these texts -/
  | writing (texts : List (List Byte))
  /-- in `pthread_exit` -/
  | exiting
  /-- in `thread_close` for this stream -/
  | closing (stream : Thread)
  | done
  /-- it has written to a stream that is not there -/
  | crashed
  deriving DecidableEq

/-- The threads, what each of them has under the key, and the streams, which go by the thread that has
opened them: what they have not written out yet, and which of them have been closed. -/
structure State where
  main : MainAt
  place : Thread → At
  specific : Thread → Option Thread
  buffer : Thread → List Byte
  files : OpenFiles Path Thread Byte
  closed : List Thread

inductive Action
  | main
  | thread (thread : Thread)
  | openFails (thread : Thread)
  /-- a stream writes so many bytes out -/
  | flush (stream : Thread) (n : ℕ)

/-- `th_fpname` of a thread with this number. -/
def fpname (id : ℤ) : Path :=
  ("thread".toUTF8.toList ++ Decimal.print id ++ ".thread".toUTF8.toList).take 19

/-- The texts that a thread writes. -/
def texts : List (List Byte) :=
  ["Thread wurde gestartet ...\n".toUTF8.toList, "Thread is fertig".toUTF8.toList]

/-- `fprintf` of some texts. -/
def printed (texts : List (List Byte)) : List Byte :=
  texts.flatMap fun text => text ++ [10]

/-- The files that the threads open with `"w"`. -/
def opening (names : Thread → Path) : Opening Path Thread where
  file := names
  appends _ := false

/-- A thread goes to another place. -/
def State.move (state : State) (thread : Thread) (place : At) : State :=
  { state with place := Function.update state.place thread place }

/-- A step of `main`. -/
def State.goMain (state : State) : Option State :=
  match state.main with
  | .creating i =>
      if inside : i < maxThreads then
        some { state.move ⟨i, inside⟩ .opening with main := .creating (i + 1) }
      else some { state with main := .joining 0 }
  | .joining i =>
      if inside : i < maxThreads then
        if state.place ⟨i, inside⟩ = .done then some { state with main := .joining (i + 1) }
        else none
      else some { state with main := .ended }
  | .ended => none

/-- A step of a thread. -/
def State.go (names : Thread → Path) (state : State) (thread : Thread) : Option State :=
  match state.place thread with
  | .opening => some { state.move thread .setting with
      files := state.files.openEmpty (opening names) thread }
  | .setting => some { state.move thread (.writing texts) with
      specific := Function.update state.specific thread (some thread) }
  | .writing (text :: left) => match state.specific thread with
    | none => some (state.move thread .crashed)
    | some stream => some { state.move thread (.writing left) with
        buffer := Function.update state.buffer stream (state.buffer stream ++ (text ++ [10])) }
  | .writing [] => some (state.move thread .exiting)
  | .exiting => match state.specific thread with
    | none => some (state.move thread .done)
    | some stream => some { state.move thread (.closing stream) with
        specific := Function.update state.specific thread none }
  | .closing stream =>
      if state.buffer stream = [] then
        some { state.move thread .done with closed := state.closed ++ [stream] }
      else none
  | .absent | .done | .crashed => none

def next (names : Thread → Path) (state : State) : Action → Option State
  | .main => state.goMain
  | .thread thread => state.go names thread
  | .openFails thread =>
      if state.place thread = .opening then some (state.move thread .exiting) else none
  | .flush stream n =>
      if 0 < n ∧ n ≤ (state.buffer stream).length then
        some { state with
          files := state.files.write (opening names) 0 stream ((state.buffer stream).take n)
          buffer := Function.update state.buffer stream ((state.buffer stream).drop n) }
      else none

/-- The key has been made. -/
def start (old : OpenFiles Path Thread Byte) : State where
  main := .creating 0
  place _ := .absent
  specific _ := none
  buffer _ := []
  files := old
  closed := []

/-- The program for some names of the files. -/
def program (names : Thread → Path) (old : OpenFiles Path Thread Byte) :
    TransitionSystem State Action :=
  .ofFunction (· = start old) (next names)

/-- `thread17` with the numbers that its threads get. -/
def thread17 (ids : Thread → ℤ) (old : OpenFiles Path Thread Byte) : TransitionSystem State Action :=
  program (fun thread => fpname (ids thread)) old

/-! ## One thread -/

/-- How far a thread has come: its place, what it has under the key, what its stream has not written
out, how much of the text is written out if the stream is open, and whether it has been closed. -/
inductive Stage (thread : Thread) : At → Option Thread → List Byte → Option ℕ → Bool → Prop
  | absent : Stage thread .absent none [] none false
  | opening : Stage thread .opening none [] none false
  | setting : Stage thread .setting none [] (some 0) false
  | writing {past left : List (List Byte)} {offset : ℕ} (split : past ++ left = texts)
      (most : offset ≤ (printed past).length) : Stage thread (.writing left) (some thread)
        ((printed past).drop offset) (some offset) false
  | exiting {offset : ℕ} (most : offset ≤ (printed texts).length) : Stage thread .exiting (some thread)
      ((printed texts).drop offset) (some offset) false
  | failed : Stage thread .exiting none [] none false
  | closing {offset : ℕ} (most : offset ≤ (printed texts).length) : Stage thread (.closing thread) none
      ((printed texts).drop offset) (some offset) false
  | closed : Stage thread .done none [] none true
  | gaveUp : Stage thread .done none [] none false

theorem printed_append (first second : List (List Byte)) :
    printed (first ++ second) = printed first ++ printed second :=
  List.flatMap_append

variable {thread : Thread} {place : At} {specific : Option Thread} {buffer : List Byte} {offset n : ℕ}
  {opened : Option ℕ} {shut : Bool}

theorem Stage.create (stage : Stage thread .absent specific buffer opened shut) :
    Stage thread .opening specific buffer opened shut := by
  cases stage
  exact .opening

theorem Stage.fopen (stage : Stage thread .opening specific buffer opened shut) :
    Stage thread .setting specific buffer (some 0) shut := by
  cases stage
  exact .setting

theorem Stage.fail (stage : Stage thread .opening specific buffer opened shut) :
    Stage thread .exiting specific buffer opened shut := by
  cases stage
  exact .failed

theorem Stage.specify (stage : Stage thread .setting specific buffer opened shut) :
    Stage thread (.writing texts) (some thread) buffer opened shut := by
  cases stage
  exact @Stage.writing _ [] texts 0 rfl (Nat.zero_le _)

/-- The stream under the key is the one that the thread has opened. -/
theorem Stage.write {text : List Byte} {left : List (List Byte)}
    (stage : Stage thread (.writing (text :: left)) specific buffer opened shut) :
    specific = some thread ∧
      Stage thread (.writing left) specific (buffer ++ (text ++ [10])) opened shut := by
  cases stage with
  | @writing past _ offset split most =>
      have longer : printed (past ++ [text]) = printed past ++ (text ++ [10]) := by
        rw [printed_append, printed, printed, List.flatMap_singleton]
      have stage := @Stage.writing thread (past ++ [text]) left offset
        ((List.append_assoc ..).trans split) (by
          rw [longer, List.length_append]
          exact Nat.le_add_right_of_le most)
      rw [longer, List.drop_append_of_le_length most] at stage
      exact ⟨rfl, stage⟩

theorem Stage.exit (stage : Stage thread (.writing []) specific buffer opened shut) :
    Stage thread .exiting specific buffer opened shut := by
  cases stage with
  | writing split most =>
      rw [List.append_nil] at split
      subst split
      exact .exiting most

theorem Stage.giveUp (stage : Stage thread .exiting none buffer opened shut) :
    Stage thread .done none buffer opened shut := by
  cases stage
  exact .gaveUp

theorem Stage.leave {stream : Thread}
    (stage : Stage thread .exiting (some stream) buffer opened shut) :
    Stage thread (.closing stream) none buffer opened shut := by
  cases stage with
  | exiting most => exact .closing most

theorem Stage.closes {stream : Thread}
    (stage : Stage thread (.closing stream) specific buffer opened shut) : stream = thread := by
  cases stage
  rfl

theorem Stage.close {stream : Thread} (stage : Stage thread (.closing stream) specific [] opened shut) :
    opened = some (printed texts).length ∧ shut = false ∧
      Stage thread .done specific [] none true := by
  generalize written : ([] : List Byte) = buffer at stage
  cases stage with
  | closing most =>
      have all := List.drop_eq_nil_iff.mp written.symm
      rw [← written]
      exact ⟨congrArg some (Nat.le_antisymm most all), rfl, .closed⟩

theorem Stage.not_crashed : ¬ Stage thread .crashed specific buffer opened shut := by
  rintro ⟨⟩

/-- What a stream has not written out is the text from its offset on, as far as the thread has come. -/
theorem Stage.buffer_prefix (stage : Stage thread place specific buffer (some offset) shut) :
    buffer <+: (printed texts).drop offset ∧ offset ≤ (printed texts).length := by
  cases stage with
  | setting => exact ⟨List.nil_prefix, Nat.zero_le _⟩
  | @writing past left _ split most =>
      have whole : printed texts = printed past ++ printed left := by
        rw [← split, printed_append]
      refine ⟨?_, ?_⟩
      · rw [whole, List.drop_append_of_le_length most]
        exact List.prefix_append ..
      · rw [whole, List.length_append]
        exact Nat.le_add_right_of_le most
  | exiting most | closing most => exact ⟨List.prefix_refl _, most⟩

/-- A stream that is not open has nothing to write out. -/
theorem Stage.exists_opened (stage : Stage thread place specific buffer opened shut)
    (some_ : 0 < buffer.length) : ∃ offset, opened = some offset := by
  cases stage with
  | writing | exiting | closing | setting => exact ⟨_, rfl⟩
  | absent | opening | failed | closed | gaveUp => exact absurd some_ (Nat.lt_irrefl 0)

/-- A stream writes a part out. -/
theorem Stage.flush (stage : Stage thread place specific buffer (some offset) shut)
    (most : n ≤ buffer.length) :
    Stage thread place specific (buffer.drop n) (some (offset + n)) shut := by
  cases stage with
  | setting =>
      obtain rfl : n = 0 := Nat.le_zero.mp most
      exact .setting
  | writing split _ =>
      rw [List.length_drop] at most
      rw [List.drop_drop]
      exact .writing split (by omega)
  | exiting _ =>
      rw [List.length_drop] at most
      rw [List.drop_drop]
      exact .exiting (by omega)
  | closing _ =>
      rw [List.length_drop] at most
      rw [List.drop_drop]
      exact .closing (by omega)

/-! ## The files -/

/-- The threads that have a file open, with their offsets. -/
def writers (names : Thread → Path) (path : Path) (offsets : Thread → Option ℕ) :
    Thread → Option ℕ :=
  fun thread => if names thread = path then offsets thread else none

/-- A thread has opened the file. -/
def Touched (names : Thread → Path) (path : Path) (offsets : Thread → Option ℕ)
    (closed : List Thread) : Prop :=
  ∃ thread, names thread = path ∧ (offsets thread ≠ none ∨ thread ∈ closed)

variable {names : Thread → Path} {path : Path} {offsets : Thread → Option ℕ} {closed : List Thread}

theorem writers_update_self (same : names thread = path) (opened : Option ℕ) :
    writers names path (Function.update offsets thread opened) =
      Function.update (writers names path offsets) thread opened := by
  funext other
  rcases eq_or_ne other thread with rfl | different
  · rw [writers, if_pos same, Function.update_self, Function.update_self]
  · rw [writers, Function.update_of_ne different, Function.update_of_ne different]
    rfl

theorem writers_update_of_ne (elsewhere : names thread ≠ path) (opened : Option ℕ) :
    writers names path (Function.update offsets thread opened) = writers names path offsets := by
  funext other
  rcases eq_or_ne other thread with rfl | different
  · rw [writers, if_neg elsewhere, writers, if_neg elsewhere]
  · rw [writers, Function.update_of_ne different]
    rfl

/-- A thread opens, or writes out, or closes its stream. -/
theorem touched_update {later : List Thread} {opened : Option ℕ}
    (others : ∀ other ≠ thread, other ∈ later ↔ other ∈ closed)
    (there : opened ≠ none ∨ thread ∈ later) :
    Touched names path (Function.update offsets thread opened) later ↔
      names thread = path ∨ Touched names path offsets closed := by
  constructor
  · rintro ⟨other, same, touches⟩
    rcases eq_or_ne other thread with rfl | different
    · exact .inl same
    · rw [Function.update_of_ne different, others other different] at touches
      exact .inr ⟨other, same, touches⟩
  · rintro (same | ⟨other, same, touches⟩)
    · refine ⟨thread, same, ?_⟩
      rw [Function.update_self]
      exact there
    · refine ⟨other, same, ?_⟩
      rcases eq_or_ne other thread with rfl | different
      · rw [Function.update_self]
        exact there
      · rw [Function.update_of_ne different, others other different]
        exact touches

/-- What the files hold. -/
structure Filed (names : Thread → Path) (old files : OpenFiles Path Thread Byte)
    (offsets : Thread → Option ℕ) (closed : List Thread) : Prop where
  offset : ∀ thread offset, offsets thread = some offset → files.offset thread = offset
  touched : ∀ path, Touched names path offsets closed →
    Mends (printed texts) (files.content path) (writers names path offsets)
  untouched : ∀ path, ¬ Touched names path offsets closed → files.content path = old.content path

variable {old files : OpenFiles Path Thread Byte}

/-- A thread empties its file. -/
theorem Filed.fopen (filed : Filed names old files offsets closed) (thread : Thread) :
    Filed names old (files.openEmpty (ThreadFiles.opening names) thread)
      (Function.update offsets thread (some 0)) closed := by
  have touch (path : Path) : Touched names path (Function.update offsets thread (some 0)) closed ↔
      names thread = path ∨ Touched names path offsets closed :=
    touched_update (fun _ _ => Iff.rfl) (.inl (Option.some_ne_none _))
  refine ⟨fun other offset there => ?_, fun path touched => ?_, fun path untouched => ?_⟩
  · rcases eq_or_ne other thread with rfl | different
    · rw [Function.update_self] at there
      rw [offset_openEmpty_self]
      exact Option.some.inj there
    · rw [Function.update_of_ne different] at there
      rw [offset_openEmpty_of_ne different.symm]
      exact filed.offset other offset there
  · by_cases same : names thread = path
    · subst same
      have content :
          (files.openEmpty (ThreadFiles.opening names) thread).content (names thread) = [] :=
        content_openEmpty_self
      rw [writers_update_self rfl]
      exact content ▸ mends_nil ..
    · rw [writers_update_of_ne same, content_openEmpty_of_ne same]
      exact filed.touched path (((touch path).mp touched).resolve_left same)
  · rw [touch, not_or] at untouched
    rw [content_openEmpty_of_ne untouched.1]
    exact filed.untouched path untouched.2

/-- A stream writes the next piece of the text out. -/
theorem Filed.write {piece : List Byte} (filed : Filed names old files offsets closed)
    (opened : offsets thread = some offset) (next : piece <+: (printed texts).drop offset)
    (fits : offset ≤ (printed texts).length) :
    Filed names old (files.write (ThreadFiles.opening names) 0 thread piece)
      (Function.update offsets thread (some (offset + piece.length))) closed := by
  have already (path : Path) (same : names thread = path) : Touched names path offsets closed :=
    ⟨thread, same, .inl (by rw [opened]; exact Option.some_ne_none _)⟩
  have touch (path : Path) : Touched names path
      (Function.update offsets thread (some (offset + piece.length))) closed ↔
        Touched names path offsets closed := by
    rw [touched_update (fun _ _ => Iff.rfl) (.inl (Option.some_ne_none _))]
    exact ⟨fun either => either.elim (already path) id, .inr⟩
  have position := filed.offset thread offset opened
  refine ⟨fun other reached there => ?_, fun path touched => ?_, fun path untouched => ?_⟩
  · rcases eq_or_ne other thread with rfl | different
    · rw [Function.update_self] at there
      rw [offset_write_self rfl, position]
      exact Option.some.inj there
    · rw [Function.update_of_ne different] at there
      rw [offset_write_of_ne different.symm]
      exact filed.offset other reached there
  · rw [touch] at touched
    by_cases same : names thread = path
    · subst same
      have content : (files.write (ThreadFiles.opening names) 0 thread piece).content (names thread) =
          put 0 (files.content (names thread)) (files.offset thread) piece := content_write_self rfl
      have writes : writers names (names thread) offsets thread = some offset :=
        (if_pos rfl).trans opened
      rw [position] at content
      rw [writers_update_self rfl]
      exact content ▸ (filed.touched _ touched).write writes next fits
    · rw [writers_update_of_ne same, content_write_of_ne same]
      exact filed.touched path touched
  · rw [touch] at untouched
    rw [content_write_of_ne fun same => untouched (already path same)]
    exact filed.untouched path untouched

/-- A stream that has written everything out is closed. -/
theorem Filed.close (filed : Filed names old files offsets closed)
    (opened : offsets thread = some (printed texts).length) :
    Filed names old files (Function.update offsets thread none) (closed ++ [thread]) := by
  have touch (path : Path) : Touched names path (Function.update offsets thread none)
      (closed ++ [thread]) ↔ Touched names path offsets closed := by
    rw [touched_update (fun other different => ?_) (.inr (List.mem_concat_self ..))]
    · refine ⟨fun either => either.elim (fun same => ⟨thread, same, .inl ?_⟩) id, .inr⟩
      rw [opened]
      exact Option.some_ne_none _
    · rw [List.mem_append, List.mem_singleton, or_iff_left different]
  refine ⟨fun other reached there => ?_, fun path touched => ?_, fun path untouched => ?_⟩
  · rcases eq_or_ne other thread with rfl | different
    · rw [Function.update_self] at there
      cases there
    · rw [Function.update_of_ne different] at there
      exact filed.offset other reached there
  · rw [touch] at touched
    by_cases same : names thread = path
    · rw [writers_update_self same]
      refine (filed.touched path touched).leave ?_
      rw [writers, if_pos same, opened]
    · rw [writers_update_of_ne same]
      exact filed.touched path touched
  · rw [touch] at untouched
    exact filed.untouched path untouched

/-! ## All of them -/

/-- Where the threads are for `main`. -/
def MainAt.Fits (place : Thread → At) : MainAt → Prop
  | .creating i => i ≤ maxThreads ∧ ∀ thread, place thread = .absent ↔ i ≤ thread.val
  | .joining i => ∀ thread, place thread ≠ .absent ∧ (thread.val < i → place thread = .done)
  | .ended => ∀ thread, place thread = .done

/-- What holds in every state, with the offsets of the streams that are open. -/
structure Sound (names : Thread → Path) (old : OpenFiles Path Thread Byte) (state : State)
    (offsets : Thread → Option ℕ) : Prop where
  main : state.main.Fits state.place
  each : ∀ thread, Stage thread (state.place thread) (state.specific thread) (state.buffer thread)
    (offsets thread) (decide (thread ∈ state.closed))
  once : state.closed.Nodup
  filed : Filed names old state.files offsets state.closed

variable {before after state : State} {current : Thread → At} {main : MainAt}

/-- A thread that is under way stays so for `main`. -/
theorem MainAt.Fits.move (fits : main.Fits current) (there : current thread ≠ .absent)
    (goes : current thread ≠ .done) (stays : place ≠ .absent) :
    main.Fits (Function.update current thread place) := by
  cases main with
  | creating i =>
      refine ⟨fits.1, fun other => ?_⟩
      rcases eq_or_ne other thread with rfl | different
      · rw [Function.update_self, ← fits.2 other]
        exact ⟨fun same => absurd same stays, fun same => absurd same there⟩
      · rw [Function.update_of_ne different]
        exact fits.2 other
  | joining i =>
      intro other
      rcases eq_or_ne other thread with rfl | different
      · rw [Function.update_self]
        exact ⟨stays, fun less => absurd ((fits other).2 less) goes⟩
      · rw [Function.update_of_ne different]
        exact fits other
  | ended => exact absurd (fits thread) goes

/-- The other threads are left as they are. -/
structure Apart (thread : Thread) (before after : State) : Prop where
  specific : ∀ other ≠ thread, after.specific other = before.specific other
  buffer : ∀ other ≠ thread, after.buffer other = before.buffer other
  closed : ∀ other ≠ thread, other ∈ after.closed ↔ other ∈ before.closed

theorem Sound.update {opened : Option ℕ} (sound : Sound names old before offsets)
    (main : after.main.Fits after.place)
    (moves : after.place = Function.update before.place thread place)
    (apart : Apart thread before after)
    (stage : Stage thread place (after.specific thread) (after.buffer thread) opened
      (decide (thread ∈ after.closed))) (once : after.closed.Nodup)
    (filed : Filed names old after.files (Function.update offsets thread opened) after.closed) :
    Sound names old after (Function.update offsets thread opened) := by
  refine ⟨main, fun other => ?_, once, filed⟩
  rcases eq_or_ne other thread with rfl | different
  · rw [moves, Function.update_self, Function.update_self]
    exact stage
  · rw [moves, Function.update_of_ne different, Function.update_of_ne different,
      apart.specific other different, apart.buffer other different,
      decide_eq_decide.mpr (apart.closed other different)]
    exact sound.each other

/-- A thread goes on without opening or closing its stream. -/
theorem Sound.move (sound : Sound names old before offsets) {specific : Thread → Option Thread}
    {buffer : Thread → List Byte} (there : before.place thread ≠ .absent)
    (goes : before.place thread ≠ .done) (stays : place ≠ .absent)
    (specifics : ∀ other ≠ thread, specific other = before.specific other)
    (buffers : ∀ other ≠ thread, buffer other = before.buffer other)
    (stage : Stage thread place (specific thread) (buffer thread) (offsets thread)
      (decide (thread ∈ before.closed))) :
    Sound names old { before.move thread place with specific, buffer } offsets := by
  have same : Function.update offsets thread (offsets thread) = offsets :=
    Function.update_eq_self ..
  rw [← same]
  refine sound.update (sound.main.move there goes stays) rfl
    ⟨specifics, buffers, fun _ _ => Iff.rfl⟩ stage sound.once ?_
  rw [same]
  exact sound.filed

theorem Sound.goMain (sound : Sound names old before offsets) (moved : before.goMain = some after) :
    Sound names old after offsets := by
  obtain ⟨main, each, once, filed⟩ := sound
  unfold State.goMain at moved
  cases at_ : before.main with
  | creating i =>
      rw [at_] at main moved
      dsimp only at moved
      split at moved
      · rename_i inside
        cases moved
        have absent : before.place ⟨i, inside⟩ = .absent := (main.2 _).mpr (Nat.le_refl i)
        refine ⟨⟨inside, fun other => ?_⟩, fun other => ?_, once, filed⟩
        · change Function.update before.place ⟨i, inside⟩ .opening other = .absent ↔ i + 1 ≤ other.val
          rcases eq_or_ne other ⟨i, inside⟩ with rfl | different
          · rw [Function.update_self]
            exact ⟨nofun, fun less => absurd less (Nat.lt_irrefl i)⟩
          · have apart : other.val ≠ i := fun same => different (Fin.ext same)
            rw [Function.update_of_ne different, main.2 other]
            omega
        · change Stage other (Function.update before.place ⟨i, inside⟩ .opening other) _ _ _ _
          rcases eq_or_ne other ⟨i, inside⟩ with rfl | different
          · have stage := each ⟨i, inside⟩
            rw [absent] at stage
            rw [Function.update_self]
            exact stage.create
          · rw [Function.update_of_ne different]
            exact each other
      · rename_i outside
        cases moved
        refine ⟨fun thread => ⟨fun absent => ?_, nofun⟩, each, once, filed⟩
        have late := (main.2 thread).mp absent
        exact outside (Nat.lt_of_le_of_lt late thread.isLt)
  | joining i =>
      rw [at_] at main moved
      dsimp only at moved
      split at moved
      · rename_i inside
        split at moved
        · rename_i done
          cases moved
          refine ⟨fun thread => ⟨(main thread).1, fun less => ?_⟩, each, once, filed⟩
          rcases Nat.lt_succ_iff_lt_or_eq.mp less with before_ | same
          · exact (main thread).2 before_
          · obtain rfl : thread = ⟨i, inside⟩ := Fin.ext same
            exact done
        · cases moved
      · rename_i outside
        cases moved
        refine ⟨fun thread => (main thread).2 ?_, each, once, filed⟩
        exact Nat.lt_of_lt_of_le thread.isLt (Nat.le_of_not_lt outside)
  | ended =>
      rw [at_] at moved
      cases moved

theorem Sound.go (sound : Sound names old before offsets)
    (moved : before.go names thread = some after) : ∃ offsets, Sound names old after offsets := by
  have stage := sound.each thread
  unfold State.go at moved
  cases at_ : before.place thread with
  | opening =>
      rw [at_] at stage moved
      cases moved
      exact ⟨_, sound.update
        (sound.main.move (by rw [at_]; exact nofun) (by rw [at_]; exact nofun) nofun) rfl
        ⟨fun _ _ => rfl, fun _ _ => rfl, fun _ _ => Iff.rfl⟩ stage.fopen sound.once
        (sound.filed.fopen thread)⟩
  | setting =>
      rw [at_] at stage moved
      cases moved
      refine ⟨_, sound.move (by rw [at_]; exact nofun) (by rw [at_]; exact nofun) nofun
        (fun other different => Function.update_of_ne different _ _) (fun _ _ => rfl) ?_⟩
      rw [Function.update_self]
      exact stage.specify
  | writing left =>
      rw [at_] at stage
      cases left with
      | nil =>
          rw [at_] at moved
          cases moved
          exact ⟨_, sound.move (by rw [at_]; exact nofun) (by rw [at_]; exact nofun) nofun
            (fun _ _ => rfl) (fun _ _ => rfl) stage.exit⟩
      | cons text left =>
          obtain ⟨own, stage⟩ := stage.write
          rw [at_] at moved
          dsimp only at moved
          rw [own] at moved
          cases moved
          refine ⟨_, sound.move (by rw [at_]; exact nofun) (by rw [at_]; exact nofun) nofun
            (fun _ _ => rfl) (fun other different => Function.update_of_ne different _ _) ?_⟩
          rw [Function.update_self]
          exact stage
  | exiting =>
      rw [at_] at stage moved
      cases own : before.specific thread with
      | none =>
          rw [own] at stage
          dsimp only at moved
          rw [own] at moved
          cases moved
          refine ⟨_, sound.move (by rw [at_]; exact nofun) (by rw [at_]; exact nofun) nofun
            (fun _ _ => rfl) (fun _ _ => rfl) ?_⟩
          rw [own]
          exact stage.giveUp
      | some stream =>
          rw [own] at stage
          dsimp only at moved
          rw [own] at moved
          cases moved
          refine ⟨_, sound.move (by rw [at_]; exact nofun) (by rw [at_]; exact nofun) nofun
            (fun other different => Function.update_of_ne different _ _) (fun _ _ => rfl) ?_⟩
          rw [Function.update_self]
          exact stage.leave
  | closing stream =>
      rw [at_] at stage moved
      dsimp only at moved
      split at moved
      · rename_i empty
        cases moved
        obtain rfl := stage.closes
        rw [empty] at stage
        obtain ⟨all, never, stage⟩ := stage.close
        have last (other : Thread) : other ∈ before.closed ++ [stream] ↔
            other ∈ before.closed ∨ other = stream := by
          rw [List.mem_append, List.mem_singleton]
        refine ⟨Function.update offsets stream none, sound.update
          (sound.main.move (by rw [at_]; exact nofun) (by rw [at_]; exact nofun) nofun) rfl
          ⟨fun _ _ => rfl, fun _ _ => rfl, fun other different => ?_⟩ ?_ ?_
          (sound.filed.close all)⟩
        · exact (last other).trans (or_iff_left different)
        · rw [decide_eq_true ((last stream).mpr (.inr rfl))]
          change Stage stream .done (before.specific stream) (before.buffer stream) none true
          rw [empty]
          exact stage
        · exact sound.once.append (List.nodup_singleton _)
            (List.disjoint_singleton.mpr (of_decide_eq_false never))
      · cases moved
  | absent | done | crashed =>
      rw [at_] at moved
      cases moved

theorem Sound.next {action : Action} (sound : Sound names old before offsets)
    (moved : next names before action = some after) : ∃ offsets, Sound names old after offsets := by
  cases action with
  | main => exact ⟨_, sound.goMain moved⟩
  | thread thread => exact sound.go moved
  | openFails thread =>
      simp only [ThreadFiles.next, Option.ite_none_right_eq_some, Option.some.injEq] at moved
      obtain ⟨at_, rfl⟩ := moved
      have stage := sound.each thread
      rw [at_] at stage
      exact ⟨_, sound.move (by rw [at_]; exact nofun) (by rw [at_]; exact nofun) nofun
        (fun _ _ => rfl) (fun _ _ => rfl) stage.fail⟩
  | flush stream n =>
      simp only [ThreadFiles.next, Option.ite_none_right_eq_some, Option.some.injEq] at moved
      obtain ⟨⟨some_, most⟩, rfl⟩ := moved
      have stage := sound.each stream
      obtain ⟨offset, opened⟩ := stage.exists_opened (Nat.lt_of_lt_of_le some_ most)
      rw [opened] at stage
      obtain ⟨next, fits⟩ := stage.buffer_prefix
      have length : ((before.buffer stream).take n).length = n := by
        rw [List.length_take, Nat.min_eq_left most]
      have filed := sound.filed.write opened ((List.take_prefix n _).trans next) fits
      rw [length] at filed
      refine ⟨_, sound.update sound.main (Function.update_eq_self ..).symm ⟨fun _ _ => rfl,
        fun other different => Function.update_of_ne different _ _, fun _ _ => Iff.rfl⟩ ?_
        sound.once filed⟩
      dsimp only
      rw [Function.update_self]
      exact stage.flush most

theorem sound_start (names : Thread → Path) (old : OpenFiles Path Thread Byte) :
    Sound names old (start old) fun _ => none where
  main := ⟨Nat.zero_le _, fun thread => ⟨fun _ => Nat.zero_le _, fun _ => rfl⟩⟩
  each _ := .absent
  once := .nil
  filed := by
    refine ⟨nofun, ?_, fun _ _ => rfl⟩
    rintro path ⟨thread, -, opened | shut⟩
    · exact absurd rfl opened
    · cases shut

theorem sound_invariant (names : Thread → Path) (old : OpenFiles Path Thread Byte) :
    (program names old).Invariant fun state => ∃ offsets, Sound names old state offsets where
  initial := by
    rintro _ rfl
    exact ⟨_, sound_start names old⟩
  step := by
    rintro before action after ⟨offsets, sound⟩ moved
    exact sound.next moved

/-! ## Every run ends -/

def MainAt.left : MainAt → ℕ
  | .creating i => maxThreads - i + (maxThreads + 2)
  | .joining i => maxThreads - i + 1
  | .ended => 0

/-- How many steps a thread can take at most, without those of its buffer. -/
def At.left : At → ℕ
  | .absent => (printed texts).length + texts.length + 6
  | .opening => (printed texts).length + texts.length + 5
  | .setting => (printed texts).length + texts.length + 4
  | .writing texts => (printed texts).length + texts.length + 3
  | .exiting => 2
  | .closing _ => 1
  | .done | .crashed => 0

def State.weight (state : State) (thread : Thread) : ℕ :=
  (state.place thread).left + (state.buffer thread).length

/-- How many steps are left, at most. -/
def State.left (state : State) : ℕ :=
  state.main.left + ∑ thread, state.weight thread

theorem left_lt_of_weight (main : after.main.left ≤ before.main.left)
    (others : ∀ other ≠ thread, after.weight other = before.weight other)
    (lighter : after.weight thread < before.weight thread) : after.left < before.left := by
  have sum : ∑ thread, after.weight thread < ∑ thread, before.weight thread := by
    refine Finset.sum_lt_sum (fun other _ => ?_) ⟨thread, Finset.mem_univ _, lighter⟩
    rcases eq_or_ne other thread with rfl | different
    · exact Nat.le_of_lt lighter
    · exact Nat.le_of_eq (others other different)
  exact Nat.add_lt_add_of_le_of_lt main sum

/-- A thread that goes to another place. -/
theorem left_move (moves : after.place = Function.update before.place thread place)
    (main : after.main.left ≤ before.main.left)
    (buffers : ∀ other ≠ thread, after.buffer other = before.buffer other)
    (lighter : place.left + (after.buffer thread).length <
      (before.place thread).left + (before.buffer thread).length) : after.left < before.left := by
  have lighter_ : after.weight thread < before.weight thread := by
    rw [State.weight, moves, Function.update_self]
    exact lighter
  refine left_lt_of_weight main (fun other different => ?_) lighter_
  rw [State.weight, State.weight, moves, Function.update_of_ne different, buffers other different]

theorem left_goMain (sound : Sound names old before offsets) (moved : before.goMain = some after) :
    after.left < before.left := by
  have fits := sound.main
  unfold State.goMain at moved
  cases at_ : before.main with
  | creating i =>
      rw [at_] at moved fits
      dsimp only at moved
      split at moved
      · rename_i inside
        cases moved
        have absent : before.place ⟨i, inside⟩ = .absent := (fits.2 _).mpr (Nat.le_refl i)
        refine left_move rfl ?_ (fun _ _ => rfl) ?_
        · rw [at_]
          exact Nat.add_le_add_right (Nat.sub_le_sub_left (Nat.le_succ i) _) _
        · rw [absent]
          exact Nat.add_lt_add_right (Nat.lt_succ_self _) _
      · cases moved
        refine Nat.add_lt_add_right ?_ _
        rw [at_]
        simp only [MainAt.left]
        omega
  | joining i =>
      rw [at_] at moved
      dsimp only at moved
      split at moved
      · split at moved
        · cases moved
          refine Nat.add_lt_add_right ?_ _
          rw [at_]
          simp only [MainAt.left]
          omega
        · cases moved
      · cases moved
        refine Nat.add_lt_add_right ?_ _
        rw [at_]
        simp only [MainAt.left]
        omega
  | ended =>
      rw [at_] at moved
      cases moved

theorem left_go (sound : Sound names old before offsets) (moved : before.go names thread = some after) :
    after.left < before.left := by
  unfold State.go at moved
  cases at_ : before.place thread with
  | opening | setting =>
      rw [at_] at moved
      cases moved
      refine left_move rfl (Nat.le_refl _) (fun _ _ => rfl) ?_
      rw [at_]
      exact Nat.add_lt_add_right (Nat.lt_succ_self _) _
  | writing left =>
      have stage := sound.each thread
      rw [at_] at stage
      cases left with
      | nil =>
          rw [at_] at moved
          cases moved
          refine left_move rfl (Nat.le_refl _) (fun _ _ => rfl) ?_
          rw [at_]
          exact Nat.add_lt_add_right (Nat.lt_succ_self _) _
      | cons text left =>
          obtain ⟨own, -⟩ := stage.write
          rw [at_] at moved
          dsimp only at moved
          rw [own] at moved
          cases moved
          refine left_move rfl (Nat.le_refl _)
            (fun other different => Function.update_of_ne different _ _) ?_
          dsimp only
          have split : (printed (text :: left)).length = text.length + 1 + (printed left).length := by
            rw [printed, List.flatMap_cons, List.length_append, List.length_append]
            rfl
          rw [at_, Function.update_self]
          simp only [At.left, split, List.length_append, List.length_cons, List.length_nil]
          omega
  | exiting =>
      rw [at_] at moved
      dsimp only at moved
      split at moved
      · cases moved
        refine left_move rfl (Nat.le_refl _) (fun _ _ => rfl) ?_
        rw [at_]
        exact Nat.add_lt_add_right (by decide) _
      · cases moved
        refine left_move rfl (Nat.le_refl _) (fun _ _ => rfl) ?_
        rw [at_]
        exact Nat.add_lt_add_right (Nat.lt_succ_self _) _
  | closing stream =>
      rw [at_] at moved
      dsimp only at moved
      split at moved
      · cases moved
        refine left_move rfl (Nat.le_refl _) (fun _ _ => rfl) ?_
        rw [at_]
        exact Nat.add_lt_add_right (Nat.lt_succ_self _) _
      · cases moved
  | absent | done | crashed =>
      rw [at_] at moved
      cases moved

theorem left_next {action : Action} (sound : Sound names old before offsets)
    (moved : next names before action = some after) : after.left < before.left := by
  cases action with
  | main => exact left_goMain sound moved
  | thread thread => exact left_go sound moved
  | openFails thread =>
      simp only [next, Option.ite_none_right_eq_some, Option.some.injEq] at moved
      obtain ⟨at_, rfl⟩ := moved
      refine left_move rfl (Nat.le_refl _) (fun _ _ => rfl) ?_
      rw [at_]
      refine Nat.add_lt_add_right ?_ _
      simp only [At.left]
      omega
  | flush stream n =>
      simp only [next, Option.ite_none_right_eq_some, Option.some.injEq] at moved
      obtain ⟨⟨some_, most⟩, rfl⟩ := moved
      refine left_move (Function.update_eq_self stream before.place).symm (Nat.le_refl _)
        (fun other different => Function.update_of_ne different _ _) ?_
      dsimp only
      rw [Function.update_self, List.length_drop]
      omega

/-! ## What is promised -/

/-- A thread that does not have its stream open. -/
def At.rests : At → Bool
  | .absent | .opening | .done => true
  | _ => false

/-- What is promised for a state. -/
structure Kept (names : Thread → Path) (old : OpenFiles Path Thread Byte) (state : State) : Prop where
  /-- a file that has been written to holds the lines as soon as nobody has it open -/
  whole : ∀ thread ∈ state.closed,
    (∀ other, names other = names thread → (state.place other).rests) →
      state.files.content (names thread) = printed texts
  /-- a file whose threads have not closed a stream and do not have one open is as before -/
  old : ∀ path, (∀ thread, names thread = path → (state.place thread).rests ∧ thread ∉ state.closed) →
    state.files.content path = old.content path
  /-- a stream is closed once, and its thread is done then -/
  closedOnce : state.closed.Nodup ∧ ∀ thread ∈ state.closed, state.place thread = .done
  /-- a thread finds no stream but its own under the key -/
  own : ∀ thread stream, state.specific thread = some stream → stream = thread
  /-- and it finds one when it writes -/
  writes : ∀ thread, state.place thread ≠ .crashed
  /-- something can happen as long as `main` has not ended -/
  goesOn : (∃ action after, next names state action = some after) ∨ state.main = .ended
  ended : state.main = .ended → ∀ thread, state.place thread = .done

theorem Stage.opened_of_rests (stage : Stage thread place specific buffer opened shut)
    (rests : place.rests) : opened = none := by
  cases stage with
  | absent | opening | closed | gaveUp => rfl
  | setting | writing | exiting | failed | closing => cases rests

theorem Stage.done_of_shut (stage : Stage thread place specific buffer opened true) : place = .done := by
  cases stage
  rfl

theorem Stage.own {stream : Thread} (stage : Stage thread place (some stream) buffer opened shut) :
    stream = thread := by
  cases stage with
  | writing | exiting => rfl

/-- A thread that `main` waits for can go on, or its stream can. -/
theorem Stage.goesOn (stage : Stage thread (state.place thread) specific buffer opened shut)
    (there : state.place thread ≠ .absent) (under : state.place thread ≠ .done) :
    ∃ action after, next names state action = some after := by
  cases at_ : state.place thread with
  | absent => exact absurd at_ there
  | done => exact absurd at_ under
  | crashed =>
      rw [at_] at stage
      exact absurd stage Stage.not_crashed
  | opening | setting => exact ⟨.thread thread, _, by rw [next, State.go, at_]⟩
  | writing left =>
      cases left with
      | nil => exact ⟨.thread thread, _, by rw [next, State.go, at_]⟩
      | cons text left =>
          cases own : state.specific thread with
          | none => exact ⟨.thread thread, _, by simp only [next, State.go, at_, own]; rfl⟩
          | some stream => exact ⟨.thread thread, _, by simp only [next, State.go, at_, own]; rfl⟩
  | exiting =>
      cases own : state.specific thread with
      | none => exact ⟨.thread thread, _, by simp only [next, State.go, at_, own]; rfl⟩
      | some stream => exact ⟨.thread thread, _, by simp only [next, State.go, at_, own]; rfl⟩
  | closing stream =>
      by_cases empty : state.buffer stream = []
      · exact ⟨.thread thread, _, by simp only [next, State.go, at_]; exact if_pos empty⟩
      · exact ⟨.flush stream 1, _, if_pos ⟨Nat.one_pos, List.length_pos_iff.mpr empty⟩⟩

theorem Sound.goesOn (sound : Sound names old state offsets) :
    (∃ action after, ThreadFiles.next names state action = some after) ∨ state.main = .ended := by
  have main := sound.main
  cases at_ : state.main with
  | creating i =>
      left
      by_cases inside : i < maxThreads
      · exact ⟨.main, _, by rw [ThreadFiles.next, State.goMain, at_]; exact dif_pos inside⟩
      · exact ⟨.main, _, by rw [ThreadFiles.next, State.goMain, at_]; exact dif_neg inside⟩
  | joining i =>
      left
      rw [at_] at main
      by_cases inside : i < maxThreads
      · by_cases done : state.place ⟨i, inside⟩ = .done
        · exact ⟨.main, _, by
            rw [ThreadFiles.next, State.goMain, at_]
            exact (dif_pos inside).trans (if_pos done)⟩
        · exact (sound.each ⟨i, inside⟩).goesOn (main _).1 done
      · exact ⟨.main, _, by rw [ThreadFiles.next, State.goMain, at_]; exact dif_neg inside⟩
  | ended => exact .inr rfl

theorem Sound.kept (sound : Sound names old state offsets) : Kept names old state where
  whole thread shut rest := by
    refine (sound.filed.touched _ ⟨thread, rfl, .inr shut⟩).eq_of_nobody fun other => ?_
    unfold writers
    split
    · rename_i same
      exact (sound.each other).opened_of_rests (rest other same)
    · rfl
  old path rest := by
    refine sound.filed.untouched path ?_
    rintro ⟨thread, same, opened | shut⟩
    · exact opened ((sound.each thread).opened_of_rests (rest thread same).1)
    · exact (rest thread same).2 shut
  closedOnce := by
    refine ⟨sound.once, fun thread shut => ?_⟩
    have stage := sound.each thread
    rw [decide_eq_true shut] at stage
    exact stage.done_of_shut
  own thread stream found := by
    have stage := sound.each thread
    rw [found] at stage
    exact stage.own
  writes thread crashed := by
    have stage := sound.each thread
    rw [crashed] at stage
    exact stage.not_crashed
  goesOn := sound.goesOn
  ended ended thread := by
    have main := sound.main
    rw [ended] at main
    exact main thread

/-- **Each thread keeps to its own stream.** In whatever order the threads go, and in whatever pieces
their streams are written out, a file that a thread has opened holds its two lines as soon as nobody
has it open, even if the names of two files have become the same; no stream is closed twice, and the
program ends. -/
theorem kept_of_reachable (ids : Thread → ℤ) (old : OpenFiles Path Thread Byte)
    (reached : (thread17 ids old).Reachable state) :
    Kept (fun thread => fpname (ids thread)) old state ∧ (thread17 ids old).Terminates state := by
  have invariant := sound_invariant (fun thread => fpname (ids thread)) old
  obtain ⟨offsets, sound⟩ := invariant.reachable reached
  refine ⟨sound.kept, invariant.terminates State.left ?_ ⟨offsets, sound⟩⟩
  rintro before action after ⟨offsets, sound⟩ moved
  exact left_next sound moved

def first : Thread := ⟨0, by decide⟩

def second : Thread := ⟨1, by decide⟩

/-- The numbers of the first two threads differ only behind what fits into the names. -/
def alike (thread : Thread) : ℤ :=
  140000000000000 + if thread = first then 1 else if thread = second then 2 else 1000

/-- The second thread empties the file when the first one has written a part of its text out. -/
def crossed : List Action :=
  [.main, .main] ++ List.replicate 3 (.thread first) ++ [.flush first 5, .thread second] ++
    List.replicate 3 (.thread first) ++ [.flush first 40, .thread first] ++
      List.replicate 5 (.thread second) ++ [.flush second 45, .thread second]

theorem kept_of_crossed : ∃ state : State,
    run (next fun thread => fpname (alike thread)) (start ⟨fun _ => [], fun _ => 0⟩) crossed =
      some state ∧ fpname (alike first) = fpname (alike second) ∧
        state.files.content (fpname (alike first)) = printed texts := by
  have finished : (run (next fun thread => fpname (alike thread)) (start ⟨fun _ => [], fun _ => 0⟩)
      crossed).map (fun state => (state.closed, decide (∀ thread, (state.place thread).rests))) =
        some ([first, second], true) := by
    decide +kernel
  obtain ⟨state, executed, ended⟩ := Option.map_eq_some_iff.mp finished
  obtain ⟨closed, rest⟩ := Prod.mk.inj ended
  have kept := (kept_of_reachable alike ⟨fun _ => [], fun _ => 0⟩
    (.of_execution (.initial rfl) executed)).1
  refine ⟨state, executed, by decide +kernel,
    kept.whole first ?_ fun other _ => of_decide_eq_true rest other⟩
  rw [closed]
  exact List.mem_cons_self ..

end LinuxUnix.ThreadFiles

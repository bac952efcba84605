import LinuxUnix.Devices.CdRom
import LinuxUnix.Foundation.Iteration
import LinuxUnix.Foundation.NumberInput

/-! # Menus

The loops of cdrom.c, myinfo.c and dynamisch.c ask for numbers with `scanf` and do not look at its
result. What they act on has been typed in the same turn, and they end, as long as the numbers last
until one ends the loop (`LinuxUnix.Menus.obey_iff`). Where a number is missing the variable keeps
its value, and what `scanf` cannot read stays in the input.
-/

namespace LinuxUnix.Menus

open Decimal

/-- A value that a turn acts on, and the number that has been read for it in this turn. -/
structure Use where
  value : ℤ
  read : Option ℤ
  deriving DecidableEq

/-- Each value has been read. -/
def Told (uses : List Use) : Prop := ∀ use ∈ uses, use.read = some use.value

instance (uses : List Use) : Decidable (Told uses) :=
  inferInstanceAs (Decidable (∀ use ∈ uses, use.read = some use.value))

/-- `scanf("%d", &target)`: the value of the variable afterwards, and what is left of the
input. -/
def scanf (target : ℤ) (input : List Byte) : Use × List Byte :=
  (⟨(scanInt input).1.getD target, (scanInt input).1⟩, (scanInt input).2)

theorem told_nil : Told [] := fun _ member => absurd member List.not_mem_nil

theorem told_cons {use : Use} {uses : List Use} :
    Told (use :: uses) ↔ use.read = some use.value ∧ Told uses :=
  List.forall_mem_cons

/-- A turn with a number that has been read. -/
theorem Told.number {uses : List Use} (told : Told uses) (number : ℤ) :
    Told (uses ++ [⟨number, some number⟩]) :=
  List.forall_mem_append.mpr ⟨told, told_cons.mpr ⟨rfl, told_nil⟩⟩

/-- A turn with two numbers that have been read. -/
theorem Told.numbers {uses : List Use} (told : Told uses) (first second : ℤ) :
    Told (uses ++ [⟨first, some first⟩, ⟨second, some second⟩]) :=
  List.forall_mem_append.mpr ⟨told, told_cons.mpr ⟨rfl, told_cons.mpr ⟨rfl, told_nil⟩⟩⟩

theorem not_told_of_unread {use : Use} {uses : List Use} (member : use ∈ uses)
    (unread : use.read = none) : ¬ Told uses := by
  intro told
  cases unread.symm.trans (told use member)

variable {input rest : List Byte} {number : ℤ}

theorem scanf_of_some (found : scanInt input = (some number, rest)) (target : ℤ) :
    scanf target input = (⟨number, some number⟩, rest) := by
  rw [scanf, found]
  rfl

theorem scanf_of_none (failed : scanInt input = (none, rest)) (target : ℤ) :
    scanf target input = (⟨target, none⟩, rest) := by
  rw [scanf, failed]
  rfl

/-! ## cdrom.c -/

namespace Cdrom

open CdRom

/-- How the drive answers in a turn: whether it opens, what `CDROMREADTOCHDR` finds, and the
entries. -/
structure Answers where
  ejects : Bool
  header : Option (Byte × Byte)
  drive : Drive

/-- Whether `content_cdrom` exits: the header or one of the entries is missing. -/
def contentCdrom (answers : Answers) : Bool :=
  match answers.header with
  | none => true
  | some (trk0, trk1) => (List.range' trk0.toNat (trk1.toNat + 1 - trk0.toNat)).any fun track =>
      (answers.drive.readTocEntry track).isNone

/-- The `switch`: whether it exits. The other functions print their errors and return. -/
def exits (answers : Answers) (select track : ℤ) : Bool :=
  match select with
  | 1 => !answers.ejects
  | 4 => (playCdrom answers.drive full).exited
  | 5 => (playCdrom answers.drive track).exited
  | 10 => contentCdrom answers
  | _ => false

/-- What has not been read, the variables of `main`, the number of turns, what they have acted
on, and whether the loop has been left. -/
structure State where
  input : List Byte
  select : ℤ
  track : ℤ
  turn : ℕ
  uses : List Use
  ended : Bool

/-- A turn with a choice taken: with 5 another number is asked for. -/
def choose (drive : ℕ → Answers) (state : State) (select : Use) (rest : List Byte) : State :=
  if select.value = 5 then
    { input := (scanf state.track rest).2
      select := 5
      track := (scanf state.track rest).1.value
      turn := state.turn + 1
      uses := state.uses ++ [select, (scanf state.track rest).1]
      ended := exits (drive state.turn) 5 (scanf state.track rest).1.value }
  else
    { input := rest
      select := select.value
      track := state.track
      turn := state.turn + 1
      uses := state.uses ++ [select]
      ended := select.value = 11 || exits (drive state.turn) select.value state.track }

/-- A turn of the loop. -/
def step (drive : ℕ → Answers) (state : State) : State :=
  if state.ended then state
  else choose drive state (scanf state.select state.input).1 (scanf state.select state.input).2

/-- Some numbers lead out of the loop: the choice 11 is among them, or one with which the program
exits. A 5 is followed by the number of a track. -/
def Leads (drive : ℕ → Answers) : ℕ → List ℤ → Prop
  | _, [] => False
  | turn, select :: numbers =>
      if select = 5 then
        match numbers with
        | [] => False
        | track :: numbers => exits (drive turn) 5 track ∨ Leads drive (turn + 1) numbers
      else select = 11 ∨ exits (drive turn) select full ∨ Leads drive (turn + 1) numbers

/-- The loop ends, and acts on what has been read in the turn. -/
def Obeys (drive : ℕ → Answers) (state : State) : Prop :=
  Completes (step drive) (·.ended) (Told ·.uses) state

variable {drive : ℕ → Answers} {state : State}

/-- Only a 5 looks at the track. -/
theorem exits_of_ne {answers : Answers} {select : ℤ} (other : select ≠ 5) (track : ℤ) :
    exits answers select track = exits answers select full := by
  unfold exits
  split
  · rfl
  · rfl
  · exact absurd rfl other
  · rfl
  · rfl

theorem step_of_ended (ended : state.ended) : step drive state = state :=
  if_pos ended

theorem step_of_running (running : state.ended = false) : step drive state =
    choose drive state (scanf state.select state.input).1
      (scanf state.select state.input).2 := by
  rw [step, running, if_neg Bool.false_ne_true]

variable {select : Use}

/-- A turn without a number repeats the choice. -/
theorem not_obeys_of_unread (unread : select.read = none) (rest : List Byte) :
    ¬ Obeys drive (choose drive state select rest) := by
  apply not_completes_of_unsound
  rw [choose]
  split
  · exact not_told_of_unread (List.mem_append_right _ List.mem_cons_self) unread
  · exact not_told_of_unread (List.mem_append_right _ List.mem_cons_self) unread

/-- So does a 5 without a track. -/
theorem not_obeys_of_trackless (five : select.value = 5)
    (unread : (scanf state.track rest).1.read = none) :
    ¬ Obeys drive (choose drive state select rest) := by
  apply not_completes_of_unsound
  rw [choose, if_pos five]
  exact not_told_of_unread
    (List.mem_append_right _ (List.mem_cons_of_mem _ List.mem_cons_self)) unread

theorem not_leads_five {turn : ℕ} : ¬ Leads drive turn [5] := by
  simp only [Leads, if_true, not_false_eq_true]

theorem leads_five_cons (turn : ℕ) (track : ℤ) (numbers : List ℤ) :
    Leads drive turn (5 :: track :: numbers) ↔
      exits (drive turn) 5 track ∨ Leads drive (turn + 1) numbers := by
  simp only [Leads, if_true]

theorem leads_of_ne {select : ℤ} (other : select ≠ 5) (turn : ℕ) (numbers : List ℤ) :
    Leads drive turn (select :: numbers) ↔
      select = 11 ∨ exits (drive turn) select full ∨ Leads drive (turn + 1) numbers := by
  cases numbers with
  | nil => simp only [Leads, other, if_false]
  | cons next numbers => simp only [Leads, other, if_false]

/-- The loop that has been left, with everything told. -/
theorem obeys_of_ended (ended : state.ended) (told : Told state.uses) : Obeys drive state :=
  completes_of_ended ended (step_of_ended ended) told

/-- The loop obeys if the numbers with which the input begins lead out of it. -/
theorem obeys_iff (running : state.ended = false) (told : Told state.uses) :
    Obeys drive state ↔ Leads drive state.turn (numbers state.input).1 := by
  induction count : state.input.length using Nat.strongRecOn generalizing state with
  | _ count ih =>
      have goes : Obeys drive state ↔ Obeys drive (step drive state) :=
        completes_iff_step (by rw [running]; exact Bool.false_ne_true) told
      rw [goes, step_of_running running]
      obtain ⟨read, rest, scanned⟩ : ∃ read rest, scanInt state.input = (read, rest) := ⟨_, _, rfl⟩
      cases read with
      | none =>
          rw [numbers_of_none scanned, scanf_of_none scanned]
          exact iff_of_false (not_obeys_of_unread rfl rest) id
      | some select =>
          have shorter := length_scanInt_lt scanned
          rw [numbers_of_some scanned, scanf_of_some scanned]
          by_cases five : select = 5
          · subst five
            obtain ⟨read, behind, scanned'⟩ : ∃ read behind, scanInt rest = (read, behind) :=
              ⟨_, _, rfl⟩
            cases read with
            | none =>
                rw [numbers_of_none scanned']
                apply iff_of_false (not_obeys_of_trackless rfl _) not_leads_five
                rw [scanf_of_none scanned']
            | some track =>
                have shorter' := length_scanInt_lt scanned'
                have told' := told.numbers 5 track
                rw [numbers_of_some scanned', leads_five_cons, choose, if_pos rfl,
                  scanf_of_some scanned']
                by_cases leaves : exits (drive state.turn) 5 track
                · exact iff_of_true (obeys_of_ended leaves told') (.inl leaves)
                · rw [or_iff_right leaves]
                  exact ih behind.length (by omega) (eq_false_of_ne_true leaves) told' rfl
          · have told' := told.number select
            rw [leads_of_ne five, choose, if_neg five, exits_of_ne five]
            by_cases eleven : select = 11
            · exact iff_of_true (obeys_of_ended (by simp [eleven]) told') (.inl eleven)
            · by_cases leaves : exits (drive state.turn) select full
              · exact iff_of_true (obeys_of_ended (by simp [leaves]) told') (.inr (.inl leaves))
              · rw [or_iff_right eleven, or_iff_right leaves]
                exact ih rest.length (by omega) (by simp [eleven, leaves]) told' rfl

end Cdrom

/-! ## myinfo.c -/

namespace Myinfo

/-- `BUF` -/
def buf : ℕ := 4096

/-- `EXIT` -/
def exit : ℤ := 9

/-- What has not been read, `auswahl`, the last number that has been read for it in this turn, the
number of turns, what they have acted on, and whether the loop has been left. -/
structure State where
  input : List Byte
  auswahl : ℤ
  read : Option ℤ
  turn : ℕ
  uses : List Use
  ended : Bool

/-- What `get_info` leaves of the input: once it has printed a file, it waits for a byte. An empty
file and one that fills the buffer are not printed. -/
def getInfo (file : Option (List Byte)) (input : List Byte) : List Byte :=
  match file with
  | none => input
  | some content =>
      if min content.length buf = 0 ∨ min content.length buf = buf then input else input.tail

/-- What the `switch` leaves of the input: the choices in front of `EXIT` show a file. -/
def leftover (files : ℕ → ℤ → Option (List Byte)) (turn : ℕ) (auswahl : ℤ) (input : List Byte) :
    List Byte :=
  if 0 ≤ auswahl ∧ auswahl < exit then getInfo (files turn auswahl) input else input

/-- The inner loop with a `scanf` made: it goes on until `getchar` returns a newline. -/
def get (files : ℕ → ℤ → Option (List Byte)) (state : State) (auswahl : Use) : List Byte → State
  | [] => { state with input := [], auswahl := auswahl.value, read := auswahl.read }
  | byte :: rest =>
      if byte = 10 then
        { input := leftover files state.turn auswahl.value rest
          auswahl := auswahl.value
          read := none
          turn := state.turn + 1
          uses := state.uses ++ [auswahl]
          ended := auswahl.value = exit }
      else { state with input := rest, auswahl := auswahl.value, read := auswahl.read }

/-- A round of the inner loop, with the `switch` if it is the last one. -/
def step (files : ℕ → ℤ → Option (List Byte)) (state : State) : State :=
  if state.ended then state
  else get files state ⟨(scanf state.auswahl state.input).1.value,
    (scanf state.auswahl state.input).1.read.or state.read⟩ (scanf state.auswahl state.input).2

/-- `main` before the loop. -/
def start (auswahl : ℤ) (input : List Byte) : State where
  input := input
  auswahl := auswahl
  read := none
  turn := 0
  uses := []
  ended := false

/-- A text leads out of the loop: in each turn a number is read before a newline is met, and in
one of them the last such number is `EXIT`. -/
inductive Leads (files : ℕ → ℤ → Option (List Byte)) : ℕ → Option ℤ → List Byte → Prop
  | byte {turn read input byte rest} (behind : (scanInt input).2 = byte :: rest)
      (other : byte ≠ 10) (leads : Leads files turn ((scanInt input).1.or read) rest) :
      Leads files turn read input
  | exit {turn read input rest} (behind : (scanInt input).2 = 10 :: rest)
      (found : (scanInt input).1.or read = some exit) : Leads files turn read input
  | again {turn read input rest auswahl} (behind : (scanInt input).2 = 10 :: rest)
      (found : (scanInt input).1.or read = some auswahl)
      (leads : Leads files (turn + 1) none (leftover files turn auswahl rest)) :
      Leads files turn read input

/-- The loop ends, and acts on what has been read in the turn. -/
def Obeys (files : ℕ → ℤ → Option (List Byte)) (state : State) : Prop :=
  Completes (step files) (·.ended) (Told ·.uses) state

variable {files : ℕ → ℤ → Option (List Byte)} {state : State} {turn : ℕ} {read : Option ℤ}
  {byte : Byte}

theorem length_leftover_le (files : ℕ → ℤ → Option (List Byte)) (turn : ℕ) (auswahl : ℤ)
    (input : List Byte) :
    (leftover files turn auswahl input).length ≤ input.length := by
  unfold leftover getInfo
  split
  · split
    · exact Nat.le_refl _
    · split
      · exact Nat.le_refl _
      · exact List.length_tail ▸ Nat.sub_le ..
  · exact Nat.le_refl _

theorem not_leads_of_nil (behind : (scanInt input).2 = []) : ¬ Leads files turn read input := by
  intro leads
  cases leads with
  | byte other => cases behind.symm.trans other
  | exit other => cases behind.symm.trans other
  | again other => cases behind.symm.trans other

theorem leads_of_byte (behind : (scanInt input).2 = byte :: rest) (other : byte ≠ 10) :
    Leads files turn read input ↔ Leads files turn ((scanInt input).1.or read) rest := by
  constructor
  · intro leads
    cases leads with
    | byte behind' _ leads =>
        cases behind.symm.trans behind'
        exact leads
    | exit behind' =>
        cases behind.symm.trans behind'
        exact absurd rfl other
    | again behind' =>
        cases behind.symm.trans behind'
        exact absurd rfl other
  · exact .byte behind other

theorem not_leads_of_unread (behind : (scanInt input).2 = 10 :: rest)
    (unread : (scanInt input).1.or read = none) : ¬ Leads files turn read input := by
  intro leads
  cases leads with
  | byte behind' other =>
      cases behind.symm.trans behind'
      exact absurd rfl other
  | exit _ found => cases unread.symm.trans found
  | again _ found => cases unread.symm.trans found

theorem leads_of_newline {auswahl : ℤ} (behind : (scanInt input).2 = 10 :: rest)
    (found : (scanInt input).1.or read = some auswahl) : Leads files turn read input ↔
      auswahl = exit ∨ Leads files (turn + 1) none (leftover files turn auswahl rest) := by
  constructor
  · intro leads
    cases leads with
    | byte behind' other =>
        cases behind.symm.trans behind'
        exact absurd rfl other
    | exit _ found' => exact .inl (Option.some.inj (found.symm.trans found'))
    | again behind' found' leads =>
        cases behind.symm.trans behind'
        cases found.symm.trans found'
        exact .inr leads
  · rintro (rfl | leads)
    · exact .exit behind found
    · exact .again behind found leads

theorem step_of_ended (ended : state.ended) : step files state = state :=
  if_pos ended

theorem step_of_running (running : state.ended = false) : step files state =
    get files state ⟨(scanf state.auswahl state.input).1.value,
      (scanf state.auswahl state.input).1.read.or state.read⟩
      (scanf state.auswahl state.input).2 := by
  rw [step, running, if_neg Bool.false_ne_true]

/-- At the end of the input the inner loop goes on for ever. -/
theorem not_obeys_of_nil (running : state.ended = false) (silent : state.input = []) :
    ¬ Obeys files state := by
  apply not_completes_of_stuck
  · rw [step_of_running running, silent]
    change State.mk .. = state
    obtain ⟨input, auswahl, read, turn, uses, ended⟩ := state
    cases silent
    rfl
  · rw [running]
    exact Bool.false_ne_true

/-- The loop obeys if the input leads out of it. -/
theorem obeys_iff (running : state.ended = false) (told : Told state.uses)
    (fresh : ∀ number ∈ state.read, number = state.auswahl) :
    Obeys files state ↔ Leads files state.turn state.read state.input := by
  induction count : state.input.length using Nat.strongRecOn generalizing state with
  | _ count ih =>
      have goes : Obeys files state ↔ Obeys files (step files state) :=
        completes_iff_step (by rw [running]; exact Bool.false_ne_true) told
      -- the variable has the last number that has been read
      have fresh' : ∀ number ∈ (scanInt state.input).1.or state.read,
          number = (scanInt state.input).1.getD state.auswahl := by
        intro number member
        cases read : (scanInt state.input).1 with
        | none =>
            rw [read] at member
            exact fresh number member
        | some other =>
            rw [read] at member
            exact (Option.some.inj member).symm
      have shorter := length_scanInt_le state.input
      rw [goes, step_of_running running, scanf]
      cases behind : (scanInt state.input).2 with
      | nil => exact iff_of_false (not_obeys_of_nil running rfl) (not_leads_of_nil behind)
      | cons byte rest =>
          rw [behind, List.length_cons] at shorter
          by_cases newline : byte = 10
          · subst newline
            have small := length_leftover_le files state.turn
              ((scanInt state.input).1.getD state.auswahl) rest
            rw [get, if_pos rfl]
            cases found : (scanInt state.input).1.or state.read with
            | none =>
                exact iff_of_false (not_completes_of_unsound (not_told_of_unread
                  (List.mem_append_right _ List.mem_cons_self) rfl))
                  (not_leads_of_unread behind found)
            | some auswahl =>
                have same := fresh' auswahl found
                rw [leads_of_newline behind found]
                rw [← same] at small ⊢
                have told' := told.number auswahl
                by_cases nine : auswahl = exit
                · exact iff_of_true (completes_of_ended (decide_eq_true nine)
                    (step_of_ended (decide_eq_true nine)) told') (.inl nine)
                · rw [or_iff_right nine]
                  exact ih (leftover files state.turn auswahl rest).length (by omega)
                    (decide_eq_false nine) told' (fun number absent => by cases absent) rfl
          · rw [leads_of_byte behind newline, get, if_neg newline]
            exact ih rest.length (by omega) running told fresh' rfl

end Myinfo

/-! ## dynamisch.c -/

namespace Dynamisch

/-- What has not been read, the variables of `main`, the number of turns, what they have acted
on, and whether the loop has been left. -/
structure State where
  input : List Byte
  val1 : ℤ
  val2 : ℤ
  turn : ℕ
  uses : List Use
  ended : Bool

/-- `scanf("%d", &val1)` -/
def scanVal1 (state : State) : Use × List Byte := scanf state.val1 state.input

/-- `scanf("%d", &val2)` -/
def scanVal2 (state : State) : Use × List Byte := scanf state.val2 (scanVal1 state).2

/-- A turn with both numbers taken: at a zero the loop is left, and the program exits if the
library or its function cannot be loaded. -/
def compare (loads : ℕ → Bool) (state : State) (val1 val2 : Use) (rest : List Byte) : State :=
  if val1.value = 0 ∨ val2.value = 0 then
    { state with input := rest, val1 := val1.value, val2 := val2.value, ended := true }
  else
    { input := rest, val1 := val1.value, val2 := val2.value, turn := state.turn + 1
      uses := state.uses ++ [val1, val2]
      ended := !loads state.turn }

/-- A turn of the loop. -/
def step (loads : ℕ → Bool) (state : State) : State :=
  if state.ended then state
  else compare loads state (scanVal1 state).1 (scanVal2 state).1 (scanVal2 state).2

/-- `main` before the loop. -/
def start (input : List Byte) : State where
  input := input
  val1 := 1
  val2 := 2
  turn := 0
  uses := []
  ended := false

/-- Some numbers lead out of the loop: one of a pair is zero, or a pair cannot be compared. Behind
the last pair a zero may come after a lone sign. -/
def Leads (loads : ℕ → Bool) : ℕ → List ℤ × List Byte → Prop
  | _, ([], behind) => (scanInt (scanInt behind).2).1 = some 0
  | _, ([val1], _) => val1 = 0
  | turn, (val1 :: val2 :: numbers, behind) =>
      val1 = 0 ∨ val2 = 0 ∨ loads turn = false ∨ Leads loads (turn + 1) (numbers, behind)

/-- The loop ends, and compares what has been read in the turn. -/
def Obeys (loads : ℕ → Bool) (state : State) : Prop :=
  Completes (step loads) (·.ended) (Told ·.uses) state

variable {loads : ℕ → Bool} {state : State}

theorem step_of_ended (ended : state.ended) : step loads state = state :=
  if_pos ended

theorem obeys_of_ended (ended : state.ended) (told : Told state.uses) : Obeys loads state :=
  completes_of_ended ended (step_of_ended ended) told

theorem step_of_running (running : state.ended = false) : step loads state =
    compare loads state (scanVal1 state).1 (scanVal2 state).1 (scanVal2 state).2 := by
  rw [step, running, if_neg Bool.false_ne_true]

variable {val1 val2 : Use}

/-- A zero ends the loop. -/
theorem obeys_of_zero (told : Told state.uses) (zero : val1.value = 0 ∨ val2.value = 0)
    (rest : List Byte) : Obeys loads (compare loads state val1 val2 rest) := by
  rw [compare, if_pos zero]
  exact obeys_of_ended rfl told

/-- A pair that has not been read is compared all the same. -/
theorem not_obeys_of_unread (other : ¬ (val1.value = 0 ∨ val2.value = 0))
    (unread : val1.read = none ∨ val2.read = none) (rest : List Byte) :
    ¬ Obeys loads (compare loads state val1 val2 rest) := by
  apply not_completes_of_unsound
  rw [compare, if_neg other]
  rcases unread with first | second
  · exact not_told_of_unread (List.mem_append_right _ List.mem_cons_self) first
  · exact not_told_of_unread
      (List.mem_append_right _ (List.mem_cons_of_mem _ List.mem_cons_self)) second

/-- The loop obeys if the numbers with which the input begins lead out of it. -/
theorem obeys_iff (running : state.ended = false) (told : Told state.uses)
    (nonzero : state.val1 ≠ 0 ∧ state.val2 ≠ 0) :
    Obeys loads state ↔ Leads loads state.turn (numbers state.input) := by
  induction count : state.input.length using Nat.strongRecOn generalizing state with
  | _ count ih =>
      have goes : Obeys loads state ↔ Obeys loads (step loads state) :=
        completes_iff_step (by rw [running]; exact Bool.false_ne_true) told
      rw [goes, step_of_running running, scanVal2, scanVal1]
      obtain ⟨read, rest, scanned⟩ : ∃ read rest, scanInt state.input = (read, rest) := ⟨_, _, rfl⟩
      obtain ⟨read', behind, scanned'⟩ : ∃ read behind, scanInt rest = (read, behind) := ⟨_, _, rfl⟩
      cases read with
      | none =>
          rw [numbers_of_none scanned, Leads, scanned, scanned', scanf_of_none scanned]
          cases read' with
          | none =>
              rw [scanf_of_none scanned']
              exact iff_of_false (not_obeys_of_unread (not_or.mpr nonzero) (.inl rfl) behind)
                (Option.some_ne_none 0).symm
          | some val2 =>
              rw [scanf_of_some scanned', Option.some.injEq]
              by_cases zero : val2 = 0
              · exact iff_of_true (obeys_of_zero told (.inr zero) behind) zero
              · exact iff_of_false
                  (not_obeys_of_unread (not_or.mpr ⟨nonzero.1, zero⟩) (.inl rfl) behind) zero
      | some val1 =>
          have shorter := length_scanInt_lt scanned
          rw [numbers_of_some scanned, scanf_of_some scanned]
          cases read' with
          | none =>
              rw [numbers_of_none scanned', Leads, scanf_of_none scanned']
              by_cases zero : val1 = 0
              · exact iff_of_true (obeys_of_zero told (.inl zero) behind) zero
              · exact iff_of_false
                  (not_obeys_of_unread (not_or.mpr ⟨zero, nonzero.2⟩) (.inr rfl) behind) zero
          | some val2 =>
              have shorter' := length_scanInt_lt scanned'
              rw [numbers_of_some scanned', Leads, scanf_of_some scanned', ← or_assoc]
              by_cases zero : val1 = 0 ∨ val2 = 0
              · exact iff_of_true (obeys_of_zero told zero behind) (.inl zero)
              · have told' := told.numbers val1 val2
                rw [or_iff_right zero, compare, if_neg zero]
                cases loads state.turn with
                | false => exact iff_of_true (obeys_of_ended rfl told') (.inl rfl)
                | true =>
                    rw [or_iff_right (Bool.noConfusion ·)]
                    exact ih behind.length (by omega) rfl told' (not_or.mp zero) rfl

end Dynamisch

/-- `main` of cdrom.c before the loop. -/
def Cdrom.start (select track : ℤ) (input : List Byte) : Cdrom.State where
  input := input
  select := select
  track := track
  turn := 0
  uses := []
  ended := false

/-- The menus act on what has been typed, and end, just if the numbers that are read lead out of
them. `select`, `track` and `auswahl` are what the variables happen to hold at first. -/
theorem obey_iff (drive : ℕ → Cdrom.Answers) (files : ℕ → ℤ → Option (List Byte))
    (loads : ℕ → Bool) (select track auswahl : ℤ) (input : List Byte) :
    (Cdrom.Obeys drive (Cdrom.start select track input) ↔
        Cdrom.Leads drive 0 (numbers input).1) ∧
      (Myinfo.Obeys files (Myinfo.start auswahl input) ↔ Myinfo.Leads files 0 none input) ∧
      (Dynamisch.Obeys loads (Dynamisch.start input) ↔
        Dynamisch.Leads loads 0 (numbers input)) :=
  ⟨Cdrom.obeys_iff rfl told_nil,
    @Myinfo.obeys_iff files (Myinfo.start auswahl input) rfl told_nil
      fun _ absent => absurd absent (Option.not_mem_none _),
    Dynamisch.obeys_iff rfl told_nil ⟨(by decide : (1 : ℤ) ≠ 0), (by decide : (2 : ℤ) ≠ 0)⟩⟩

/-- A drive that does what it is asked for. -/
def drive : ℕ → Cdrom.Answers := fun _ =>
  ⟨true, some (1, 2), ⟨CdRom.twoTracks.entry, fun _ => true⟩⟩

/-- Behind `8` and a newline cdrom stops the drive again and again, and with no input at all
myinfo does not end. -/
theorem not_obey_of_end :
    ¬ Cdrom.Obeys drive (Cdrom.start 0 0 [56, 10]) ∧
      ¬ Myinfo.Obeys (fun _ _ => none) (Myinfo.start 0 []) ∧
      ¬ Dynamisch.Obeys (fun _ => true) (Dynamisch.start []) := by
  refine ⟨fun obeys => ?_, Myinfo.not_obeys_of_nil rfl rfl, fun obeys => ?_⟩
  · exact absurd (obeys.2 _ ⟨2, rfl⟩) (by decide)
  · exact absurd (obeys.2 _ ⟨1, rfl⟩) (by decide)

end LinuxUnix.Menus

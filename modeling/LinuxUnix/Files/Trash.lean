import LinuxUnix.Foundation.CMemory
import LinuxUnix.Foundation.OpenFiles
import LinuxUnix.Foundation.TransitionSystem
import LinuxUnix.Ipc.BlockPipe

/-! # trash.c

A process opens a file and forks, and both processes write ten letters to the file and to the
standard output. They share the offset of the file, so that neither overwrites what the other has
written; the order of the letters is left to the scheduler, and each order comes up
(`LinuxUnix.Trash.letters_shared`).

The standard output goes to something else than `file.txt`, and may be open with `O_APPEND`.
-/

namespace LinuxUnix.Trash

open BlockPipe CMemory OpenFiles TransitionSystem

/-- What a process writes to: `fd` and `STDOUT_FILENO`. -/
inductive Target
  | file
  | stdout
  deriving DecidableEq

/-- Where a process is. -/
inductive At
  /-- not there yet -/
  | unborn
  /-- before `open` -/
  | opening
  /-- before `fork` -/
  | forking
  /-- before a `write` in the round with this number -/
  | writing (round : ℕ) (target : Target)
  /-- in `wait` -/
  | waiting
  /-- before the `printf` at the end -/
  | printing
  | ended (status : Status)
  deriving DecidableEq

/-- The processes, the files, the data of the calls of `write` that have succeeded, and the number
of those that have failed, as to the letters. -/
structure State where
  place : Party → At
  files : OpenFiles Target Target Byte
  calls : List (Target × List Byte)
  failed : Party → Target → ℕ

inductive Action
  | step (party : Party)
  /-- the call that is next fails -/
  | fails (party : Party)

/-- How often the loops are run through. -/
def rounds : ℕ := 10

def letter : Party → Byte
  | .parent => 'x'.toUInt8
  | .child => 'X'.toUInt8

def newline : Byte := '\n'.toUInt8

/-- Where a process is when its loop is over. -/
def At.behind : Party → At
  | .parent => .waiting
  | .child => .ended .exitSuccess

/-- Where a process is before the round with this number. -/
def At.before (party : Party) (round : ℕ) : At :=
  if round < rounds then .writing round .file else .behind party

/-- Where a process is after a `write`. -/
def At.after (party : Party) (round : ℕ) : Target → At
  | .file => .writing round .stdout
  | .stdout => .before party (round + 1)

/-- The standard output is open with `O_APPEND`, or is not; the file is not. -/
def openings (appends : Bool) : Opening Target Target where
  file := id
  appends
    | .file => false
    | .stdout => appends

/-- A process goes to another place. -/
def State.move (state : State) (party : Party) (place : At) : State :=
  { state with place := Function.update state.place party place }

/-- A `write` that succeeds. -/
def State.write (state : State) (appends : Bool) (target : Target) (bytes : List Byte) : State :=
  { state with
    files := state.files.write (openings appends) 0 target bytes
    calls := state.calls ++ [(target, bytes)] }

/-- A `write` of a letter that fails. -/
def State.miss (state : State) (party : Party) (target : Target) : State :=
  { state with
    failed := Function.update state.failed party
      (Function.update (state.failed party) target (state.failed party target + 1)) }

/-- The files after `open`. -/
def truncate (files : OpenFiles Target Target Byte) : OpenFiles Target Target Byte where
  content := Function.update files.content .file []
  offset := Function.update files.offset .file 0

/-- A step of a process whose calls succeed. -/
def State.go (appends : Bool) (state : State) (party : Party) : Option State :=
  match state.place party with
  | .unborn => none
  | .opening => some { state.move party .forking with files := truncate state.files }
  | .forking => some { state with place := fun party => .before party 0 }
  | .writing round target =>
      some ((state.move party (.after party round target)).write appends target [letter party])
  | .waiting => match state.place .child with
    | .ended _ => some (state.move party .printing)
    | _ => none
  | .printing =>
      some ((state.move party (.ended .exitSuccess)).write appends .stdout [newline])
  | .ended _ => none

/-- A step of a process whose call fails. -/
def State.fail (state : State) (party : Party) : Option State :=
  match state.place party with
  | .opening | .forking => some (state.move party (.ended .exitFailure))
  | .writing round target =>
      some ((state.move party (.after party round target)).miss party target)
  | .printing => some (state.move party (.ended .exitSuccess))
  | .unborn | .waiting | .ended _ => none

def next (appends : Bool) (state : State) : Action → Option State
  | .step party => state.go appends party
  | .fails party => state.fail party

def start (old : OpenFiles Target Target Byte) : State where
  place
    | .parent => .opening
    | .child => .unborn
  files := old
  calls := []
  failed _ _ := 0

def trash (appends : Bool) (old : OpenFiles Target Target Byte) : TransitionSystem State Action :=
  .ofFunction (· = start old) (next appends)

/-- How many letters a process has tried to write. -/
def At.tried : At → Target → ℕ
  | .unborn, _ | .opening, _ | .forking, _ | .ended .exitFailure, _ => 0
  | .writing round .file, _ | .writing round .stdout, .stdout => round
  | .writing round .stdout, .file => round + 1
  | .waiting, _ | .printing, _ | .ended .exitSuccess, _ => rounds

/-- What is promised for a state. -/
structure Shares (appends : Bool) (old : OpenFiles Target Target Byte) (state : State) : Prop where
  /-- the file has all that has been written to it -/
  file : state.place .child ≠ .unborn →
    state.files.content .file = through state.calls .file
  /-- the standard output has all that has been written to it, in one piece -/
  stdout : state.files.content .stdout =
    if appends then old.content .stdout ++ through state.calls .stdout
    else put 0 (old.content .stdout) (old.offset .stdout) (through state.calls .stdout)
  /-- all the letters that a process has written are there -/
  counts : ∀ party target, (through state.calls target).count (letter party) +
    state.failed party target = (state.place party).tried target
  /-- nothing else is there, but for the newline at the end -/
  letters : ∀ target, ∃ front back, through state.calls target = front ++ back ∧
    (∀ byte ∈ front, ∃ party, byte = letter party) ∧
    (back = [] ∨ back = [newline] ∧ target = .stdout ∧
      ∀ party, state.place party = .ended .exitSuccess)

/-- A process in its loop, or right behind it. -/
inductive Works (party : Party) : At → Prop
  | writing {round : ℕ} (target : Target) (inside : round < rounds) :
      Works party (.writing round target)
  | through : Works party (.before party rounds)

/-- Where the parent and the child are, what the files are, and what has been written. -/
inductive Flow (appends : Bool) (old : OpenFiles Target Target Byte) :
    At → At → OpenFiles Target Target Byte → List (Target × List Byte) → Prop
  | opening : Flow appends old .opening .unborn old []
  | forking : Flow appends old .forking .unborn (truncate old) []
  | failed {files : OpenFiles Target Target Byte} (untouched : files = old ∨ files = truncate old) :
      Flow appends old (.ended .exitFailure) .unborn files []
  | working {parent child : At} (calls : List (Target × List Byte))
      (parentWorks : Works .parent parent) (childWorks : Works .child child) :
      Flow appends old parent child ((truncate old).writes (openings appends) 0 calls) calls
  | printing (calls : List (Target × List Byte)) : Flow appends old .printing
      (.ended .exitSuccess) ((truncate old).writes (openings appends) 0 calls) calls
  | ended (calls : List (Target × List Byte)) : Flow appends old (.ended .exitSuccess)
      (.ended .exitSuccess) ((truncate old).writes (openings appends) 0 calls) calls

/-- Only letters have been written, and perhaps the newline, if both processes have ended. -/
def Letters (place : Party → At) (calls : List (Target × List Byte)) : Prop :=
  ∀ target, ∃ front back, through calls target = front ++ back ∧
    (∀ byte ∈ front, ∃ party, byte = letter party) ∧
    (back = [] ∨ back = [newline] ∧ target = .stdout ∧ ∀ party, place party = .ended .exitSuccess)

/-- What holds in every run. -/
structure Sound (appends : Bool) (old : OpenFiles Target Target Byte) (state : State) : Prop where
  flow : Flow appends old (state.place .parent) (state.place .child) state.files state.calls
  counts : ∀ party target, (through state.calls target).count (letter party) +
    state.failed party target = (state.place party).tried target
  letters : Letters state.place state.calls

variable {appends : Bool} {old : OpenFiles Target Target Byte} {before after state : State}
  {party : Party} {round : ℕ} {target : Target}

theorem letter_injective : Function.Injective letter := by
  intro first second
  cases first <;> cases second <;> decide

theorem newline_ne_letter (party : Party) : newline ≠ letter party := by
  cases party <;> decide

theorem works_before (party : Party) (inside : round ≤ rounds) :
    Works party (.before party round) := by
  rcases Nat.lt_or_eq_of_le inside with less | rfl
  · rw [At.before, if_pos less]
    exact .writing .file less
  · exact .through

theorem works_after (party : Party) (target : Target) (inside : round < rounds) :
    Works party (.after party round target) := by
  cases target with
  | file => exact .writing .stdout inside
  | stdout => exact works_before party inside

theorem tried_before (party : Party) (target : Target) (inside : round ≤ rounds) :
    (At.before party round).tried target = round := by
  rcases Nat.lt_or_eq_of_le inside with less | rfl
  · rw [At.before, if_pos less]
    cases target <;> rfl
  · cases party <;> cases target <;> rfl

/-- A `write` makes one try more. -/
theorem tried_after (party : Party) (target other : Target) (inside : round < rounds) :
    (At.after party round target).tried other =
      (At.writing round target).tried other + if target = other then 1 else 0 := by
  cases target with
  | file => cases other <;> rfl
  | stdout =>
      rw [At.after, tried_before party other inside]
      cases other <;> rfl

theorem count_letter (party other : Party) :
    [letter party].count (letter other) = if party = other then 1 else 0 := by
  rw [List.count_singleton]
  by_cases same : party = other
  · rw [if_pos same, same, beq_self_eq_true, if_pos rfl]
  · rw [if_neg same, beq_false_of_ne fun equal => same (letter_injective equal),
      if_neg Bool.false_ne_true]

theorem sound_start (appends : Bool) (old : OpenFiles Target Target Byte) :
    Sound appends old (start old) where
  flow := .opening
  counts party target := by cases party <;> rfl
  letters target := ⟨[], [], rfl, nofun, .inl rfl⟩

/-- What only a process at its end has behind the letters, others do not have. -/
theorem Letters.pure {place : Party → At} {calls : List (Target × List Byte)}
    (letters : Letters place calls) (unfinished : place party ≠ .ended .exitSuccess)
    (target : Target) : ∀ byte ∈ through calls target, ∃ party, byte = letter party := by
  obtain ⟨front, back, split, pure_, nothing | ⟨_, _, finished⟩⟩ := letters target
  · rw [split, nothing, List.append_nil]
    exact pure_
  · exact absurd (finished party) unfinished

theorem Letters.of_pure {place : Party → At} {calls : List (Target × List Byte)}
    (pure_ : ∀ target, ∀ byte ∈ through calls target, ∃ party, byte = letter party) :
    Letters place calls :=
  fun target => ⟨through calls target, [], (List.append_nil _).symm, pure_ target, .inl rfl⟩

/-- A process before a `write`: both are at work. -/
theorem Sound.works (sound : Sound appends old state)
    (place : state.place party = .writing round target) : round < rounds ∧
      Works .parent (state.place .parent) ∧ Works .child (state.place .child) ∧
      state.files = (truncate old).writes (openings appends) 0 state.calls := by
  have inside {party : Party} (works : Works party (.writing round target)) : round < rounds := by
    generalize same : At.writing round target = place at works
    cases works with
    | writing target inside =>
        cases same
        exact inside
    | through => cases party <;> cases same
  have flow := sound.flow
  generalize state.files = files at flow ⊢
  generalize atParent : state.place .parent = parent at flow
  generalize atChild : state.place .child = child at flow
  cases party with
  | parent =>
      cases place.symm.trans atParent
      cases flow with
      | working calls parentWorks childWorks =>
          exact ⟨inside parentWorks, parentWorks, childWorks, rfl⟩
  | child =>
      cases place.symm.trans atChild
      cases flow with
      | working calls parentWorks childWorks =>
          exact ⟨inside childWorks, parentWorks, childWorks, rfl⟩

/-- A process goes on in its loop. -/
theorem Sound.flow_after (sound : Sound appends old before)
    (place : before.place party = .writing round target) (calls : List (Target × List Byte)) :
    Flow appends old
      (Function.update before.place party (.after party round target) .parent)
      (Function.update before.place party (.after party round target) .child)
      ((truncate old).writes (openings appends) 0 calls) calls := by
  obtain ⟨inside, parentWorks, childWorks, -⟩ := sound.works place
  cases party with
  | parent =>
      rw [Function.update_self, Function.update_of_ne (show Party.child ≠ .parent from nofun)]
      exact .working calls (works_after .parent target inside) childWorks
  | child =>
      rw [Function.update_self, Function.update_of_ne (show Party.parent ≠ .child from nofun)]
      exact .working calls parentWorks (works_after .child target inside)

/-- A letter is written. -/
theorem Sound.write (sound : Sound appends old before)
    (place : before.place party = .writing round target) :
    Sound appends old
      ((before.move party (.after party round target)).write appends target [letter party]) := by
  obtain ⟨inside, -, -, files⟩ := sound.works place
  have unfinished : before.place party ≠ .ended .exitSuccess := by
    rw [place]
    exact nofun
  refine ⟨?_, fun other into => ?_, .of_pure fun into byte member => ?_⟩
  · have written : before.files.write (openings appends) 0 target [letter party] =
        (truncate old).writes (openings appends) 0 (before.calls ++ [(target, [letter party])]) := by
      rw [writes_append, files]
      rfl
    change Flow appends old _ _ (before.files.write (openings appends) 0 target [letter party]) _
    rw [written]
    exact sound.flow_after place _
  · have count := sound.counts other into
    change (through (before.calls ++ [(target, [letter party])]) into).count (letter other) +
      before.failed other into = (Function.update before.place party _ other).tried into
    rw [through_concat, List.count_append]
    by_cases same : other = party
    · subst same
      rw [place] at count
      rw [Function.update_self, tried_after other target into inside, ← count]
      split
      · rw [count_letter, if_pos rfl]
        omega
      · rfl
    · rw [Function.update_of_ne same, ← count]
      split
      · rw [count_letter, if_neg fun equal => same equal.symm]
        rfl
      · rfl
  · change byte ∈ through (before.calls ++ [(target, [letter party])]) into at member
    rw [through_concat] at member
    rcases List.mem_append.mp member with earlier | last
    · exact sound.letters.pure unfinished into byte earlier
    · split at last
      · exact ⟨party, List.mem_singleton.mp last⟩
      · cases last

/-- A letter is not written. -/
theorem Sound.miss (sound : Sound appends old before)
    (place : before.place party = .writing round target) :
    Sound appends old ((before.move party (.after party round target)).miss party target) := by
  obtain ⟨inside, -, -, files⟩ := sound.works place
  have unfinished : before.place party ≠ .ended .exitSuccess := by
    rw [place]
    exact nofun
  refine ⟨?_, fun other into => ?_, .of_pure (sound.letters.pure unfinished)⟩
  · change Flow appends old _ _ before.files before.calls
    rw [files]
    exact sound.flow_after place _
  · have count := sound.counts other into
    change (through before.calls into).count (letter other) +
      Function.update before.failed party _ other into =
        (Function.update before.place party _ other).tried into
    by_cases same : other = party
    · subst same
      rw [place] at count
      rw [Function.update_self, Function.update_self, tried_after other target into inside, ← count]
      by_cases there : into = target
      · rw [there, Function.update_self, if_pos rfl, Nat.add_assoc]
        rfl
      · rw [Function.update_of_ne there, if_neg fun equal => there equal.symm]
        rfl
    · rw [Function.update_of_ne same, Function.update_of_ne same]
      exact count

theorem Works.cases {place : At} (works : Works party place) :
    (∃ round target, place = .writing round target) ∨ place = .behind party := by
  cases works with
  | writing target inside => exact .inl ⟨_, target, rfl⟩
  | through => exact .inr (if_neg (Nat.lt_irrefl _))

/-- A process that neither writes letters nor has ended is the parent. -/
theorem Sound.eq_parent (sound : Sound appends old state)
    (born : state.place party ≠ .unborn) (idle : ∀ round target, state.place party ≠
      .writing round target) (lives : ∀ status, state.place party ≠ .ended status) :
    party = .parent := by
  have flow := sound.flow
  cases party with
  | parent => rfl
  | child =>
      generalize state.place .child = child at born idle lives flow
      generalize state.place .parent = parent at flow
      generalize state.files = files at flow
      generalize state.calls = calls at flow
      have behind (works : Works .child child) : Party.child = .parent := by
        rcases works.cases with ⟨round, target, place⟩ | place
        · exact absurd place (idle round target)
        · exact absurd place (lives _)
      cases flow with
      | opening | forking | failed _ => exact absurd rfl born
      | working calls parentWorks childWorks => exact behind childWorks
      | printing calls | ended calls => exact absurd rfl (lives _)

theorem parent_update (place : Party → At) (next : At) :
    Function.update place .parent next .parent = next ∧
      Function.update place .parent next .child = place .child :=
  ⟨Function.update_self .., Function.update_of_ne (show Party.child ≠ .parent from nofun) _ _⟩

/-- The parent goes on without a letter: nothing changes for the letters. -/
theorem Sound.idle (sound : Sound appends old before) {next : At}
    {files : OpenFiles Target Target Byte}
    (unfinished : before.place .parent ≠ .ended .exitSuccess)
    (tried : ∀ target, next.tried target = (before.place .parent).tried target)
    (flow : Flow appends old next (before.place .child) files before.calls) :
    Sound appends old { before.move .parent next with files } where
  flow := by
    obtain ⟨parent, child⟩ := parent_update before.place next
    change Flow appends old (Function.update before.place .parent next .parent)
      (Function.update before.place .parent next .child) files before.calls
    rw [parent, child]
    exact flow
  counts other into := by
    refine (sound.counts other into).trans ?_
    obtain ⟨parent, child⟩ := parent_update before.place next
    cases other with
    | parent => exact (tried into).symm.trans (congrArg (At.tried · into) parent.symm)
    | child => exact congrArg (At.tried · into) child.symm
  letters := .of_pure (sound.letters.pure unfinished)

theorem Sound.printed (sound : Sound appends old before) (place : before.place .parent = .printing) :
    Sound appends old ((before.move .parent (.ended .exitSuccess)).write appends .stdout
      [newline]) := by
  have unfinished : before.place .parent ≠ .ended .exitSuccess := by
    rw [place]
    exact nofun
  have pure_ := sound.letters.pure unfinished
  have flow := sound.flow
  rw [place] at flow
  generalize moved : before.move .parent (.ended .exitSuccess) = middle
  obtain ⟨parent, child⟩ := parent_update before.place (.ended .exitSuccess)
  generalize atChild : before.place .child = there at flow child
  generalize filesBefore : before.files = files at flow
  generalize callsBefore : before.calls = calls at flow
  cases flow with
  | working calls parentWorks childWorks =>
      rcases parentWorks.cases with ⟨round, target, other⟩ | other
      · cases other
      · cases other
  | printing calls =>
      have ended : ∀ party, middle.place party = .ended .exitSuccess := by
        subst moved
        intro party
        cases party with
        | parent => exact parent
        | child => exact child
      have calls_ : middle.calls = calls := by rw [← moved, ← callsBefore]; rfl
      have files_ : middle.files = (truncate old).writes (openings appends) 0 calls := by
        rw [← moved, ← filesBefore]
        rfl
      have tried : ∀ party target, (through calls target).count (letter party) +
          middle.failed party target = (middle.place party).tried target := by
        intro party target
        have count := sound.counts party target
        rw [callsBefore] at count
        rw [ended party, ← moved]
        refine count.trans ?_
        cases party with
        | parent => rw [place]; cases target <;> rfl
        | child => rw [atChild]
      refine ⟨?_, fun party target => ?_, fun target => ?_⟩
      · have written : middle.files.write (openings appends) 0 .stdout [newline] =
            (truncate old).writes (openings appends) 0 (calls ++ [(.stdout, [newline])]) := by
          rw [writes_append, files_]
          rfl
        change Flow appends old (middle.place .parent) (middle.place .child)
          (middle.files.write (openings appends) 0 .stdout [newline])
          (middle.calls ++ [(.stdout, [newline])])
        rw [written, calls_, ended, ended]
        exact .ended _
      · change (through (middle.calls ++ [(.stdout, [newline])]) target).count (letter party) +
          middle.failed party target = (middle.place party).tried target
        rw [calls_, through_concat, List.count_append, ← tried party target]
        split
        · rw [List.count_singleton, beq_false_of_ne (newline_ne_letter party)]
          rfl
        · rfl
      · change ∃ front back, through (middle.calls ++ [(.stdout, [newline])]) target =
          front ++ back ∧ _
        rw [calls_, through_concat]
        rw [callsBefore] at pure_
        refine ⟨_, _, rfl, pure_ target, ?_⟩
        split
        · rename_i same
          exact .inr ⟨rfl, same.symm, ended⟩
        · exact .inl rfl

theorem Sound.opened (sound : Sound appends old before) (place : before.place .parent = .opening) :
    Sound appends old { before.move .parent .forking with files := truncate before.files } := by
  refine sound.idle (by rw [place]; exact nofun) (fun target => by rw [place]; rfl) ?_
  have flow := sound.flow
  rw [place] at flow
  generalize before.place .child = child at flow ⊢
  generalize before.files = files at flow ⊢
  generalize before.calls = calls at flow ⊢
  cases flow with
  | opening => exact .forking
  | working calls parentWorks childWorks =>
      rcases parentWorks.cases with ⟨round, target, other⟩ | other
      · cases other
      · cases other

theorem Sound.forked (sound : Sound appends old before) (place : before.place .parent = .forking) :
    Sound appends old { before with place := fun party => .before party 0 } := by
  have flow := sound.flow
  have counts := sound.counts
  rw [place] at flow
  generalize atChild : before.place .child = child at flow
  generalize before.files = files at flow ⊢
  generalize before.calls = calls at flow counts ⊢
  cases flow with
  | forking =>
      refine ⟨?_, fun party target => (counts party target).trans ?_, .of_pure nofun⟩
      · exact .working [] (works_before .parent (Nat.zero_le _)) (works_before .child (Nat.zero_le _))
      · rw [tried_before party target (Nat.zero_le _)]
        cases party with
        | parent => rw [place]; cases target <;> rfl
        | child => rw [atChild]; cases target <;> rfl
  | working calls parentWorks childWorks =>
      rcases parentWorks.cases with ⟨round, target, other⟩ | other
      · cases other
      · cases other

theorem Sound.waited (sound : Sound appends old before) {status : Status}
    (place : before.place .parent = .waiting) (ended : before.place .child = .ended status) :
    Sound appends old (before.move .parent .printing) := by
  refine sound.idle (by rw [place]; exact nofun) (fun target => by rw [place]; rfl) ?_
  have flow := sound.flow
  rw [place, ended] at flow
  rw [ended]
  generalize before.files = files at flow ⊢
  generalize before.calls = calls at flow ⊢
  cases flow with
  | working calls parentWorks childWorks =>
      rcases childWorks.cases with ⟨round, target, other⟩ | other
      · cases other
      · cases other
        exact .printing calls

theorem Sound.go (sound : Sound appends old before) (moved : before.go appends party = some after) :
    Sound appends old after := by
  have parent : _ → _ → _ → party = .parent := sound.eq_parent
  rw [State.go] at moved
  cases place : before.place party with
  | unborn | ended _ =>
      rw [place] at moved
      cases moved
  | writing round target =>
      rw [place] at moved
      cases moved
      exact sound.write place
  | opening =>
      rw [place] at moved parent
      obtain rfl := parent nofun nofun nofun
      cases moved
      exact sound.opened place
  | forking =>
      rw [place] at moved parent
      obtain rfl := parent nofun nofun nofun
      cases moved
      exact sound.forked place
  | waiting =>
      rw [place] at moved parent
      obtain rfl := parent nofun nofun nofun
      simp only at moved
      split at moved
      · rename_i status ended
        cases moved
        exact sound.waited place ended
      · cases moved
  | printing =>
      rw [place] at moved parent
      obtain rfl := parent nofun nofun nofun
      cases moved
      exact sound.printed place

/-- `open` or `fork` has failed. -/
theorem Sound.gaveUp (sound : Sound appends old before)
    (place : before.place .parent = .opening ∨ before.place .parent = .forking) :
    Sound appends old (before.move .parent (.ended .exitFailure)) := by
  refine sound.idle ?_ (fun target => ?_) ?_
  · rcases place with place | place <;> rw [place] <;> exact nofun
  · rcases place with place | place <;> rw [place] <;> rfl
  · have flow := sound.flow
    generalize before.place .parent = parent at flow place
    generalize before.place .child = child at flow ⊢
    generalize before.files = files at flow ⊢
    generalize before.calls = calls at flow ⊢
    cases flow with
    | opening => exact .failed (.inl rfl)
    | forking => exact .failed (.inr rfl)
    | failed _ | printing _ | ended _ => rcases place with place | place <;> cases place
    | working calls parentWorks childWorks =>
        rcases parentWorks.cases with ⟨round, target, other⟩ | other
        · rw [other] at place
          rcases place with place | place <;> cases place
        · rw [other] at place
          rcases place with place | place <;> cases place

/-- The `printf` has failed. -/
theorem Sound.unprinted (sound : Sound appends old before)
    (place : before.place .parent = .printing) :
    Sound appends old (before.move .parent (.ended .exitSuccess)) := by
  refine sound.idle (by rw [place]; exact nofun) (fun target => by rw [place]; rfl) ?_
  have flow := sound.flow
  rw [place] at flow
  generalize before.place .child = child at flow ⊢
  generalize before.files = files at flow ⊢
  generalize before.calls = calls at flow ⊢
  cases flow with
  | printing calls => exact .ended calls
  | working calls parentWorks childWorks =>
      rcases parentWorks.cases with ⟨round, target, other⟩ | other
      · cases other
      · cases other

theorem Sound.fail (sound : Sound appends old before) (moved : before.fail party = some after) :
    Sound appends old after := by
  have parent : _ → _ → _ → party = .parent := sound.eq_parent
  rw [State.fail] at moved
  cases place : before.place party with
  | unborn | waiting | ended _ =>
      rw [place] at moved
      cases moved
  | writing round target =>
      rw [place] at moved
      cases moved
      exact sound.miss place
  | opening =>
      rw [place] at moved parent
      obtain rfl := parent nofun nofun nofun
      cases moved
      exact sound.gaveUp (.inl place)
  | forking =>
      rw [place] at moved parent
      obtain rfl := parent nofun nofun nofun
      cases moved
      exact sound.gaveUp (.inr place)
  | printing =>
      rw [place] at moved parent
      obtain rfl := parent nofun nofun nofun
      cases moved
      exact sound.unprinted place

theorem sound_invariant (appends : Bool) (old : OpenFiles Target Target Byte) :
    (trash appends old).Invariant (Sound appends old) where
  initial := by
    rintro _ rfl
    exact sound_start appends old
  step before action after sound moved := by
    cases action with
    | step party => exact sound.go moved
    | fails party => exact sound.fail moved

/-- What the calls make of the files. -/
theorem Flow.contents {parent child : At} {files : OpenFiles Target Target Byte}
    {calls : List (Target × List Byte)} (flow : Flow appends old parent child files calls) :
    (child ≠ .unborn → files.content .file = through calls .file) ∧
      files.content .stdout =
        if appends then old.content .stdout ++ through calls .stdout
        else put 0 (old.content .stdout) (old.offset .stdout) (through calls .stdout) := by
  have nothing {files : OpenFiles Target Target Byte}
      (same : files.content .stdout = old.content .stdout) : files.content .stdout =
        if appends then old.content .stdout ++ through [] Target.stdout
        else put 0 (old.content .stdout) (old.offset .stdout) (through [] Target.stdout) := by
    rw [same]
    split
    · exact (List.append_nil _).symm
    · exact (put_nil ..).symm
  have written (calls : List (Target × List Byte)) :
      ((truncate old).writes (openings appends) 0 calls).content .file = through calls .file ∧
        ((truncate old).writes (openings appends) 0 calls).content .stdout =
          if appends then old.content .stdout ++ through calls .stdout
          else put 0 (old.content .stdout) (old.offset .stdout) (through calls .stdout) := by
    refine ⟨?_, ?_⟩
    · have sole : ∀ call ∈ calls, (openings appends).file call.1 =
          (openings appends).file .file → call.1 = .file := fun _ _ => id
      exact (content_writes_of_sole rfl sole).trans (nil_put ..)
    · cases appends with
      | true =>
          have appended : ∀ call ∈ calls, (openings true).file call.1 = .stdout →
              (openings true).appends call.1 = true := by
            intro call _ same
            rw [show call.1 = .stdout from same]
            rfl
          exact content_writes_of_appends appended
      | false =>
          have sole : ∀ call ∈ calls, (openings false).file call.1 =
              (openings false).file .stdout → call.1 = .stdout := fun _ _ => id
          exact content_writes_of_sole rfl sole
  cases flow with
  | opening => exact ⟨fun born => absurd rfl born, nothing rfl⟩
  | forking => exact ⟨fun born => absurd rfl born, nothing rfl⟩
  | failed untouched =>
      refine ⟨fun born => absurd rfl born, nothing ?_⟩
      rcases untouched with rfl | rfl <;> rfl
  | working calls _ _ => exact ⟨fun _ => (written calls).1, (written calls).2⟩
  | printing calls => exact ⟨fun _ => (written calls).1, (written calls).2⟩
  | ended calls => exact ⟨fun _ => (written calls).1, (written calls).2⟩

theorem Sound.shares (sound : Sound appends old state) : Shares appends old state where
  file := sound.flow.contents.1
  stdout := sound.flow.contents.2
  counts := sound.counts
  letters := sound.letters

/-- A run that has come between two rounds: what it has written to the file, and how many letters
of each process have got lost there. -/
structure Between (appends : Bool) (old : OpenFiles Target Target Byte) (word : List Byte)
    (lost : Party → ℕ) (state : State) : Prop where
  reached : (trash appends old).Reachable state
  place : ∀ party, state.place party = .before party (word.count (letter party) + lost party)
  word : through state.calls .file = word
  lost : ∀ party, state.failed party .file = lost party

variable {word : List Byte} {lost : Party → ℕ}

theorem go_writing (appends : Bool) (place : state.place party = .writing round target) :
    state.go appends party =
      some ((state.move party (.after party round target)).write appends target [letter party]) := by
  rw [State.go, place]

theorem fail_writing (place : state.place party = .writing round target) :
    state.fail party =
      some ((state.move party (.after party round target)).miss party target) := by
  rw [State.fail, place]

theorem exists_between (appends : Bool) (old : OpenFiles Target Target Byte) :
    ∃ state, Between appends old [] (fun _ => 0) state := by
  have started : (trash appends old).Reachable (start old) := .initial rfl
  have executed : run (next appends) (start old) [.step .parent, .step .parent] =
      some ⟨fun party => .before party 0, truncate old, [], fun _ _ => 0⟩ := rfl
  exact ⟨_, .of_execution started executed, fun _ => rfl, rfl, fun _ => rfl⟩

/-- A process whose `write` to the file is over writes to the standard output. -/
theorem exists_round {middle : State} (action : Action) (party : Party)
    (reached : (trash appends old).Reachable state)
    (moved : next appends state action = some middle)
    (place : middle.place = Function.update state.place party (.writing round .stdout)) :
    ∃ after, (trash appends old).Reachable after ∧
      after.place = Function.update state.place party (.before party (round + 1)) ∧
      through after.calls .file = through middle.calls .file ∧ after.failed = middle.failed := by
  have there : middle.place party = .writing round .stdout := by
    rw [place, Function.update_self]
  have writes : (trash appends old).step middle (.step party) _ := go_writing appends there
  refine ⟨_, .step (.step reached moved) writes, ?_, ?_, rfl⟩
  · change Function.update middle.place party (.before party (round + 1)) = _
    rw [place, Function.update_idem]
  · change through (middle.calls ++ [(.stdout, [letter party])]) .file = _
    rw [through_concat, if_neg (show Target.stdout ≠ .file from nofun), List.append_nil]

/-- A process makes a round, and its letter comes into the file. -/
theorem Between.write (between : Between appends old word lost state)
    (inside : word.count (letter party) + lost party < rounds) :
    ∃ after, Between appends old (word ++ [letter party]) lost after := by
  have place := between.place party
  rw [At.before, if_pos inside] at place
  obtain ⟨after, reached, places, calls, failed⟩ := exists_round (.step party) party
    between.reached (go_writing appends place) rfl
  refine ⟨after, reached, fun other => ?_, ?_, fun other => ?_⟩
  · rw [places, List.count_append, count_letter]
    by_cases same : other = party
    · rw [same, Function.update_self, if_pos rfl, Nat.add_right_comm]
    · rw [Function.update_of_ne same, between.place other, if_neg fun equal => same equal.symm,
        Nat.add_zero]
  · rw [calls, ← between.word]
    exact through_concat ..
  · rw [failed]
    exact between.lost other

/-- A process makes a round, and its letter gets lost. -/
theorem Between.miss (between : Between appends old word lost state)
    (inside : word.count (letter party) + lost party < rounds) :
    ∃ after, Between appends old word (Function.update lost party (lost party + 1)) after := by
  have place := between.place party
  rw [At.before, if_pos inside] at place
  obtain ⟨after, reached, places, calls, failed⟩ := exists_round (.fails party) party
    between.reached (fail_writing place) rfl
  refine ⟨after, reached, fun other => ?_, calls.trans between.word, fun other => ?_⟩
  · rw [places]
    by_cases same : other = party
    · rw [same, Function.update_self, Function.update_self, Nat.add_assoc]
    · rw [Function.update_of_ne same, Function.update_of_ne same, between.place other]
  · rw [failed]
    change Function.update state.failed party _ other .file = _
    by_cases same : other = party
    · subst same
      rw [Function.update_self, Function.update_self, Function.update_self]
      exact congrArg Nat.succ (between.lost other)
    · rw [Function.update_of_ne same, Function.update_of_ne same, between.lost other]

/-- The letters of a word come into the file one after another. -/
theorem exists_between_word (appends : Bool) (old : OpenFiles Target Target Byte) (word : List Byte)
    (short : ∀ party, word.count (letter party) ≤ rounds)
    (letters : ∀ byte ∈ word, ∃ party, byte = letter party) :
    ∃ state, Between appends old word (fun _ => 0) state := by
  induction word using List.reverseRecOn with
  | nil => exact exists_between appends old
  | append_singleton word byte ih =>
      have shorter (party : Party) : word.count (letter party) ≤ rounds := by
        have both := short party
        rw [List.count_append] at both
        exact Nat.le_trans (Nat.le_add_right ..) both
      obtain ⟨state, between⟩ := ih shorter fun byte member =>
        letters byte (List.mem_append_left _ member)
      obtain ⟨party, rfl⟩ := letters byte (List.mem_append_right _ (List.mem_singleton_self _))
      have less := short party
      rw [List.count_append, count_letter, if_pos rfl] at less
      exact between.write less

/-- A process loses letters. -/
theorem Between.misses (between : Between appends old word lost state) (party : Party)
    (count : ℕ) (short : word.count (letter party) + lost party + count ≤ rounds) :
    ∃ after, Between appends old word (Function.update lost party (lost party + count)) after := by
  induction count with
  | zero =>
      rw [Nat.add_zero, Function.update_eq_self]
      exact ⟨state, between⟩
  | succ count ih =>
      obtain ⟨middle, middleBetween⟩ := ih (by omega)
      have inside : word.count (letter party) +
          Function.update lost party (lost party + count) party < rounds := by
        rw [Function.update_self]
        omega
      have missed := middleBetween.miss inside
      rwa [Function.update_self, Function.update_idem] at missed

theorem exists_between_lost (appends : Bool) (old : OpenFiles Target Target Byte)
    (short : ∀ party, word.count (letter party) + lost party ≤ rounds)
    (letters : ∀ byte ∈ word, ∃ party, byte = letter party) :
    ∃ state, Between appends old word lost state := by
  obtain ⟨_, all⟩ := exists_between_word appends old word
    (fun party => Nat.le_trans (Nat.le_add_right ..) (short party)) letters
  obtain ⟨_, parents⟩ := all.misses .parent (lost .parent) (short .parent)
  obtain ⟨state, both⟩ := parents.misses .child (lost .child) (short .child)
  have same : Function.update (Function.update (fun _ => 0) .parent (0 + lost .parent)) .child
      (0 + lost .child) = lost := by
    funext party
    cases party with
    | parent => exact Nat.zero_add _
    | child => exact Nat.zero_add _
  exact ⟨state, same ▸ both⟩

/-- **The offset is shared.** In every run the file has each letter that a process has written to it,
and the standard output, in one piece, what has been written there. What the file can have in the
end are all the words with ten letters of each process, less those whose `write` has failed. -/
theorem letters_shared (appends : Bool) (old : OpenFiles Target Target Byte) :
    (∀ state, (trash appends old).Reachable state → Shares appends old state) ∧
      ∀ (word : List Byte) (lost : Party → ℕ), (∃ state, (trash appends old).Reachable state ∧
        (∀ party, state.place party = .ended .exitSuccess) ∧
        (∀ party, state.failed party .file = lost party) ∧ state.files.content .file = word) ↔
      (∀ party, word.count (letter party) + lost party = rounds) ∧
        ∀ byte ∈ word, ∃ party, byte = letter party := by
  have shares (state : State) (reached : (trash appends old).Reachable state) :
      Shares appends old state :=
    ((sound_invariant appends old).reachable reached).shares
  refine ⟨shares, fun word lost => ⟨?_, ?_⟩⟩
  · rintro ⟨state, reached, ended, failed, content⟩
    have shared := shares state reached
    have written := shared.file (by rw [ended]; exact nofun)
    rw [content] at written
    refine ⟨fun party => ?_, ?_⟩
    · have count := shared.counts party .file
      rw [← written, failed, ended] at count
      exact count
    · obtain ⟨front, back, split, pure_, nothing | ⟨_, other, _⟩⟩ := shared.letters .file
      · rw [written, split, nothing, List.append_nil]
        exact pure_
      · cases other
  · rintro ⟨counts, letters⟩
    obtain ⟨state, between⟩ := exists_between_lost appends old
      (fun party => Nat.le_of_eq (counts party)) letters
    have behind (party : Party) : state.place party = .behind party := by
      rw [between.place party, counts party]
      exact if_neg (Nat.lt_irrefl _)
    have waited : (trash appends old).step state (.step .parent) (state.move .parent .printing) := by
      change state.go appends .parent = some _
      rw [State.go, behind .parent]
      simp only [At.behind, behind .child]
    have printed : (trash appends old).step (state.move .parent .printing) (.step .parent)
        (((state.move .parent .printing).move .parent (.ended .exitSuccess)).write appends
          .stdout [newline]) := rfl
    have final := (between.reached.step waited).step printed
    have ended (party : Party) : (((state.move .parent .printing).move .parent
        (.ended .exitSuccess)).write appends .stdout [newline]).place party =
          .ended .exitSuccess := by
      cases party with
      | parent => rfl
      | child => exact behind .child
    refine ⟨_, final, ended, between.lost, ?_⟩
    rw [(shares _ final).file (by rw [ended]; exact nofun), ← between.word]
    exact (through_concat ..).trans (List.append_nil _)

end LinuxUnix.Trash

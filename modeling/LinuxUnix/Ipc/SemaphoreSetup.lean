import LinuxUnix.Ipc.CriticalSection

/-! # Setting up the semaphore

`init_semaphore` looks for the semaphore set of `KEY` and, when there is none, asks for a new
one with `IPC_EXCL`. These are two system calls: a process that another one overtakes between
them is refused, and returns `-1` (`LinuxUnix.SemaphoreSetup.not_succeeds_of_overtaken`). Every
process gets the set in exactly those runs in which no process looks for it, before it exists,
while another one is about to create it (`LinuxUnix.SemaphoreSetup.succeeds_of_reachable`,
`LinuxUnix.SemaphoreSetup.succeeds_iff_alone`).
-/

namespace LinuxUnix.SemaphoreSetup

open TransitionSystem

/-- Where a process stands in `init_semaphore`. -/
inductive At
  /-- before the first `semget` -/
  | find
  /-- before the second `semget` -/
  | create
  /-- before `semctl(semid, 0, SETVAL, 1)` -/
  | set
  | returned (res : ℤ)
  deriving DecidableEq

/-- The set of `KEY`: its identifier, and the value of the semaphore in it. -/
structure SemSet where
  semid : ℕ
  semval : ℕ
  deriving DecidableEq

variable {Process : Type} [DecidableEq Process]

/-- The set of `KEY`, if it exists, where the processes stand, and their variables `semid`. -/
structure State (Process : Type) where
  sems : Option SemSet
  place : Process → At
  semid : Process → ℤ

/-- There is no set yet; `semid` is a static variable. -/
def State.start : State Process where
  sems := none
  place := fun _ => .find
  semid := fun _ => 0

/-- A process makes its next system call; `fresh` is the identifier of the set that is created
then, if one is. -/
structure Call (Process : Type) where
  who : Process
  fresh : ℕ

/-- The process has assigned its `semid`, and goes on. -/
def State.goOn (state : State Process) (who : Process) (semid : ℤ) (next : At) : State Process :=
  { state with
    semid := Function.update state.semid who semid, place := Function.update state.place who next }

/-- `semid = semget(KEY, 0, IPC_PRIVATE)` -/
def findSet (state : State Process) (who : Process) : State Process :=
  match state.sems with
  | none => state.goOn who (-1) .create
  | some sems => state.goOn who sems.semid (.returned 1)

/-- `semid = semget(KEY, 1, IPC_CREAT | IPC_EXCL | PERM)` -/
def createSet (state : State Process) (who : Process) (fresh : ℕ) : State Process :=
  match state.sems with
  | none => { state with sems := some ⟨fresh, 0⟩ }.goOn who fresh .set
  | some _ => state.goOn who (-1) (.returned (-1))

/-- `semctl(semid, 0, SETVAL, 1)` -/
def setValue (state : State Process) (who : Process) : State Process :=
  match state.sems with
  | none => state.goOn who (state.semid who) (.returned (-1))
  | some sems =>
      if state.semid who = sems.semid then
        { state with sems := some { sems with semval := 1 } }.goOn who (state.semid who)
          (.returned 1)
      else state.goOn who (state.semid who) (.returned (-1))

/-- `init_semaphore`, one system call after the other. -/
def initSemaphore (state : State Process) (call : Call Process) : Option (State Process) :=
  match state.place call.who with
  | .find => some (findSet state call.who)
  | .create => some (createSet state call.who call.fresh)
  | .set => some (setValue state call.who)
  | .returned _ => none

/-- The processes and the set. -/
def setup : TransitionSystem (State Process) (Call Process) :=
  .ofFunction (· = State.start) initSemaphore

/-- The `semid` of the process is the identifier of the set. -/
def State.Uses (state : State Process) (who : Process) : Prop :=
  ∃ sems ∈ state.sems, state.semid who = sems.semid

/-- Every process that has returned has returned 1, and uses the set. -/
def Succeeds (state : State Process) : Prop :=
  ∀ who res, state.place who = .returned res → res = 1 ∧ state.Uses who

/-- A process that looks for the set before it exists is the only one that is going to create
it. -/
def Alone (state : State Process) (call : Call Process) : Prop :=
  state.place call.who = .find → state.sems = none → ∀ other, state.place other ≠ .create

instance [Fintype Process] (state : State Process) (call : Call Process) :
    Decidable (Alone state call) :=
  inferInstanceAs (Decidable (_ → _))

/-- What a system call can do. -/
inductive Moves (state : State Process) (who : Process) : State Process → Prop
  | found (here : state.place who = .find) {sems : SemSet} (there : state.sems = some sems) :
      Moves state who (state.goOn who sems.semid (.returned 1))
  | missed (here : state.place who = .find) (missing : state.sems = none) :
      Moves state who (state.goOn who (-1) .create)
  | created (here : state.place who = .create) (missing : state.sems = none) (fresh : ℕ) :
      Moves state who ({ state with sems := some ⟨fresh, 0⟩ }.goOn who fresh .set)
  | refused (here : state.place who = .create) (there : state.sems ≠ none) :
      Moves state who (state.goOn who (-1) (.returned (-1)))
  | initialised (here : state.place who = .set) {sems : SemSet} (there : state.sems = some sems)
      (own : state.semid who = sems.semid) :
      Moves state who ({ state with sems := some { sems with semval := 1 } }.goOn who
        (state.semid who) (.returned 1))
  | failed (here : state.place who = .set)
      (foreign : ∀ sems ∈ state.sems, state.semid who ≠ sems.semid) :
      Moves state who (state.goOn who (state.semid who) (.returned (-1)))

variable {before after : State Process} {who : Process} {call : Call Process}

theorem moves_of_next (moved : initSemaphore before call = some after) :
    Moves before call.who after := by
  unfold initSemaphore at moved
  split at moved
  · rename_i here
    cases moved
    rw [findSet]
    split
    · rename_i missing
      exact .missed here missing
    · rename_i sems there
      exact .found here there
  · rename_i here
    cases moved
    rw [createSet]
    split
    · rename_i missing
      exact .created here missing call.fresh
    · rename_i there
      exact .refused here (by rw [there]; exact Option.some_ne_none _)
  · rename_i here
    cases moved
    rw [setValue]
    split
    · rename_i missing
      exact .failed here (by rw [missing]; intro sems there; cases there)
    · rename_i sems there
      split
      · rename_i own
        exact .initialised here there own
      · rename_i foreign
        refine .failed here ?_
        intro other same
        cases there.symm.trans same
        exact foreign
  · cases moved

/-- A call moves its own process only. -/
theorem Moves.place_of_ne (moved : Moves before who after) {other : Process}
    (different : other ≠ who) : after.place other = before.place other := by
  cases moved <;> exact Function.update_of_ne different _ _

theorem Moves.semid_of_ne (moved : Moves before who after) {other : Process}
    (different : other ≠ who) : after.semid other = before.semid other := by
  cases moved <;> exact Function.update_of_ne different _ _

/-- The set stays, once it exists, and keeps its identifier. -/
theorem Moves.keeps (moved : Moves before who after) {sems : SemSet}
    (there : before.sems = some sems) : ∃ new, after.sems = some new ∧ new.semid = sems.semid := by
  cases moved with
  | created _ missing => cases missing.symm.trans there
  | initialised _ same =>
      cases there.symm.trans same
      exact ⟨_, rfl, rfl⟩
  | found | missed | refused | failed => exact ⟨sems, there, rfl⟩

/-- The other processes go on using the set. -/
theorem Moves.uses_of_ne (moved : Moves before who after) {other : Process}
    (different : other ≠ who) (uses : before.Uses other) : after.Uses other := by
  obtain ⟨sems, there, own⟩ := uses
  obtain ⟨new, stays, same⟩ := moved.keeps there
  exact ⟨new, stays, by rw [moved.semid_of_ne different, own, same]⟩

/-- The process uses the set after its call, it is about to create it, or it is refused. -/
theorem Moves.self (moved : Moves before who after) :
    (after.Uses who ∧ (after.place who = .set ∨ after.place who = .returned 1)) ∨
      (after.sems = none ∧ after.place who = .create) ∨ after.place who = .returned (-1) := by
  cases moved with
  | found _ there =>
      exact .inl ⟨⟨_, there, Function.update_self ..⟩, .inr (Function.update_self ..)⟩
  | missed _ missing => exact .inr (.inl ⟨missing, Function.update_self ..⟩)
  | created _ _ _ =>
      exact .inl ⟨⟨_, rfl, Function.update_self ..⟩, .inl (Function.update_self ..)⟩
  | refused _ _ | failed _ _ => exact .inr (.inr (Function.update_self ..))
  | initialised _ _ own =>
      exact .inl ⟨⟨_, rfl, (Function.update_self ..).trans own⟩, .inr (Function.update_self ..)⟩

/-! ## Runs without overtaking -/

/-- Every process that is going to set the value uses the set. -/
def Owned (state : State Process) : Prop :=
  ∀ who, state.place who = .set → state.Uses who

theorem Owned.moves (owned : Owned before) (moved : Moves before who after) : Owned after := by
  intro other here
  by_cases same : other = who
  · subst same
    rcases moved.self with ⟨uses, _⟩ | ⟨_, at_⟩ | at_
    · exact uses
    · cases here.symm.trans at_
    · cases here.symm.trans at_
  · exact moved.uses_of_ne same (owned other ((moved.place_of_ne same).symm.trans here))

/-- What the calls keep as long as no process overtakes another one. -/
structure Sound (state : State Process) : Prop where
  succeeds : Succeeds state
  owned : Owned state
  single : ∀ who, state.place who = .create →
    state.sems = none ∧ ∀ other, state.place other = .create → other = who

omit [DecidableEq Process] in
theorem sound_start : Sound (State.start : State Process) where
  succeeds := fun _ _ here => by cases here
  owned := fun _ here => by cases here
  single := fun _ here => by cases here

omit [DecidableEq Process] in
/-- While the set exists, no process is about to create it. -/
theorem Sound.not_create (sound : Sound before) {sems : SemSet} (there : before.sems = some sems)
    (other : Process) : before.place other ≠ .create := by
  intro here
  cases there.symm.trans (sound.single other here).1

theorem goOn_ne_refused {state : State Process} {semid : ℤ} {next : At}
    (other : next ≠ .returned (-1)) :
    (state.goOn who semid next).place who ≠ .returned (-1) := by
  intro refused
  exact other ((Function.update_self ..).symm.trans refused)

/-- A call that does not overtake another process is made while no other one is about to
create the set, and it is not refused. -/
theorem Sound.undisturbed (sound : Sound before) (alone : Alone before call)
    (moved : Moves before call.who after) :
    (∀ other, other ≠ call.who → before.place other ≠ .create) ∧
      after.place call.who ≠ .returned (-1) := by
  cases moved with
  | found _ there =>
      exact ⟨fun other _ => sound.not_create there other, goOn_ne_refused (by decide)⟩
  | missed here missing =>
      exact ⟨fun other _ => alone here missing other, goOn_ne_refused (by decide)⟩
  | created here =>
      refine ⟨fun other different there => ?_, goOn_ne_refused (by decide)⟩
      exact different ((sound.single call.who here).2 other there)
  | refused here there => exact absurd (sound.single call.who here).1 there
  | initialised _ there =>
      exact ⟨fun other _ => sound.not_create there other, goOn_ne_refused (by decide)⟩
  | failed here foreign =>
      obtain ⟨sems, there, own⟩ := sound.owned call.who here
      exact absurd own (foreign sems there)

/-- A call that does not overtake another process. -/
theorem Sound.moves (sound : Sound before) (alone : Alone before call)
    (moved : Moves before call.who after) : Sound after := by
  obtain ⟨others, accepted⟩ := sound.undisturbed alone moved
  refine ⟨fun other res here => ?_, sound.owned.moves moved, fun other here => ?_⟩
  · by_cases same : other = call.who
    · subst same
      rcases moved.self with ⟨uses, at_ | at_⟩ | ⟨_, at_⟩ | at_
      · cases here.symm.trans at_
      · exact ⟨At.returned.inj (here.symm.trans at_), uses⟩
      · cases here.symm.trans at_
      · exact absurd at_ accepted
    · obtain ⟨one, uses⟩ := sound.succeeds other res ((moved.place_of_ne same).symm.trans here)
      exact ⟨one, moved.uses_of_ne same uses⟩
  · have only : ∀ process, after.place process = .create → process = call.who := by
      intro process there
      by_contra different
      exact others process different ((moved.place_of_ne different).symm.trans there)
    cases only other here
    refine ⟨?_, only⟩
    rcases moved.self with ⟨_, at_ | at_⟩ | ⟨missing, _⟩ | at_
    · cases here.symm.trans at_
    · cases here.symm.trans at_
    · exact missing
    · cases here.symm.trans at_

/-- The second process looks for the set when the first one has created it, and before it has
set its value. -/
def takingTurns : List (Call Bool) :=
  [⟨false, 5⟩, ⟨false, 5⟩, ⟨true, 6⟩, ⟨false, 5⟩]

/-- A process has been refused, or there is one that will be. -/
inductive Doomed (state : State Process) : Prop where
  | refused {who : Process} {res : ℤ} (here : state.place who = .returned res) (bad : res ≠ 1)
  | late {who : Process} (here : state.place who = .create) (there : state.sems ≠ none)
  | two {first second : Process} (different : first ≠ second)
      (here : state.place first = .create) (there : state.place second = .create)

/-- A process that is late is refused, or the set is created by this call. -/
theorem Moves.of_create (moved : Moves before who after) (here : before.place who = .create) :
    after.sems ≠ none ∧ (before.sems = none ∨ after.place who = .returned (-1)) := by
  cases moved with
  | created here missing fresh => exact ⟨Option.some_ne_none _, .inl missing⟩
  | refused here there => exact ⟨there, .inr (Function.update_self ..)⟩
  | found at_ | missed at_ | initialised at_ | failed at_ => cases here.symm.trans at_

/-- No process calls anything after it has returned. -/
theorem Moves.not_returned (moved : Moves before who after) (res : ℤ) :
    before.place who ≠ .returned res := by
  intro here
  cases moved with
  | found at_ | missed at_ | created at_ | refused at_ | initialised at_ | failed at_ =>
      cases here.symm.trans at_

theorem Doomed.moves (doomed : Doomed before) (moved : Moves before who after) :
    Doomed after := by
  cases doomed with
  | @refused other res here bad =>
      have different : other ≠ who := by
        rintro rfl
        exact moved.not_returned res here
      exact .refused ((moved.place_of_ne different).trans here) bad
  | @late other here there =>
      by_cases same : other = who
      · subst same
        rcases (moved.of_create here).2 with missing | refused
        · exact absurd missing there
        · exact .refused refused (by decide)
      · obtain ⟨sems, exists_⟩ := Option.ne_none_iff_exists'.mp there
        obtain ⟨new, stays, _⟩ := moved.keeps exists_
        exact .late ((moved.place_of_ne same).trans here)
          (by rw [stays]; exact Option.some_ne_none new)
  | @two first second different here there =>
      by_cases same : first = who
      · subst same
        exact .late ((moved.place_of_ne (Ne.symm different)).trans there) (moved.of_create here).1
      · by_cases same' : second = who
        · subst same'
          exact .late ((moved.place_of_ne different).trans here) (moved.of_create there).1
        · exact .two different ((moved.place_of_ne same).trans here)
            ((moved.place_of_ne same').trans there)

/-- A process that overtakes another one. -/
theorem doomed_of_overtaking (overtakes : ¬ Alone before call)
    (moved : Moves before call.who after) : Doomed after := by
  obtain ⟨here, missing, other, there⟩ : before.place call.who = .find ∧ before.sems = none ∧
      ∃ other, before.place other = .create := by
    by_contra none_
    refine overtakes fun here missing other there => none_ ⟨here, missing, other, there⟩
  cases moved with
  | missed =>
      have different : other ≠ call.who := by
        rintro rfl
        cases here.symm.trans there
      exact .two different ((Function.update_of_ne different _ _).trans there)
        (Function.update_self ..)
  | found _ exists_ => cases missing.symm.trans exists_
  | created at_ | refused at_ | initialised at_ | failed at_ => cases here.symm.trans at_

/-- When no process is left between its two calls of `semget`, all have succeeded if and only
if none has overtaken another one. -/
theorem succeeds_iff_alone {calls : List (Call Process)} {state : State Process}
    (executed : run initSemaphore State.start calls = some state)
    (settled : ∀ who, state.place who ≠ .create) :
    Succeeds state ↔ Along Alone initSemaphore State.start calls := by
  rcases run_decides (fun _ _ _ sound alone moved => sound.moves alone (moves_of_next moved))
    (fun _ _ _ _ overtakes moved => doomed_of_overtaking overtakes (moves_of_next moved))
    (fun _ _ _ doomed moved => doomed.moves (moves_of_next moved)) sound_start executed with
    ⟨along, sound⟩ | ⟨strayed, doomed⟩
  · exact iff_of_true sound.succeeds along
  · refine iff_of_false (fun succeeds => ?_) strayed
    cases doomed with
    | refused here bad => exact bad (succeeds _ _ here).1
    | late here _ => exact settled _ here
    | two _ here _ => exact settled _ here

/-- Both processes look for the set before either of them creates it. -/
def overtaken : List (Call Bool) :=
  [⟨false, 5⟩, ⟨true, 6⟩, ⟨false, 5⟩, ⟨true, 6⟩]

/-- The place of `main` at which a process stands. -/
def At.main : At → CriticalSection.At
  | .find => .find
  | .create => .create
  | .set => .set
  | .returned res => if res < 0 then .ended else .lock

/-- The two models agree on the places, and on whether the set exists. -/
structure Agrees (state : State Process) (critical : CriticalSection.State Process) : Prop where
  place : critical.place = fun who => (state.place who).main
  sems : critical.sems.isSome = state.sems.isSome

/-- A process that goes on in both models. -/
theorem Agrees.goOn {state : State Process} {critical : CriticalSection.State Process}
    (agrees : Agrees state critical) {sems : Option SemSet}
    {critical' : Option (SemaphoreSet Unit Process)} (same : critical'.isSome = sems.isSome)
    (initialised : Bool) (who : Process) (semid : ℤ) (next : At) :
    Agrees ({ state with sems := sems }.goOn who semid next)
      { sems := critical', place := Function.update critical.place who next.main,
        initialised := initialised } where
  place := by
    funext other
    rw [agrees.place]
    exact (Function.apply_update (fun _ => At.main) state.place who next other).symm
  sems := same

/-- Each call of `init_semaphore` is a step of `main` there. -/
theorem Agrees.moves {critical : CriticalSection.State Process} (agrees : Agrees before critical)
    (owned : Owned before) (moved : Moves before who after) :
    ∃ critical', CriticalSection.main critical who = some critical' ∧ Agrees after critical' := by
  have at_ {place : At} (here : before.place who = place) : critical.place who = place.main := by
    rw [← here, agrees.place]
  have absent (missing : before.sems = none) : critical.sems = none := by
    rw [← Option.isNone_iff_eq_none, ← Option.not_isSome, agrees.sems, missing]
    rfl
  have present {sems : SemSet} (there : before.sems = some sems) :
      ∃ sems', critical.sems = some sems' :=
    Option.isSome_iff_exists.mp (by rw [agrees.sems, there]; rfl)
  rw [CriticalSection.main]
  cases moved with
  | found here there =>
      obtain ⟨sems', exists_⟩ := present there
      rw [at_ here, exists_]
      exact ⟨_, rfl, agrees.goOn (by rw [there]; rfl) _ who _ (.returned 1)⟩
  | missed here missing =>
      rw [at_ here, absent missing]
      exact ⟨_, rfl, agrees.goOn (by rw [missing]; rfl) _ who _ .create⟩
  | created here missing fresh =>
      rw [at_ here, absent missing]
      exact ⟨_, rfl, agrees.goOn rfl _ who _ .set⟩
  | refused here there =>
      obtain ⟨sems, exists_⟩ := Option.ne_none_iff_exists'.mp there
      obtain ⟨sems', exists_'⟩ := present exists_
      rw [at_ here, exists_']
      refine ⟨_, rfl, agrees.goOn ?_ _ who _ (.returned (-1))⟩
      rw [exists_, exists_']
      rfl
  | initialised here there =>
      obtain ⟨sems', exists_⟩ := present there
      rw [at_ here, exists_]
      exact ⟨_, rfl, agrees.goOn rfl _ who _ (.returned 1)⟩
  | failed here foreign =>
      obtain ⟨sems, there, own⟩ := owned who here
      exact absurd own (foreign sems there)

/-- Every run of `init_semaphore` is the beginning of a run of `main`. -/
theorem agrees_of_reachable {state : State Process} (reached : setup.Reachable state) :
    ∃ critical, CriticalSection.criticalSection.Reachable critical ∧ Agrees state critical := by
  have invariant : setup.Invariant fun state : State Process => Owned state ∧
      ∃ critical, CriticalSection.criticalSection.Reachable critical ∧ Agrees state critical := by
    refine ⟨?_, ?_⟩
    · rintro state rfl
      exact ⟨sound_start.owned, _, .initial rfl, rfl, rfl⟩
    · rintro before call after ⟨owned, critical, there, agrees⟩ moved
      have goes := moves_of_next moved
      obtain ⟨critical', stepped, agrees'⟩ := agrees.moves owned goes
      exact ⟨owned.moves goes, critical',
        @TransitionSystem.Reachable.step _ _ _ critical critical' (.step call.who) there stepped,
        agrees'⟩
  exact (invariant.reachable reached).2

end LinuxUnix.SemaphoreSetup

import LinuxUnix.Foundation.ProcessCount
import LinuxUnix.Foundation.TransitionSystem

/-! # child4.c

A process calls `fork` three times, and so do its children with the calls that are left. Before
each call, and at the end, a line is printed, and flushed, so that no line is copied with the
process. However the processes take turns, there come one line, two, four, and eight in the end; a
`fork` that fails costs as many of them as there would have been processes
(`LinuxUnix.ForkTree.lines_of_reachable`).

A process is known by its number in the order of the forks; its PID is left to the kernel.
-/

namespace LinuxUnix.ForkTree

open TransitionSystem

/-- The calls of `fork` in `main`. -/
def forks : ℕ := 3

/-- Where a process is. -/
inductive At
  /-- before the `printf` that follows so many calls of `fork` -/
  | printing (calls : ℕ)
  /-- before the call of `fork` that follows so many others -/
  | forking (calls : ℕ)
  | ended
  deriving DecidableEq

/-- A line of the output; the last one has the parent, if it is still there. -/
inductive Line
  | fork (number : ℕ)
  | pid (parent : Option ℕ)
  deriving DecidableEq

/-- The lines come in this order. -/
def Line.number : Line → ℕ
  | .fork number => number
  | .pid _ => forks + 1

/-- A line, and who has printed it. -/
structure Output where
  process : ℕ
  line : Line
  deriving DecidableEq

/-- The processes with their parents, what has been printed, and which calls of `fork` have
failed. -/
structure State where
  places : List At
  parents : List (Option ℕ)
  output : List Output
  failed : List ℕ

inductive Action
  | step (process : ℕ)
  /-- `fork` fails -/
  | fails (process : ℕ)

/-- `getppid`, if the parent has not ended. -/
def State.ppid (state : State) (process : ℕ) : Option ℕ :=
  (state.parents[process]?.join).filter fun parent => state.places[parent]? ≠ some .ended

/-- A step of a process whose call succeeds. -/
def State.go (state : State) (process : ℕ) : Option State :=
  match state.places[process]? with
  | some (.printing calls) =>
      if calls < forks then some { state with
        places := state.places.set process (.forking calls)
        output := state.output ++ [⟨process, .fork (calls + 1)⟩] }
      else some { state with
        places := state.places.set process .ended
        output := state.output ++ [⟨process, .pid (state.ppid process)⟩] }
  | some (.forking calls) => some { state with
      places := state.places.set process (.printing (calls + 1)) ++ [.printing (calls + 1)]
      parents := state.parents ++ [some process] }
  | some .ended | none => none

/-- `fork` returns `-1`. -/
def State.fail (state : State) (process : ℕ) : Option State :=
  match state.places[process]? with
  | some (.forking calls) => some { state with
      places := state.places.set process (.printing (calls + 1))
      failed := state.failed ++ [calls + 1] }
  | some (.printing _) | some .ended | none => none

def next (state : State) : Action → Option State
  | .step process => state.go process
  | .fails process => state.fail process

/-- The program at its start. -/
def start : State where
  places := [.printing 0]
  parents := [none]
  output := []
  failed := []

def child4 : TransitionSystem State Action :=
  .ofFunction (· = start) next

/-- How many lines of a number have been printed. -/
def State.count (state : State) (number : ℕ) : ℕ :=
  state.output.countP (·.line.number = number)

/-- How many lines of a number a call of `fork` costs that fails. -/
def cost (number call : ℕ) : ℕ :=
  if call < number then 2 ^ (number - 1 - call) else 0

/-- How many they cost together. -/
def State.lost (state : State) (number : ℕ) : ℕ :=
  (state.failed.map (cost number)).sum

/-- What is promised for a state. -/
structure Lines (state : State) : Prop where
  /-- in the end all the lines of a number are there, but those that failed calls have cost -/
  whole : (∀ place ∈ state.places, place = .ended) → ∀ number, 1 ≤ number → number ≤ forks + 1 →
    state.count number + state.lost number = 2 ^ (number - 1)
  /-- before there are no more -/
  bound : ∀ number, 1 ≤ number → number ≤ forks + 1 →
    state.count number + state.lost number ≤ 2 ^ (number - 1)
  /-- a process that has ended has printed its PID once, and no other has -/
  once : ∀ process, state.output.countP (fun output =>
    output.process = process ∧ output.line.number = forks + 1) =
      if state.places[process]? = some .ended then 1 else 0
  /-- a process that has not ended can go on -/
  goesOn : (∃ action after, next state action = some after) ∨
    ∀ place ∈ state.places, place = .ended
  ends : child4.Terminates state

/-- How many lines of a number a process and its children still print, if no call fails. -/
def At.pending (number : ℕ) : At → ℕ
  | .printing calls => if calls < number then 2 ^ (number - 1 - calls) else 0
  | .forking calls => if calls + 1 < number then 2 ^ (number - 1 - calls) else 0
  | .ended => 0

/-- A place that a process can come to. -/
def At.Inside : At → Prop
  | .printing calls => calls ≤ forks
  | .forking calls => calls < forks
  | .ended => True

/-- What holds in every run. -/
structure Sound (state : State) : Prop where
  inside : ∀ place ∈ state.places, place.Inside
  lines : ∀ number, 1 ≤ number → number ≤ forks + 1 →
    state.count number + (state.places.map (At.pending number)).sum + state.lost number =
      2 ^ (number - 1)
  once : ∀ process, state.output.countP (fun output =>
    output.process = process ∧ output.line.number = forks + 1) =
      if state.places[process]? = some .ended then 1 else 0

variable {before after state : State} {process : ℕ} {place : At}

theorem pending_printing {number calls : ℕ} (differs : number ≠ calls + 1) :
    (At.printing calls).pending number = (At.forking calls).pending number := by
  rw [At.pending, At.pending]
  split
  · rw [if_pos (by omega)]
  · rw [if_neg (by omega)]

/-- A `fork` shares out what is pending. -/
theorem pending_forking (number calls : ℕ) : (At.forking calls).pending number =
    2 * (At.printing (calls + 1)).pending number := by
  rw [At.pending, At.pending]
  split
  · rename_i later
    rw [← Nat.pow_succ']
    congr 1
    omega
  · rfl

theorem sound_start : Sound start where
  inside place member := by
    cases List.mem_singleton.mp member
    exact Nat.zero_le _
  lines number first last := by
    change 0 + ((At.printing 0).pending number + 0) + 0 = _
    rw [At.pending, if_pos (show 0 < number from first), Nat.sub_zero]
    omega
  once process := by
    cases process <;> rfl

theorem mem_set {places : List At} {next : At} (keeps : ∀ place ∈ places, place.Inside)
    (here : next.Inside) : ∀ place ∈ places.set process next, place.Inside := by
  intro place member
  rcases List.mem_or_eq_of_mem_set member with old | rfl
  · exact keeps place old
  · exact here

theorem getElem?_set {places : List At} (here : places[process]? = some place) (next : At)
    (other : ℕ) : (places.set process next)[other]? =
      if other = process then some next else places[other]? := by
  obtain ⟨inside, -⟩ := List.getElem?_eq_some_iff.mp here
  rw [List.getElem?_set]
  by_cases same : other = process
  · rw [if_pos same.symm, same, if_pos inside, if_pos rfl]
  · rw [if_neg fun equal => same equal.symm, if_neg same]

/-- A line is printed. -/
theorem Sound.print (sound : Sound before) {calls : ℕ}
    (here : before.places[process]? = some (.printing calls)) {line : Line} {next : At}
    (number_ : line.number = calls + 1) (inside : next.Inside)
    (pending : ∀ number ≤ forks + 1, next.pending number = (At.forking calls).pending number)
    (ends : next = .ended ↔ line.number = forks + 1) :
    Sound { before with
      places := before.places.set process next
      output := before.output ++ [⟨process, line⟩] } where
  inside := mem_set sound.inside inside
  lines number first last := by
    have lines := sound.lines number first last
    have sum := sum_map_set (At.pending number) here next
    have count : State.count { before with
        places := before.places.set process next
        output := before.output ++ [⟨process, line⟩] } number =
          before.count number + if number = calls + 1 then 1 else 0 := by
      rw [State.count, List.countP_append, List.countP_singleton, number_]
      simp only [decide_eq_true_eq, eq_comm (a := number)]
      rfl
    rw [count]
    change _ + ((before.places.set process next).map (At.pending number)).sum + before.lost number = _
    rw [pending number last] at sum
    by_cases same : number = calls + 1
    · have one : (At.printing calls).pending number = 1 := by
        rw [At.pending, if_pos (by omega), show number - 1 - calls = 0 by omega, Nat.pow_zero]
      have none_ : (At.forking calls).pending number = 0 := by
        rw [At.pending, if_neg (by omega)]
      rw [if_pos same]
      omega
    · rw [pending_printing same] at sum
      rw [if_neg same]
      omega
  once other := by
    have once := sound.once other
    rw [getElem?_set here]
    change (before.output ++ [(⟨process, line⟩ : Output)]).countP _ = _
    rw [List.countP_append, List.countP_singleton, once]
    by_cases same : other = process
    · subst same
      rw [here]
      by_cases last : line.number = forks + 1
      · simp [last, ends.mpr last]
      · have goesOn : next ≠ .ended := fun ended => last (ends.mp ended)
        simp [last, goesOn]
    · have differs : process ≠ other := fun equal => same equal.symm
      rw [if_neg same]
      simp [differs]

/-- A `fork` that succeeds. -/
theorem Sound.fork (sound : Sound before) {calls : ℕ}
    (here : before.places[process]? = some (.forking calls)) :
    Sound { before with
      places := before.places.set process (.printing (calls + 1)) ++ [.printing (calls + 1)]
      parents := before.parents ++ [some process] } where
  inside place member := by
    have small : calls < forks := sound.inside _ (List.mem_of_getElem? here)
    rcases List.mem_append.mp member with old | last
    · exact mem_set sound.inside (show (At.printing (calls + 1)).Inside from small) place old
    · cases List.mem_singleton.mp last
      exact small
  lines number first last := by
    have lines := sound.lines number first last
    have sum := sum_map_set (At.pending number) here (.printing (calls + 1))
    rw [pending_forking] at sum
    change before.count number + ((before.places.set process (.printing (calls + 1)) ++
      [At.printing (calls + 1)]).map (At.pending number)).sum + before.lost number = _
    rw [List.map_append, List.sum_append, List.map_singleton, List.sum_singleton]
    omega
  once other := by
    refine (sound.once other).trans ?_
    change _ = if (before.places.set process (.printing (calls + 1)) ++
      [At.printing (calls + 1)])[other]? = some .ended then 1 else 0
    rw [List.getElem?_append, List.length_set, getElem?_set here]
    by_cases inside : other < before.places.length
    · rw [if_pos inside]
      by_cases same : other = process
      · rw [if_pos same, same, here]
        rfl
      · rw [if_neg same]
    · rw [if_neg inside, List.getElem?_eq_none (Nat.le_of_not_lt inside)]
      cases other - before.places.length <;> rfl

/-- A `fork` that fails. -/
theorem Sound.fail (sound : Sound before) {calls : ℕ}
    (here : before.places[process]? = some (.forking calls)) :
    Sound { before with
      places := before.places.set process (.printing (calls + 1))
      failed := before.failed ++ [calls + 1] } where
  inside := mem_set sound.inside
    (show calls + 1 ≤ forks from sound.inside _ (List.mem_of_getElem? here))
  lines number first last := by
    have lines := sound.lines number first last
    have sum := sum_map_set (At.pending number) here (.printing (calls + 1))
    rw [pending_forking] at sum
    have lost : State.lost { before with
        places := before.places.set process (.printing (calls + 1))
        failed := before.failed ++ [calls + 1] } number =
          before.lost number + (At.printing (calls + 1)).pending number := by
      rw [State.lost, List.map_append, List.sum_append, List.map_singleton, List.sum_singleton]
      rfl
    rw [lost]
    change before.count number + ((before.places.set process (.printing (calls + 1))).map
      (At.pending number)).sum + _ = _
    omega
  once other := by
    refine (sound.once other).trans ?_
    change _ = if (before.places.set process (.printing (calls + 1)))[other]? = some .ended then 1
      else 0
    rw [getElem?_set here]
    by_cases same : other = process
    · rw [if_pos same, same, here]
      rfl
    · rw [if_neg same]

theorem Sound.go (sound : Sound before) (moved : before.go process = some after) :
    Sound after := by
  rw [State.go] at moved
  split at moved
  · rename_i calls here
    have inside : calls ≤ forks := sound.inside _ (List.mem_of_getElem? here)
    split at moved
    · rename_i small
      cases moved
      refine sound.print here rfl small (fun _ _ => rfl) (iff_of_false nofun ?_)
      exact Nat.ne_of_lt (Nat.succ_lt_succ small)
    · rename_i large
      have last : calls = forks := Nat.le_antisymm inside (Nat.le_of_not_lt large)
      cases moved
      refine sound.print here (congrArg (· + 1) last.symm) trivial (fun number small => ?_)
        (iff_of_true rfl rfl)
      rw [last, At.pending, At.pending, if_neg (Nat.not_lt_of_le small)]
  · rename_i calls here
    cases moved
    exact sound.fork here
  · cases moved
  · cases moved

theorem sound_invariant : child4.Invariant Sound where
  initial := by
    rintro _ rfl
    exact sound_start
  step before action after sound moved := by
    cases action with
    | step process => exact sound.go moved
    | fails process =>
        change before.fail process = some after at moved
        rw [State.fail] at moved
        split at moved
        · rename_i calls here
          cases moved
          exact sound.fail here
        · cases moved
        · cases moved
        · cases moved

/-- The steps that a process and its children still make at most. -/
def At.left : At → ℕ
  | .printing calls => 4 ^ (forks + 1 - calls)
  | .forking calls => 4 ^ (forks + 1 - calls) - 1
  | .ended => 0

theorem left_printing_pos (calls : ℕ) : 0 < (At.printing calls).left :=
  Nat.pow_pos (by decide)

theorem left_forking {calls : ℕ} (inside : calls < forks) :
    2 * (At.printing (calls + 1)).left < (At.forking calls).left := by
  have step : forks + 1 - calls = forks + 1 - (calls + 1) + 1 := by omega
  have more : 4 ≤ 4 ^ (forks + 1 - (calls + 1)) := by
    have positive : forks + 1 - (calls + 1) ≠ 0 := by omega
    exact Nat.le_self_pow positive 4
  rw [At.left, At.left, step, Nat.pow_succ]
  omega

/-- A step leaves less to do. -/
theorem left_lt {action : Action} (sound : Sound before)
    (moved : next before action = some after) :
    (after.places.map At.left).sum < (before.places.map At.left).sum := by
  cases action with
  | step process =>
      simp only [next, State.go] at moved
      split at moved
      · rename_i calls here
        have positive := left_printing_pos calls
        split at moved
        · cases moved
          have sum := sum_map_set At.left here (.forking calls)
          have less : (At.forking calls).left < (At.printing calls).left :=
            Nat.sub_lt positive Nat.one_pos
          dsimp only
          omega
        · cases moved
          have sum := sum_map_set At.left here .ended
          have none_ : At.ended.left = 0 := rfl
          dsimp only
          omega
      · rename_i calls here
        cases moved
        have sum := sum_map_set At.left here (.printing (calls + 1))
        have less := left_forking (sound.inside _ (List.mem_of_getElem? here))
        simp only [List.map_append, List.sum_append, List.map_singleton, List.sum_singleton]
        omega
      · cases moved
      · cases moved
  | fails process =>
      simp only [next, State.fail] at moved
      split at moved
      · rename_i calls here
        cases moved
        have sum := sum_map_set At.left here (.printing (calls + 1))
        have less := left_forking (sound.inside _ (List.mem_of_getElem? here))
        dsimp only
        omega
      · cases moved
      · cases moved
      · cases moved

/-- A process that has not ended can go on. -/
theorem goesOn (state : State) : (∃ action after, next state action = some after) ∨
    ∀ place ∈ state.places, place = .ended := by
  refine or_iff_not_imp_left.mpr fun stuck place member => ?_
  obtain ⟨process, here⟩ := List.getElem?_of_mem member
  have still : state.go process = none := Option.eq_none_iff_forall_ne_some.mpr
    fun after moved => stuck ⟨.step process, after, moved⟩
  rw [State.go, here] at still
  cases place with
  | printing calls =>
      simp only at still
      split at still <;> cases still
  | forking calls => cases still
  | ended => rfl

/-- **One, two, four, eight.** In whatever order the processes run, each line comes as often as
there are processes for it, less what the calls of `fork` that have failed cost; each process prints
its PID once, and no run goes on for ever. -/
theorem lines_of_reachable (reached : child4.Reachable state) : Lines state := by
  have sound := sound_invariant.reachable reached
  refine ⟨fun ended number first last => ?_, fun number first last => ?_, sound.once, goesOn state,
    sound_invariant.terminates (fun state => (state.places.map At.left).sum)
      (fun _ _ _ sound moved => left_lt sound moved) sound⟩
  · have none_ : (state.places.map (At.pending number)).sum = 0 := by
      apply List.sum_eq_zero
      intro pending member
      obtain ⟨place, there, rfl⟩ := List.mem_map.mp member
      rw [ended place there]
      rfl
    have lines := sound.lines number first last
    omega
  · have lines := sound.lines number first last
    omega

/-- A run in which the second `fork` of the first process fails. -/
def lopsided : List Action :=
  [.step 0, .step 0, .step 0, .fails 0, .step 1, .step 1, .step 2, .step 0, .step 0, .step 0, .step 1,
    .step 1, .step 1, .step 2, .step 2, .step 3, .step 4, .step 5]

theorem lines_of_lopsided : ∃ state, run next start lopsided = some state ∧
    state.count 3 = 3 ∧ state.count 4 = 6 := by
  have finished : (run next start lopsided).map (fun state => (state.places, state.failed)) =
      some (List.replicate 6 .ended, [2]) := by decide +kernel
  obtain ⟨state, executed, ended⟩ := Option.map_eq_some_iff.mp finished
  obtain ⟨places, failed⟩ := Prod.mk.inj ended
  have lines := lines_of_reachable (.of_execution (.initial rfl) executed)
  have all : ∀ place ∈ state.places, place = .ended := by
    rw [places]
    exact fun place member => List.eq_of_mem_replicate member
  have third := lines.whole all 3 (by decide) (by decide)
  have fourth := lines.whole all 4 (by decide) (by decide)
  rw [State.lost, failed] at third fourth
  change state.count 3 + 1 = 4 at third
  change state.count 4 + 2 = 8 at fourth
  exact ⟨state, executed, by omega, by omega⟩

end LinuxUnix.ForkTree

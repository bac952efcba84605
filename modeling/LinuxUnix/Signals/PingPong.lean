import LinuxUnix.Foundation.CMemory
import LinuxUnix.Foundation.TransitionSystem
import Mathlib.Algebra.Group.Int.Defs

/-! # ping_pong.c

`main` prints `Ping-` and `Pong` as long as `sigint` is not zero; the variable starts with one,
and each signal lowers it. The loop ends at the first test after the first signal if no second
one has come by then (`LinuxUnix.PingPong.stops_iff_single`); otherwise the test finds a
negative number, and further signals lead further away from zero. A `Ping-` is never left
without its `Pong` (`LinuxUnix.PingPong.whole_of_returned`).
-/

namespace LinuxUnix.PingPong

open TransitionSystem

/-- The two halves of the body of the loop. -/
inductive Half
  | ping
  | pong
  deriving DecidableEq

/-- What a half prints: `Ping-`, or `Pong` and a newline. -/
def Half.text : Half → List Byte
  | .ping => [80, 105, 110, 103, 45]
  | .pong => [80, 111, 110, 103, 10]

/-- Where `main` stands in a half. -/
inductive Stage
  /-- before `j = i` and `k = i` -/
  | setting
  /-- before `--j` -/
  | countingJ
  /-- before `--k` -/
  | countingK
  /-- before `printf` -/
  | printing
  deriving DecidableEq

/-- Where `main` stands. -/
inductive At
  /-- before the condition of the loop -/
  | testing
  | inside (half : Half) (stage : Stage)
  | returned
  /-- `sigint` has run over, and nothing is known any more. -/
  | undefined
  deriving DecidableEq

/-- Where `main` stands, its variables, `sigint`, and what has been printed. -/
structure State where
  place : At
  j : ℤ
  k : ℤ
  sigint : ℤ
  stdout : List Byte
  deriving DecidableEq

/-- The initial value of `i`. -/
def i : ℤ := 90000000

/-- `main` has installed the handler. -/
def start : State where
  place := .testing
  j := 0
  k := 0
  sigint := 1
  stdout := []

/-- A signal is delivered, `main` tests the condition of the loop, or it goes on with another
statement. -/
inductive Label
  | signal
  | test
  | go
  deriving DecidableEq

/-- `catch_sigint`: the least `int` has no predecessor. -/
def catchSigint (state : State) : State :=
  if state.sigint = -2 ^ 31 then { state with place := .undefined }
  else { state with sigint := state.sigint - 1 }

/-- What follows the `printf` of a half. -/
def Half.behind : Half → At
  | .ping => .inside .pong .setting
  | .pong => .testing

/-- A statement in a half. -/
def go (state : State) (half : Half) : Stage → State
  | .setting => { state with place := .inside half .countingJ, j := i, k := i }
  | .countingJ => { state with
      place := .inside half (if state.j - 1 ≠ 0 then .countingJ else .countingK)
      j := state.j - 1 }
  | .countingK => { state with
      place := .inside half (if state.k - 1 ≠ 0 then .countingK else .printing)
      k := state.k - 1 }
  | .printing => { state with place := half.behind, stdout := state.stdout ++ half.text }

/-- A step; a program without a defined state may do anything. -/
def next (state : State) (label : Label) : Option State :=
  match state.place, label with
  | .undefined, _ => some state
  | .testing, .test => some { state with
      place := if state.sigint ≠ 0 then .inside .ping .setting else .returned }
  | .inside half stage, .go => some (go state half stage)
  | .testing, .signal | .inside _ _, .signal => some (catchSigint state)
  | .testing, .go | .inside _ _, .test | .returned, _ => none

/-- The output is a number of whole lines. -/
def Whole (stdout : List Byte) : Prop :=
  ∃ rounds, stdout = (List.replicate rounds (Half.ping.text ++ Half.pong.text)).flatten

/-- The loop has been left, with whole lines printed. -/
def Stops (state : State) : Prop := state.place = .returned ∧ Whole state.stdout

/-- The lines that have been printed are whole, but for the `Ping-` of the current one. -/
def Paired (state : State) : Prop :=
  match state.place with
  | .testing | .inside .ping _ | .returned => Whole state.stdout
  | .inside .pong _ => ∃ lines, Whole lines ∧ state.stdout = lines ++ Half.ping.text
  | .undefined => True

/-- So many signals have been delivered. -/
def Counted (signals : ℕ) (state : State) : Prop :=
  if state.place = .undefined then 2 ≤ signals else state.sigint = 1 - signals

/-- What a step can do. -/
inductive Moves (before : State) : Label → State → Prop
  | lost (here : before.place = .undefined) (label : Label) : Moves before label before
  | signal (defined : before.place ≠ .undefined) : Moves before .signal (catchSigint before)
  | test (here : before.place = .testing) : Moves before .test { before with
      place := if before.sigint ≠ 0 then .inside .ping .setting else .returned }
  | go {half : Half} {stage : Stage} (here : before.place = .inside half stage) :
      Moves before .go (go before half stage)

variable {before after state : State} {label : Label} {labels : List Label}

theorem moves_of_next (moved : next before label = some after) : Moves before label after := by
  unfold next at moved
  split at moved
  · rename_i here
    cases moved
    exact .lost here _
  · rename_i here
    cases moved
    exact .test here
  · rename_i here
    cases moved
    exact .go here
  · rename_i here
    cases moved
    exact .signal (by rw [here]; exact At.noConfusion)
  · rename_i here
    cases moved
    exact .signal (by rw [here]; exact At.noConfusion)
  · cases moved
  · cases moved
  · cases moved

theorem Whole.line {stdout : List Byte} (whole : Whole stdout) :
    Whole (stdout ++ Half.ping.text ++ Half.pong.text) := by
  obtain ⟨rounds, rfl⟩ := whole
  refine ⟨rounds + 1, ?_⟩
  rw [List.replicate_succ', List.flatten_append, List.flatten_singleton, List.append_assoc]

/-- The halves are printed in turn. -/
theorem Paired.go {half : Half} {stage : Stage} (paired : Paired before)
    (here : before.place = .inside half stage) : Paired (go before half stage) := by
  simp only [Paired, here] at paired
  cases stage with
  | setting => cases half <;> exact paired
  | countingJ => cases half <;> exact paired
  | countingK => cases half <;> exact paired
  | printing =>
      cases half with
      | ping => exact ⟨before.stdout, paired, rfl⟩
      | pong =>
          obtain ⟨lines, whole, split⟩ := paired
          change Whole (before.stdout ++ Half.pong.text)
          rw [split]
          exact whole.line

/-- A signal prints nothing. -/
theorem Paired.catchSigint (paired : Paired before) : Paired (catchSigint before) := by
  unfold PingPong.catchSigint
  split
  · trivial
  · exact paired

theorem Paired.step (paired : Paired before) (moved : next before label = some after) :
    Paired after := by
  cases moves_of_next moved with
  | lost here => exact paired
  | signal defined => exact paired.catchSigint
  | test here =>
      simp only [Paired, here] at paired
      by_cases zero : before.sigint = 0
      · simpa only [Paired, zero, ne_eq, not_true_eq_false, if_false] using paired
      · simpa only [Paired, zero, ne_eq, not_false_eq_true, if_true] using paired
  | go here => exact paired.go here

theorem go_place_ne (state : State) (half : Half) (stage : Stage) :
    ¬ (go state half stage).place = .undefined := by
  cases stage with
  | setting | countingJ | countingK => exact At.noConfusion
  | printing => cases half <;> exact At.noConfusion

theorem sigint_go (state : State) (half : Half) (stage : Stage) :
    (go state half stage).sigint = state.sigint := by
  cases stage <;> rfl

/-- Each signal lowers `sigint` by one. -/
theorem Counted.catchSigint {signals : ℕ} (counted : Counted signals before)
    (defined : before.place ≠ .undefined) : Counted (signals + 1) (catchSigint before) := by
  rw [Counted, if_neg defined] at counted
  rw [PingPong.catchSigint, Counted]
  by_cases least : before.sigint = -2 ^ 31
  · rw [if_pos least, if_pos rfl]
    omega
  · rw [if_neg least, if_neg defined]
    dsimp only
    omega

/-- The other steps leave `sigint` alone. -/
theorem Counted.step {signals : ℕ} (counted : Counted signals before)
    (moved : next before label = some after) :
    Counted (signals + [label].count .signal) after := by
  cases moves_of_next moved with
  | lost here =>
      rw [Counted, if_pos here] at counted ⊢
      omega
  | signal defined => exact counted.catchSigint defined
  | test here =>
      rw [Counted, here, if_neg At.noConfusion] at counted
      have defined : (if before.sigint ≠ 0 then At.inside .ping .setting else .returned) ≠
          .undefined := by
        split <;> exact At.noConfusion
      rw [Counted, if_neg defined]
      exact counted
  | @go half stage here =>
      rw [Counted, here, if_neg At.noConfusion] at counted
      rw [Counted, if_neg (go_place_ne before half stage), sigint_go]
      exact counted

theorem Counted.executed {signals : ℕ} (counted : Counted signals before)
    (ran : run next before labels = some after) :
    Counted (signals + labels.count .signal) after := by
  induction labels generalizing before signals with
  | nil =>
      cases ran
      exact counted
  | cons label labels ih =>
      obtain ⟨middle, moved, rest⟩ := Option.bind_eq_some_iff.mp ran
      have more := ih (counted.step moved) rest
      rwa [Nat.add_assoc, ← List.count_append] at more

/-- Whatever the signals, the output of a program that has returned consists of whole lines. -/
theorem whole_of_returned (executed : run next start labels = some after)
    (ended : after.place = .returned) : Whole after.stdout := by
  have paired : Paired start := ⟨0, rfl⟩
  have kept := run_preserves (fun _ _ _ paired moved => paired.step moved) paired executed
  rwa [Paired, ended] at kept

/-- What a test of the condition finds. -/
theorem returned_iff_of_test {signals : ℕ} (counted : Counted signals before)
    (moved : next before .test = some after) :
    after.place = .returned ↔ signals = 1 := by
  cases moves_of_next moved with
  | lost here =>
      rw [Counted, if_pos here] at counted
      rw [here]
      exact iff_of_false At.noConfusion (by omega)
  | test here =>
      rw [Counted, here, if_neg At.noConfusion] at counted
      dsimp only
      split
      · exact iff_of_false At.noConfusion (by omega)
      · exact iff_of_true rfl (by omega)

/-- `main` alone leads from one state to the other, and leaves `sigint` as it is. -/
def Goes (before after : State) : Prop :=
  after.sigint = before.sigint ∧
    ∃ steps, run next before (List.replicate steps .go) = some after

theorem Goes.refl (state : State) : Goes state state :=
  ⟨rfl, 0, rfl⟩

theorem Goes.head {half : Half} {stage : Stage} (here : before.place = .inside half stage)
    (rest : Goes (go before half stage) after) : Goes before after := by
  obtain ⟨same, steps, executed⟩ := rest
  refine ⟨same.trans (sigint_go ..), steps + 1, ?_⟩
  have moved : next before .go = some (go before half stage) := by
    simp only [next, here]
  rw [List.replicate_succ, run, moved]
  exact executed

theorem Goes.trans {middle : State} (first : Goes before middle) (second : Goes middle after) :
    Goes before after := by
  obtain ⟨same, steps, executed⟩ := first
  obtain ⟨same', steps', executed'⟩ := second
  refine ⟨same'.trans same, steps + steps', ?_⟩
  rw [← List.replicate_append_replicate, run_append, executed]
  exact executed'

/-- The second delay loop ends. -/
theorem goes_printing {half : Half} (count : ℕ) : ∀ {state : State},
    state.place = .inside half .countingK → state.k = count + 1 →
      ∃ after, Goes state after ∧ after.place = .inside half .printing := by
  induction count with
  | zero =>
      intro state here last
      refine ⟨_, .head here (.refl _), ?_⟩
      rw [go, if_neg (by omega)]
  | succ count ih =>
      intro state here more
      obtain ⟨after, rest, ended⟩ := @ih (go state half .countingK) (by
        rw [go, if_pos (by omega)]) (by
        change state.k - 1 = _
        omega)
      exact ⟨after, .head here rest, ended⟩

/-- The first delay loop ends. -/
theorem goes_countingK {half : Half} (count : ℕ) : ∀ {state : State},
    state.place = .inside half .countingJ → state.j = count + 1 →
      ∃ after, Goes state after ∧ after.place = .inside half .countingK ∧ after.k = state.k := by
  induction count with
  | zero =>
      intro state here last
      refine ⟨_, .head here (.refl _), ?_, rfl⟩
      rw [go, if_neg (by omega)]
  | succ count ih =>
      intro state here more
      obtain ⟨after, rest, ended, same⟩ := @ih (go state half .countingJ) (by
        rw [go, if_pos (by omega)]) (by
        change state.j - 1 = _
        omega)
      exact ⟨after, .head here rest, ended, same⟩

/-- A delay loop that is running has something left to count. -/
def Delays (state : State) : Prop :=
  match state.place with
  | .inside _ .countingJ => 0 < state.j ∧ 0 < state.k
  | .inside _ .countingK => 0 < state.k
  | _ => True

/-- A half is printed once. -/
theorem goes_behind {half : Half} {stage : Stage} (here : state.place = .inside half stage)
    (delays : Delays state) : ∃ after, Goes state after ∧ after.place = half.behind := by
  have print : ∀ {state : State}, state.place = .inside half .printing →
      ∃ after, Goes state after ∧ after.place = half.behind :=
    fun here => ⟨_, .head here (.refl _), rfl⟩
  have countK : ∀ {state : State}, state.place = .inside half .countingK → 0 < state.k →
      ∃ after, Goes state after ∧ after.place = half.behind := by
    intro state here positive
    obtain ⟨counted, first, there⟩ := goes_printing (state.k - 1).toNat here (by omega)
    obtain ⟨after, last, ended⟩ := print there
    exact ⟨after, first.trans last, ended⟩
  have countJ : ∀ {state : State}, state.place = .inside half .countingJ → 0 < state.j →
      0 < state.k → ∃ after, Goes state after ∧ after.place = half.behind := by
    intro state here positive more
    obtain ⟨counted, first, there, same⟩ := goes_countingK (state.j - 1).toNat here (by omega)
    obtain ⟨after, last, ended⟩ := countK there (by rwa [same])
    exact ⟨after, first.trans last, ended⟩
  cases stage with
  | setting =>
      have positive : (0 : ℤ) < i := by decide
      obtain ⟨after, rest, ended⟩ := @countJ (go state half .setting) rfl positive positive
      exact ⟨after, .head here rest, ended⟩
  | countingJ =>
      simp only [Delays, here] at delays
      exact countJ here delays.1 delays.2
  | countingK =>
      simp only [Delays, here] at delays
      exact countK here delays
  | printing => exact print here

/-- Every delay loop ends, so that `main` comes to the condition of the loop again. -/
theorem goes_testing {half : Half} {stage : Stage} (here : state.place = .inside half stage)
    (delays : Delays state) : ∃ after, Goes state after ∧ after.place = .testing := by
  cases half with
  | pong => exact goes_behind here delays
  | ping =>
      obtain ⟨middle, first, there⟩ := goes_behind here delays
      have resumed : Delays middle := by simp only [Delays, there, Half.behind]
      obtain ⟨after, second, ended⟩ := goes_behind there resumed
      exact ⟨after, first.trans second, ended⟩

/-- A delay loop goes on as long as something is left to count. -/
theorem Delays.go {half : Half} {stage : Stage} (delays : Delays before)
    (here : before.place = .inside half stage) : Delays (go before half stage) := by
  simp only [Delays, here] at delays
  cases stage with
  | setting =>
      have positive : (0 : ℤ) < i := by decide
      exact ⟨positive, positive⟩
  | countingJ =>
      by_cases more : before.j - 1 ≠ 0
      · simp only [Delays, PingPong.go, if_pos more]
        omega
      · simp only [Delays, PingPong.go, if_neg more]
        exact delays.2
  | countingK =>
      by_cases more : before.k - 1 ≠ 0
      · simp only [Delays, PingPong.go, if_pos more]
        omega
      · simp only [Delays, PingPong.go, if_neg more]
  | printing =>
      cases half <;> trivial

theorem Delays.step (delays : Delays before) (moved : next before label = some after) :
    Delays after := by
  cases moves_of_next moved with
  | lost here => exact delays
  | signal defined =>
      rw [catchSigint]
      split
      · trivial
      · exact delays
  | test here =>
      by_cases zero : before.sigint = 0
      · simp only [Delays, zero, ne_eq, not_true_eq_false, if_false]
      · simp only [Delays, ne_eq, zero, not_false_eq_true, if_true]
  | go here => exact delays.go here

/-- From the body of the loop `main` comes to its condition, whatever signals there were. -/
theorem goes_testing_of_run {half : Half} {stage : Stage}
    (executed : run next start labels = some state) (here : state.place = .inside half stage) :
    ∃ after, Goes state after ∧ after.place = .testing := by
  have started : Delays start := trivial
  apply goes_testing here
  exact run_preserves (fun _ _ _ delays moved => delays.step moved) started executed

/-- At a test after the first signal the loop is left if and only if no second signal has come
before it. -/
theorem stops_iff_single {quiet more : List Label} (silent : .signal ∉ quiet)
    (executed : run next start (quiet ++ .signal :: more ++ [.test]) = some after) :
    Stops after ↔ .signal ∉ more := by
  have whole := whole_of_returned executed
  rw [run_append] at executed
  obtain ⟨before, reached, tested⟩ := Option.bind_eq_some_iff.mp executed
  obtain ⟨_, moved, last⟩ := Option.bind_eq_some_iff.mp tested
  cases last
  have fresh : Counted 0 start := rfl
  have counted := fresh.executed reached
  rw [List.count_append, List.count_eq_zero.mpr silent, List.count_cons_self] at counted
  rw [Stops, and_iff_left_of_imp whole, returned_iff_of_test counted moved,
    ← List.count_eq_zero]
  omega

/-- One signal before the first test. -/
theorem stops_of_firstSignal : Stops ⟨.returned, 0, 0, 0, []⟩ :=
  (@stops_iff_single _ [] [] List.not_mem_nil rfl).mpr List.not_mem_nil

/-- Two signals before a test: it finds a negative number. -/
theorem not_stops_of_twoSignals : ¬ ∀ quiet more after, .signal ∉ quiet → .test ∉ more →
    run next start (quiet ++ .signal :: more ++ [.test]) = some after → Stops after := by
  intro claim
  have stopped := claim [] [.signal] _ List.not_mem_nil (by decide) rfl
  exact At.noConfusion stopped.1

end LinuxUnix.PingPong

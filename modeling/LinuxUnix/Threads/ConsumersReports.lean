import LinuxUnix.Threads.ConsumersWaiting

/-! # How often the data is reported

A thread that passes the wait loop takes nothing off `geteilteDaten`, and the test behind it can
never clear the flag. So one item is reported by every thread that comes, and the reports exceed
the items as soon as there are two threads and one item
(`LinuxUnix.Consumers.reported_le_iff`).
-/

namespace LinuxUnix.Consumers

open TransitionSystem

/-- Whether a thread has reported. -/
def Client.consumed (client : Client) : ℕ :=
  match client.place with
  | .absent | .locking | .testing | .waiting | .reporting => 0
  | .deciding => if client.retries = 1 then 1 else 0
  | .unlocking | .done => 1

/-- Each report is that of another thread, and there is none before the first item. -/
structure Reports (threads : ℕ) (state : State) : Prop where
  few : state.reported ≤ ∑ index ∈ Finset.range threads, (state.client index).consumed
  flagged : ∀ index, (state.client index).place = .reporting → 0 < state.geteilteDaten
  later : 0 < state.reported → 0 < state.geteilteDaten

variable {threads items : ℕ} {state after : State} {index : ℕ} {client : Client}

theorem sum_consumed_le (moved : after.client = Function.update state.client index client)
    (more : (state.client index).consumed ≤ client.consumed) :
    ∑ other ∈ Finset.range threads, (state.client other).consumed ≤
      ∑ other ∈ Finset.range threads, (after.client other).consumed := by
  refine Finset.sum_le_sum fun other _ => ?_
  rw [moved]
  by_cases here : other = index
  · rw [here, Function.update_self]
    exact more
  · rw [Function.update_of_ne here]

theorem sum_consumed_lt (small : index < threads)
    (moved : after.client = Function.update state.client index client)
    (more : (state.client index).consumed < client.consumed) :
    ∑ other ∈ Finset.range threads, (state.client other).consumed <
      ∑ other ∈ Finset.range threads, (after.client other).consumed := by
  refine Finset.sum_lt_sum (fun other _ => ?_) ⟨index, Finset.mem_range.mpr small, ?_⟩
  · rw [moved]
    by_cases here : other = index
    · rw [here, Function.update_self]
      exact Nat.le_of_lt more
    · rw [Function.update_of_ne here]
  · rw [moved, Function.update_self]
    exact more

/-- A step that moves one thread and reports nothing. -/
theorem Reports.ofClient (reports : Reports threads state)
    (moved : after.client = Function.update state.client index client)
    (shared : after.geteilteDaten = state.geteilteDaten)
    (reported : after.reported = state.reported)
    (more : (state.client index).consumed ≤ client.consumed)
    (flagged : client.place = .reporting → 0 < state.geteilteDaten) : Reports threads after where
  few := by
    rw [reported]
    exact reports.few.trans (sum_consumed_le moved more)
  flagged := by
    rw [moved, shared]
    exact (Function.forall_update_iff state.client fun _ client =>
      client.place = .reporting → 0 < state.geteilteDaten).mpr
        ⟨flagged, fun other _ => reports.flagged other⟩
  later := by
    rw [reported, shared]
    exact reports.later

/-- A step that moves no thread. -/
theorem Reports.ofMain (reports : Reports threads state) (same : after.client = state.client)
    (shared : state.geteilteDaten ≤ after.geteilteDaten)
    (reported : after.reported = state.reported) : Reports threads after where
  few := by
    rw [reported, same]
    exact reports.few
  flagged other := by
    rw [same]
    exact fun there => (reports.flagged other there).trans_le shared
  later := by
    rw [reported]
    exact fun some_ => (reports.later some_).trans_le shared

theorem Reports.goMain (reports : Reports threads state) (placed : Placed threads state)
    (went : state.goMain threads = some after) : Reports threads after := by
  cases mainGoes_of_goMain went with
  | @create i main _ =>
      have absent : (state.client i).place = .absent := by
        refine Decidable.not_not.mp fun there => ?_
        have created := (placed.created i).mp there
        rw [main] at created
        exact Nat.lt_irrefl i created
      refine reports.ofClient rfl rfl rfl ?_ (by intro there; cases there)
      simp only [Client.consumed, absent, Nat.le_refl]
  | produce => exact reports.ofMain rfl (Nat.le_succ _) rfl
  | created | last | another | lock | unlock | join | joined =>
      exact reports.ofMain rfl (Nat.le_refl _) rfl

theorem Reports.goClient (reports : Reports threads state) (placed : Placed threads state)
    (announced : Announced items state) (went : state.goClient index = some after) :
    Reports threads after := by
  have counts := placed.counts index
  cases clientGoes_of_goClient went with
  | lock place _ =>
      refine reports.ofClient rfl rfl rfl ?_ (by intro there; cases there)
      simp only [Client.consumed, place, Nat.zero_le]
  | decide place =>
      simp only [Client.Counts, place] at counts
      rcases counts with two | one
      · refine reports.ofClient rfl rfl rfl ?_ (by rw [two]; intro there; cases there)
        simp [Client.consumed, place, two]
      · refine reports.ofClient rfl rfl rfl ?_ (by rw [one]; intro there; cases there)
        simp [Client.consumed, place, one]
  | pass place flag =>
      refine reports.ofClient rfl rfl rfl ?_ fun _ => announced.flag.mp flag
      simp only [Client.consumed, place, Nat.le_refl]
  | wait place _ _ | unlock place _ =>
      refine reports.ofClient rfl rfl rfl ?_ (by intro there; cases there)
      simp only [Client.consumed, place, Nat.le_refl]
  | report place =>
      simp only [Client.Counts, place] at counts
      have there : (state.client index).place ≠ .absent := by
        rw [place]
        decide
      have small := Nat.lt_of_lt_of_le ((placed.created index).mp there) placed.within
      have positive := reports.flagged index place
      refine ⟨?_, fun other => ?_, fun _ => positive⟩
      · refine Nat.succ_le_of_lt (Nat.lt_of_le_of_lt reports.few (sum_consumed_lt small rfl ?_))
        simp [Client.consumed, place, counts]
      · exact fun _ => positive

/-- What is known of every state. -/
structure Counted (threads items : ℕ) (state : State) : Prop where
  placed : Placed threads state
  announced : Announced items state
  reports : Reports threads state

theorem counted_next {action : Action} (counted : Counted threads items state)
    (moved : next threads state action = some after) : Counted threads items after := by
  refine ⟨placed_next counted.placed moved, announced_next counted.announced moved, ?_⟩
  have reports := counted.reports
  cases moves_of_next moved with
  | main went => exact reports.goMain counted.placed went
  | createFails | signal | wake => exact reports.ofMain rfl (Nat.le_refl _) rfl
  | client went => exact reports.goClient counted.placed counted.announced went
  | relock place _ =>
      refine reports.ofClient rfl rfl rfl ?_ nofun
      simp only [Client.consumed, place, Nat.le_refl]

theorem counted_invariant (threads items : ℕ) :
    (program threads items).Invariant (Counted threads items) where
  initial := by
    rintro _ rfl
    exact ⟨placed_start threads items, announced_start items, Nat.zero_le _, nofun, nofun⟩
  step _ _ _ counted moved := counted_next counted moved

theorem reported_le_threads (reached : (program threads items).Reachable state) :
    state.reported ≤ threads := by
  have counted := (counted_invariant threads items).reachable reached
  have one : ∀ client : Client, client.consumed ≤ 1 := by
    intro client
    unfold Client.consumed
    split <;> first | omega | (split <;> omega)
  calc state.reported ≤ ∑ index ∈ Finset.range threads, (state.client index).consumed :=
        counted.reports.few
    _ ≤ ∑ _ ∈ Finset.range threads, 1 := Finset.sum_le_sum fun index _ => one _
    _ = threads := (Finset.sum_const_nat fun _ _ => rfl).trans (by simp)

/-- The program when so many threads have been created and none has taken a step. -/
def created (items i : ℕ) : State :=
  { start items with
    main := .creating i
    client := fun index => if index < i then { place := .locking, retries := 2 }
      else { place := .absent, retries := 0 } }

theorem created_zero (items : ℕ) : created items 0 = start items := by
  rw [created, start]
  simp only [Nat.not_lt_zero, ↓reduceIte]

theorem created_succ (items i : ℕ) : created items (i + 1) = { created items i with
    main := .creating (i + 1)
    client := Function.update (created items i).client i { place := .locking, retries := 2 } } := by
  rw [created, created]
  congr 1
  funext index
  by_cases here : index = i
  · rw [here, Function.update_self, if_pos (Nat.lt_succ_self i)]
  · rw [Function.update_of_ne here]
    have same : index < i + 1 ↔ index < i := by omega
    simp only [same]

theorem reachable_created {i : ℕ} (small : i ≤ threads) :
    (program threads items).Reachable (created items i) := by
  induction i with
  | zero => exact .initial (created_zero items)
  | succ i ih =>
      have moved : next threads (created items i) .main = some (created items (i + 1)) := by
        rw [created_succ]
        change (if i < threads then _ else _) = _
        rw [if_pos (Nat.lt_of_succ_le small)]
      exact .step (ih (Nat.le_of_succ_le small)) moved

/-- The program when all threads have been created and one item has been announced. -/
def oneItem (threads left : ℕ) : State :=
  { created left threads with
    main := .deciding
    datenVorhanden := true
    geteilteDaten := 1
    signals := 1 }

theorem reachable_oneItem (threads left : ℕ) :
    (program threads (left + 1)).Reachable (oneItem threads left) := by
  let state := created left threads
  have goesOn : ∀ {before after : State} {action : Action},
      (program threads (left + 1)).Reachable before → next threads before action = some after →
        (program threads (left + 1)).Reachable after := fun reached moved => .step reached moved
  have created : (program threads (left + 1)).Reachable (created (left + 1) threads) :=
    reachable_created (Nat.le_refl threads)
  have behind : next threads (Consumers.created (left + 1) threads) .main =
      some { state with main := .deciding, anzahlDaten := left + 1 } := by
    change (if threads < threads then _ else _) = _
    rw [if_neg (Nat.lt_irrefl threads)]
    rfl
  have deciding : next threads { state with main := .deciding, anzahlDaten := left + 1 } .main =
      some { state with main := .locking } := rfl
  have locking : next threads { state with main := .locking } .main =
      some { state with main := .producing, monitor := ⟨some .main, ∅, ∅⟩ } := rfl
  have producing : next threads { state with
      main := .producing, monitor := ⟨some .main, ∅, ∅⟩ } .main = some { state with
        main := .signalling, monitor := ⟨some .main, ∅, ∅⟩, datenVorhanden := true,
        geteilteDaten := 1 } := rfl
  have signalling : next threads { state with
      main := .signalling, monitor := ⟨some .main, ∅, ∅⟩, datenVorhanden := true,
      geteilteDaten := 1 } (.signal ∅) = some { state with
        main := .unlocking, monitor := ⟨some .main, ∅, ∅⟩, datenVorhanden := true,
        geteilteDaten := 1, signals := 1 } := rfl
  have unlocking : next threads { state with
      main := .unlocking, monitor := ⟨some .main, ∅, ∅⟩, datenVorhanden := true,
      geteilteDaten := 1, signals := 1 } .main = some (oneItem threads left) := rfl
  exact goesOn (goesOn (goesOn (goesOn (goesOn (goesOn created behind) deciding) locking)
    producing) signalling) unlocking

/-- The state with the data of one thread, who has the mutex, and the number of reports. -/
def State.put (state : State) (index : ℕ) (client : Client) (holder : Option Party)
    (reported : ℕ) : State :=
  { state with
    client := Function.update state.client index client
    monitor := ⟨holder, ∅, ∅⟩
    reported := reported }

/-- A thread that finds an item there reports it. -/
theorem reachable_report (reached : (program threads items).Reachable state)
    (running : state.exited = false) (free : state.monitor = .start)
    (there : state.datenVorhanden = true) (some_ : state.geteilteDaten ≠ 0)
    (locking : state.client index = { place := .locking, retries := 2 }) :
    (program threads items).Reachable
      (state.put index { place := .done, retries := 0 } none (state.reported + 1)) := by
  have goesOn : ∀ {before after : State},
      (program threads items).Reachable before → next threads before (.client index) = some after →
        (program threads items).Reachable after := fun reached moved => .step reached moved
  have first : next threads state (.client index) = some
      (state.put index { place := .deciding, retries := 2 } (some (.client index))
        state.reported) := by
    simp [next, running, State.goClient, locking, free, Monitor.lock, Monitor.start, State.put,
      State.move]
  have second : next threads (state.put index { place := .deciding, retries := 2 }
      (some (.client index)) state.reported) (.client index) = some
      (state.put index { place := .testing, retries := 1 } (some (.client index))
        state.reported) := by
    simp [next, running, State.goClient, State.put]
  have third : next threads (state.put index { place := .testing, retries := 1 }
      (some (.client index)) state.reported) (.client index) = some
      (state.put index { place := .reporting, retries := 1 } (some (.client index))
        state.reported) := by
    simp [next, running, State.goClient, State.put, State.move, there]
  have fourth : next threads (state.put index { place := .reporting, retries := 1 }
      (some (.client index)) state.reported) (.client index) = some
      (state.put index { place := .deciding, retries := 1 } (some (.client index))
        (state.reported + 1)) := by
    simp [next, running, State.goClient, State.put, State.move, some_]
  have fifth : next threads (state.put index { place := .deciding, retries := 1 }
      (some (.client index)) (state.reported + 1)) (.client index) = some
      (state.put index { place := .unlocking, retries := 0 } (some (.client index))
        (state.reported + 1)) := by
    simp [next, running, State.goClient, State.put]
  have sixth : next threads (state.put index { place := .unlocking, retries := 0 }
      (some (.client index)) (state.reported + 1)) (.client index) = some
      (state.put index { place := .done, retries := 0 } none (state.reported + 1)) := by
    simp [next, running, State.goClient, State.put, State.move, Monitor.unlock]
  exact goesOn (goesOn (goesOn (goesOn (goesOn (goesOn reached first) second) third) fourth)
    fifth) sixth

/-- The reports never exceed the items exactly if there is at most one thread, or no item. -/
theorem reported_le_iff (threads items : ℕ) :
    (∀ state, (program threads items).Reachable state → state.reported ≤ state.geteilteDaten) ↔
      threads ≤ 1 ∨ items = 0 := by
  constructor
  · intro few
    by_contra many
    obtain ⟨several, some_⟩ := not_or.mp many
    obtain ⟨left, rfl⟩ := Nat.exists_eq_add_one_of_ne_zero some_
    have firstClient : (oneItem threads left).client 0 = { place := .locking, retries := 2 } :=
      if_pos (by omega)
    let reportedClient : Client := { place := .done, retries := 0 }
    have secondClient : ((oneItem threads left).put 0 reportedClient none 1).client 1 =
        { place := .locking, retries := 2 } :=
      (Function.update_of_ne Nat.one_ne_zero reportedClient _).trans (if_pos (by omega))
    have first := reachable_report (reachable_oneItem threads left) rfl rfl rfl Nat.one_ne_zero
      firstClient
    have second := reachable_report first rfl rfl rfl Nat.one_ne_zero secondClient
    have two : 2 ≤ 1 := few _ second
    exact absurd two (by decide)
  · intro bound state reached
    have counted := (counted_invariant threads items).reachable reached
    rcases bound with single | nothing
    · have one := (reported_le_threads reached).trans single
      by_cases none_ : 0 < state.reported
      · have later := counted.reports.later none_
        omega
      · omega
    · have all := counted.announced.all
      refine Nat.le_of_not_lt fun more => ?_
      have later := counted.reports.later (Nat.lt_of_le_of_lt (Nat.zero_le _) more)
      omega

/-- The program as it is: two threads report the first of four items. -/
theorem not_reported_le_of_twoThreads :
    ¬ ∀ (threads items : ℕ) (state : State), (program threads items).Reachable state →
      state.reported ≤ state.geteilteDaten := by
  intro few
  have first := @reachable_report 2 4 _ 0 (reachable_oneItem 2 3) rfl rfl rfl Nat.one_ne_zero rfl
  have second := @reachable_report 2 4 _ 1 first rfl rfl rfl Nat.one_ne_zero rfl
  exact absurd (few 2 4 _ second) (by decide)

end LinuxUnix.Consumers

import LinuxUnix.Network.MultiServerTable

/-! # The overload guard of the select server

`main` gives up when no slot of `client_sock` is free. The macros of `select` need more than
that: a descriptor is passed to them whatever its number is. With the standard streams and the
listening socket open, the lowest unused number is `FD_SETSIZE` while slots are still free
(`LinuxUnix.MultiServer.not_passed_lt_of_crowd`). The numbers that are passed are small in
exactly those runs in which the listening socket and each client that finds a slot have small
numbers (`LinuxUnix.MultiServer.passed_lt_iff_small`).
-/

namespace LinuxUnix.MultiServer

open CMemory TransitionSystem

/-- The descriptors that the loop over the slots passes to `FD_ISSET` and `FD_CLR`. -/
def passedByScan (input : Round) : List (Fin fdSetSize) → Progress → List ℕ
  | [], _ => []
  | i :: slots, progress =>
      let sock3 := progress.state.clientSock i
      if sock3 < 0 then passedByScan input slots progress
      else if sock3.toNat ∈ input.leseSock then
        match serveClient input i sock3.toNat progress with
        | .error _ => [sock3.toNat]
        | .ok served =>
            sock3.toNat :: (if cstr served.state.buffer = quitLine then [sock3.toNat] else []) ++
              if served.ready ≤ 0 then [] else passedByScan input slots served
      else sock3.toNat :: passedByScan input slots progress

/-- The descriptors that a round passes to `FD_ISSET`, `FD_SET` and `FD_CLR`. -/
def passed (state : State) (input : Round) : List ℕ :=
  state.sock1 ::
    if state.sock1 ∈ input.leseSock then
      match input.accepted, freeSlot state.clientSock with
      | some sock2, some i =>
          let state := state.enter i sock2
          sock2 :: if input.ready - 1 ≤ 0 then [] else
            passedByScan input (slotsUpTo state.max)
              { state, calls := [.accept], ready := input.ready - 1 }
      | _, _ => []
    else passedByScan input (slotsUpTo state.max) { state, calls := [], ready := input.ready }

/-- The number of the listening socket fits an `fd_set`, and so does that of a new client if
there is a slot for it. -/
def Small (state : State) (input : Round) : Prop :=
  state.sock1 < fdSetSize ∧ (state.sock1 ∈ input.leseSock → ∀ sock2 ∈ input.accepted,
    (freeSlot state.clientSock).isSome → sock2 < fdSetSize)

/-- The numbers of the clients fit an `fd_set`. -/
def Fits (clientSock : Fin fdSetSize → ℤ) : Prop := ∀ i, clientSock i < fdSetSize

variable {state : State} {input : Round} {before after : Progress} {i : Fin fdSetSize} {sock : ℕ}

theorem Fits.update {clientSock : Fin fdSetSize → ℤ} (fits : Fits clientSock) {value : ℤ}
    (small : value < fdSetSize) : Fits (Function.update clientSock i value) :=
  (Function.forall_update_iff clientSock fun _ value => value < fdSetSize).mpr
    ⟨small, fun j _ => fits j⟩

theorem Fits.serve (fits : Fits before.state.clientSock)
    (served : serveClient input i sock before = .ok after) : Fits after.state.clientSock := by
  obtain ⟨buffer, _, ⟨_, same⟩ | ⟨_, same⟩⟩ := serveClient_eq_ok served
  · rw [same]
    exact fits.update (by omega)
  · rw [same]
    exact fits

theorem Fits.round (fits : Fits state.clientSock) (small : Small state input)
    (done : round state input = .ok after) : Fits after.state.clientSock := by
  refine @round_preserves (fun state => Fits state.clientSock) input state after ?_ ?_ fits done
  · intro entered ready accepts
    obtain ⟨sock2, i, accepted, found, rfl⟩ := acceptClient_eq_ok accepts
    have less := small.2 ready sock2 accepted (by rw [found]; rfl)
    exact fits.update (by omega)
  · intro i sock3 before after fits _ served
    exact fits.serve served

/-- The loop over the slots passes the numbers of clients only. -/
theorem Fits.passedByScan_lt {slots : List (Fin fdSetSize)} (fits : Fits before.state.clientSock) :
    ∀ sock ∈ passedByScan input slots before, sock < fdSetSize := by
  induction slots generalizing before with
  | nil => exact fun sock member => absurd member List.not_mem_nil
  | cons i slots ih =>
      intro sock member
      rw [passedByScan] at member
      split at member
      · exact ih fits sock member
      · rename_i valid
        have own : (before.state.clientSock i).toNat < fdSetSize := by
          have less := fits i
          omega
        split at member
        · split at member
          · rw [List.mem_singleton.mp member]
            exact own
          · rename_i served ended
            rcases List.mem_append.mp member with first | later
            · rcases List.mem_cons.mp first with rfl | cleared
              · exact own
              · split at cleared
                · rw [List.mem_singleton.mp cleared]
                  exact own
                · cases cleared
            · split at later
              · cases later
              · exact ih (fits.serve ended) sock later
        · rcases List.mem_cons.mp member with rfl | later
          · exact own
          · exact ih fits sock later

theorem Fits.passed_lt (fits : Fits state.clientSock) (small : Small state input) :
    ∀ sock ∈ passed state input, sock < fdSetSize := by
  intro sock member
  rcases List.mem_cons.mp member with rfl | later
  · exact small.1
  · split at later
    · rename_i ready
      split at later
      · rename_i sock2 i accepted found
        have less := small.2 ready sock2 accepted (by rw [found]; rfl)
        rcases List.mem_cons.mp later with rfl | scanned
        · exact less
        · split at scanned
          · cases scanned
          · have kept : Fits (state.enter i sock2).clientSock := fits.update (by omega)
            exact @Fits.passedByScan_lt input ⟨state.enter i sock2, _, _⟩ _ kept sock scanned
      · cases later
    · exact @Fits.passedByScan_lt input ⟨state, _, _⟩ _ fits sock later

/-- A round passes the number of the listening socket, and that of a client that finds a
slot. -/
theorem small_of_passed_lt (less : ∀ sock ∈ passed state input, sock < fdSetSize) :
    Small state input := by
  refine ⟨less _ List.mem_cons_self, fun ready sock2 accepted free => less sock2 ?_⟩
  obtain ⟨i, found⟩ := Option.isSome_iff_exists.mp free
  rw [passed, if_pos ready, Option.mem_def.mp accepted, found]
  exact List.mem_cons_of_mem _ List.mem_cons_self

/-- **The overload guard.** In the runs in which the listening socket and each client that
finds a slot have had small numbers, a round passes small numbers only if and only if they have
them in this round too. -/
theorem passed_lt_iff_small (reached : (multiServer.restrict Small).Reachable state) :
    (∀ sock ∈ passed state input, sock < fdSetSize) ↔ Small state input := by
  have invariant : (multiServer.restrict Small).Invariant fun state => Fits state.clientSock := by
    refine ⟨?_, ?_⟩
    · rintro state ⟨sock1, opened, buffer, _, _, rfl⟩ i
      exact Int.lt_of_lt_of_le (by decide : (-1 : ℤ) < 0) (Int.natCast_nonneg _)
    · rintro before input after fits ⟨small, _, calls, ready, done⟩
      exact fits.round small done
  have fits := invariant.reachable reached
  exact ⟨small_of_passed_lt, fits.passed_lt⟩

/-! ## The lowest unused number -/

/-- `accept` returns the lowest number that is not in use, as the kernel does. -/
def AcceptsLowest (state : State) (input : Round) : Prop :=
  ∀ sock2 ∈ input.accepted, sock2 ∉ state.opened ∧ ∀ smaller < sock2, smaller ∈ state.opened

/-- A client connects, and nothing else happens. -/
def arrival (sock2 : ℕ) : Round where
  leseSock := {3}
  ready := 1
  accepted := some sock2
  received _ := none

/-- The first client of a server that has descriptor 3 for its socket. -/
theorem passed_lt_of_firstClient :
    Small listening (arrival 4) ∧ ∀ sock ∈ passed listening (arrival 4), sock < fdSetSize := by
  have open_ : 3 ∈ ({0, 1, 2, 3} : Finset ℕ) := by decide
  have small : Small listening (arrival 4) := by
    refine ⟨?_, fun _ sock2 accepted _ => ?_⟩
    · unfold fdSetSize
      decide
    · cases accepted
      unfold fdSetSize
      decide
  exact ⟨small, (passed_lt_iff_small
    (.initial ⟨3, _, _, open_, List.length_replicate, rfl⟩)).mpr small⟩

/-- So many clients are connected: behind the standard streams and the listening socket they
have all the numbers. -/
structure Crowd (count : ℕ) (state : State) : Prop where
  table : Table state
  sock1 : state.sock1 = 3
  opened : state.opened = Finset.range (4 + count)
  input : 0 ∉ state.gesamtSock

variable {count : ℕ}

/-- There is a slot for the next client: the standard input is no client. -/
theorem Crowd.exists_freeSlot (crowd : Crowd count state) :
    ∃ i, freeSlot state.clientSock = some i := by
  have table : Table { state with opened := state.opened.erase 0 } :=
    { crowd.table with
      opened := Finset.subset_erase.mpr ⟨crowd.table.opened, crowd.input⟩ }
  have small : 0 < fdSetSize := by
    unfold fdSetSize
    decide
  exact @MultiServer.exists_freeSlot { state with opened := state.opened.erase 0 } table 0
    (Finset.notMem_erase 0 _) small

theorem Crowd.selects (crowd : Crowd count state) (sock2 : ℕ) : Selects state (arrival sock2) where
  subset := by
    refine Finset.singleton_subset_iff.mpr ((crowd.table.members 3).mpr (.inl ?_))
    exact crowd.sock1.symm
  nonempty := Finset.singleton_nonempty 3
  ready := rfl

theorem Crowd.acceptsLowest (crowd : Crowd count state) :
    AcceptsLowest state (arrival (4 + count)) := by
  rintro sock2 accepted
  cases accepted
  rw [crowd.opened]
  exact ⟨Finset.notMem_range_self, fun smaller less => Finset.mem_range.mpr less⟩

theorem Crowd.mem_leseSock (crowd : Crowd count state) (sock2 : ℕ) :
    state.sock1 ∈ (arrival sock2).leseSock :=
  Finset.mem_singleton.mpr crowd.sock1

/-- The next client enters the table. -/
theorem Crowd.round_eq (crowd : Crowd count state) (found : freeSlot state.clientSock = some i)
    (sock2 : ℕ) : round state (arrival sock2) =
      .ok { state := state.enter i sock2, calls := [.accept], ready := 0 } := by
  have entered : acceptClient (arrival sock2).accepted state = .ok (state.enter i sock2) := by
    simp only [acceptClient, arrival, found]
  rw [round, if_pos (crowd.mem_leseSock sock2), entered]
  rfl

theorem Crowd.enter (crowd : Crowd count state) (found : freeSlot state.clientSock = some i)
    (small : 4 + count < fdSetSize) : Crowd (count + 1) (state.enter i (4 + count)) where
  table := by
    have entered : acceptClient (some (4 + count)) state = .ok (state.enter i (4 + count)) := by
      simp only [acceptClient, found]
    refine crowd.table.accept entered ⟨_, rfl, ?_, small⟩
    exact (crowd.acceptsLowest _ rfl).1
  sock1 := crowd.sock1
  opened := by
    rw [State.enter, crowd.opened, ← Nat.add_assoc, Finset.range_add_one]
  input := by
    rw [State.enter, Finset.mem_insert, not_or]
    exact ⟨by omega, crowd.input⟩

/-- As many clients can be connected as there are numbers. -/
theorem exists_crowd (count : ℕ) (few : 4 + count ≤ fdSetSize) :
    ∃ state, (multiServer.restrict AcceptsLowest).Reachable state ∧ Crowd count state := by
  induction count with
  | zero =>
      have open_ : 3 ∈ ({0, 1, 2, 3} : Finset ℕ) := by decide
      refine ⟨listening, .initial ⟨3, _, _, open_, List.length_replicate, rfl⟩,
        table_start open_, rfl, by decide, by decide⟩
  | succ count ih =>
      obtain ⟨state, reached, crowd⟩ := ih (by omega)
      obtain ⟨i, found⟩ := crowd.exists_freeSlot
      exact ⟨state.enter i (4 + count), .step reached ⟨crowd.acceptsLowest,
        crowd.selects _, _, _, crowd.round_eq found (4 + count)⟩, crowd.enter found (by omega)⟩

/-- The client behind the one with the largest small number. -/
theorem not_passed_lt_of_crowd : ¬ ∀ state input,
    (multiServer.restrict AcceptsLowest).Reachable state → Selects state input →
      AcceptsLowest state input → ∀ sock ∈ passed state input, sock < fdSetSize := by
  intro claim
  have large : 4 ≤ fdSetSize := by
    unfold fdSetSize
    decide
  obtain ⟨count, full⟩ := Nat.exists_eq_add_of_le large
  obtain ⟨state, reached, crowd⟩ := exists_crowd count (Nat.le_of_eq full.symm)
  obtain ⟨i, found⟩ := crowd.exists_freeSlot
  have passed := claim state (arrival (4 + count)) reached (crowd.selects _) crowd.acceptsLowest
  have less := (small_of_passed_lt passed).2 (crowd.mem_leseSock _) (4 + count) rfl
    (by rw [found]; rfl)
  omega

end LinuxUnix.MultiServer

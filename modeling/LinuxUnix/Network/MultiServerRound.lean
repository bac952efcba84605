import LinuxUnix.Network.MultiServerTable

/-! # One round of the select server

The count of ready descriptors is shared between the accept branch and the scan
of the slots, and ends the scan early. Because the table agrees with the set
given to `select`, the count reaches zero exactly when every ready client has
been served (`LinuxUnix.MultiServer.scanClients_eq_serveAll`,
`LinuxUnix.MultiServer.served_once`).
-/

namespace LinuxUnix.MultiServer

open CMemory TransitionSystem

/-- The descriptors received from, in order. -/
def recvs (calls : List Call) : List ℕ :=
  calls.filterMap fun call => match call with
    | .recv sock => some sock
    | .accept | .print _ | .close _ => none

/-- A descriptor is received from as often as `recv` is called on it. -/
theorem count_recv (calls : List Call) (fd : ℕ) :
    calls.count (.recv fd) = (recvs calls).count fd := by
  induction calls with
  | nil => rfl
  | cons call calls ih =>
      cases call with
      | recv sock =>
          by_cases same : sock = fd
          · subst same
            rw [List.count_cons_self, ih]
            exact List.count_cons_self.symm
          · rw [List.count_cons_of_ne fun equal => same (Call.recv.inj equal), ih]
            exact (List.count_cons_of_ne same).symm
      | accept => exact (List.count_cons_of_ne (fun same => by cases same)).trans ih
      | print text => exact (List.count_cons_of_ne (fun same => by cases same)).trans ih
      | close sock => exact (List.count_cons_of_ne (fun same => by cases same)).trans ih

/-- A slot whose client is ready. -/
def isReady (input : Round) (clientSock : Fin fdSetSize → ℤ) (i : Fin fdSetSize) : Bool :=
  decide (0 ≤ clientSock i) && decide ((clientSock i).toNat ∈ input.leseSock)

/-- The descriptors of the ready clients in a list of slots. -/
def readySocks (input : Round) (clientSock : Fin fdSetSize → ℤ) (slots : List (Fin fdSetSize)) :
    List ℕ :=
  (slots.filter (isReady input clientSock)).map fun i => (clientSock i).toNat

/-- Serving a client receives from it once, counts it off and touches no other
slot. -/
theorem serveClient_spec {input : Round} {i : Fin fdSetSize} {sock3 : ℕ} {data : List Byte}
    (received : input.received sock3 = some data) (before : Progress) :
    ∃ after, serveClient input i sock3 before = .ok after ∧
      after.ready = before.ready - 1 ∧
      recvs after.calls = recvs before.calls ++ [sock3] ∧
      after.calls.count .accept = before.calls.count .accept ∧
      ∀ j, j ≠ i → after.state.clientSock j = before.state.clientSock j := by
  by_cases quit : cstr (overwrite before.state.buffer 0 (data ++ [0])) = quitLine
  · refine ⟨_, by simp only [serveClient, tcpRecv, received, bind, Except.bind, quit, ↓reduceIte,
      pure, Except.pure]; rfl, rfl, ?_, ?_, ?_⟩
    · simp only [recvs, List.filterMap_append, List.append_assoc]
      rfl
    · simp only [List.count_append]
      rfl
    · intro j different
      exact Function.update_of_ne different _ _
  · refine ⟨_, by simp only [serveClient, tcpRecv, received, bind, Except.bind, quit, ↓reduceIte,
      pure, Except.pure]; rfl, rfl, ?_, ?_, ?_⟩
    · simp only [recvs, List.filterMap_append]
      rfl
    · simp only [List.count_append]
      rfl
    · intro j _
      rfl

/-- The slots with a ready client, and its descriptor. -/
def readyClients (input : Round) (clientSock : Fin fdSetSize → ℤ) (slots : List (Fin fdSetSize)) :
    List (Fin fdSetSize × ℕ) :=
  (slots.filter (isReady input clientSock)).map fun i => (i, (clientSock i).toNat)

theorem map_snd_readyClients (input : Round) (clientSock : Fin fdSetSize → ℤ)
    (slots : List (Fin fdSetSize)) :
    (readyClients input clientSock slots).map Prod.snd = readySocks input clientSock slots := by
  rw [readyClients, List.map_map]
  rfl

theorem length_readyClients (input : Round) (clientSock : Fin fdSetSize → ℤ)
    (slots : List (Fin fdSetSize)) :
    (readyClients input clientSock slots).length = (readySocks input clientSock slots).length := by
  rw [← map_snd_readyClients, List.length_map]

theorem readyClients_cons_of_ready {input : Round} {clientSock : Fin fdSetSize → ℤ}
    {i : Fin fdSetSize} (valid : 0 ≤ clientSock i)
    (present : (clientSock i).toNat ∈ input.leseSock) (slots : List (Fin fdSetSize)) :
    readyClients input clientSock (i :: slots) =
      (i, (clientSock i).toNat) :: readyClients input clientSock slots := by
  have ready : isReady input clientSock i = true := by
    simp only [isReady, valid, present, decide_true, Bool.and_self]
  rw [readyClients, List.filter_cons_of_pos ready, List.map_cons, readyClients]

theorem readyClients_cons_of_not_ready {input : Round} {clientSock : Fin fdSetSize → ℤ}
    {i : Fin fdSetSize}
    (idle : ¬ (0 ≤ clientSock i ∧ (clientSock i).toNat ∈ input.leseSock))
    (slots : List (Fin fdSetSize)) :
    readyClients input clientSock (i :: slots) = readyClients input clientSock slots := by
  have passed : ¬ isReady input clientSock i = true := by
    simpa only [isReady, Bool.and_eq_true, decide_eq_true_eq] using idle
  rw [readyClients, List.filter_cons_of_neg passed, readyClients]

/-- Slots that hold the same clients have the same ready ones. -/
theorem readyClients_congr {input : Round} {first second : Fin fdSetSize → ℤ}
    {slots : List (Fin fdSetSize)} (same : ∀ i ∈ slots, first i = second i) :
    readyClients input first slots = readyClients input second slots := by
  have kept : slots.filter (isReady input first) = slots.filter (isReady input second) := by
    apply List.filter_congr
    intro i member
    simp only [isReady, same i member]
  rw [readyClients, kept]
  apply List.map_congr_left
  intro i member
  rw [same i (List.mem_of_mem_filter member)]

/-- The clients are served one after the other. -/
def serveAll (input : Round) : List (Fin fdSetSize × ℕ) → Progress → Except ErrorExit Progress
  | [], progress => .ok progress
  | client :: clients, progress => do
      let served ← serveClient input client.1 client.2 progress
      serveAll input clients served

/-- A scan that starts with as many ready descriptors as its slots hold serves all of them, in
the order of the slots: its early end leaves nobody out. -/
theorem scanClients_eq_serveAll {input : Round} {slots : List (Fin fdSetSize)}
    (nodup : slots.Nodup) : ∀ before : Progress,
      before.ready = (readySocks input before.state.clientSock slots).length →
      scanClients input slots before =
        serveAll input (readyClients input before.state.clientSock slots) before := by
  induction slots with
  | nil => exact fun _ _ => rfl
  | cons i slots ih =>
      intro before counted
      obtain ⟨absent, nodup⟩ := List.nodup_cons.mp nodup
      rw [← length_readyClients] at counted
      simp only [scanClients]
      by_cases empty : before.state.clientSock i < 0
      · have idle : ¬ (0 ≤ before.state.clientSock i ∧
            (before.state.clientSock i).toNat ∈ input.leseSock) := fun ready => by omega
        rw [readyClients_cons_of_not_ready idle] at counted ⊢
        rw [if_pos empty]
        rw [length_readyClients] at counted
        exact ih nodup before counted
      · rw [if_neg empty]
        by_cases present : (before.state.clientSock i).toNat ∈ input.leseSock
        · rw [readyClients_cons_of_ready (by omega) present] at counted ⊢
          rw [if_pos present, serveAll]
          cases received : input.received (before.state.clientSock i).toNat with
          | none =>
              rw [serveClient, received]
              rfl
          | some data =>
              obtain ⟨middle, returned, ready, _, _, others⟩ :=
                @serveClient_spec input i _ data received before
              have rest : readyClients input middle.state.clientSock slots =
                  readyClients input before.state.clientSock slots := by
                apply readyClients_congr
                intro j member
                exact others j fun same => absent (same ▸ member)
              rw [returned]
              simp only [bind, Except.bind]
              rw [List.length_cons, ← rest] at counted
              rw [← rest]
              by_cases last : middle.ready ≤ 0
              · -- no ready descriptor is left, and so no ready slot either
                have nothing : readyClients input middle.state.clientSock slots = [] :=
                  List.eq_nil_of_length_eq_zero (by omega)
                rw [if_pos last, nothing]
                rfl
              · rw [if_neg last]
                rw [length_readyClients] at counted
                exact ih nodup middle (by omega)
        · rw [readyClients_cons_of_not_ready fun ready => present ready.2] at counted ⊢
          rw [if_neg present]
          rw [length_readyClients] at counted
          exact ih nodup before counted

/-- Every client is received from once, in the order in which they are served. -/
theorem serveAll_spec {input : Round} {clients : List (Fin fdSetSize × ℕ)}
    (receives : ∀ client ∈ clients, ∃ data, input.received client.2 = some data) :
    ∀ before : Progress, ∃ after, serveAll input clients before = .ok after ∧
      recvs after.calls = recvs before.calls ++ clients.map Prod.snd ∧
      after.calls.count .accept = before.calls.count .accept := by
  induction clients with
  | nil => exact fun before => ⟨before, rfl, (List.append_nil _).symm, rfl⟩
  | cons client clients ih =>
      intro before
      obtain ⟨data, received⟩ := receives client List.mem_cons_self
      obtain ⟨middle, served, _, heard, accepts, _⟩ :=
        serveClient_spec (i := client.1) received before
      obtain ⟨after, rest, all, accepts'⟩ :=
        ih (fun other member => receives other (List.mem_cons_of_mem _ member)) middle
      refine ⟨after, ?_, ?_, accepts'.trans accepts⟩
      · rw [serveAll, served]
        exact rest
      · rw [all, heard, List.map_cons, List.append_assoc, List.singleton_append]

theorem nodup_slotsUpTo (max : ℤ) : (slotsUpTo max).Nodup :=
  (List.nodup_finRange _).filter _

/-- With a table in agreement, the ready slots up to `max` hold each ready client
once. -/
theorem readySocks_of_table {state : State} {input : Round} (table : Table state)
    (subset : input.leseSock ⊆ state.gesamtSock) :
    (readySocks input state.clientSock (slotsUpTo state.max)).Nodup ∧
      ∀ fd, fd ∈ readySocks input state.clientSock (slotsUpTo state.max) ↔
        fd ∈ input.leseSock ∧ fd ≠ state.sock1 := by
  constructor
  · apply List.Nodup.map_on
    · intro i first j second same
      have left := (List.mem_filter.mp first).2
      have right := (List.mem_filter.mp second).2
      simp only [isReady, Bool.and_eq_true, decide_eq_true_eq] at left right
      exact table.distinct i j left.1 (by omega)
    · exact (nodup_slotsUpTo state.max).filter _
  · intro fd
    simp only [readySocks, slotsUpTo, List.mem_map, List.mem_filter, List.mem_finRange, true_and,
      isReady, Bool.and_eq_true, decide_eq_true_eq]
    constructor
    · rintro ⟨i, ⟨_, valid, present⟩, rfl⟩
      refine ⟨present, fun same => table.listening i ?_⟩
      rw [← same, Int.toNat_of_nonneg valid]
    · rintro ⟨present, different⟩
      obtain same | ⟨i, there⟩ := (table.members fd).mp (subset present)
      · exact absurd same different
      · refine ⟨i, ⟨?_, by omega, ?_⟩, by omega⟩
        · by_contra beyond
          have free := table.unused i (by omega)
          omega
        · rwa [there, Int.toNat_natCast]

/-- What a round does before it scans the slots. -/
def Accepts (state : State) (input : Round) (before : Progress) : Prop :=
  if state.sock1 ∈ input.leseSock then
    before.calls = [.accept] ∧ ∃ i sock2, input.accepted = some sock2 ∧ state.clientSock i < 0 ∧
      before.state = state.enter i sock2
  else before.calls = [] ∧ before.state = state

/-- A round is a scan that starts with as many ready descriptors as there are ready clients. -/
structure Scans (state : State) (input : Round) (before : Progress) : Prop where
  scan : round state input = scanClients input (slotsUpTo before.state.max) before
  counted : before.ready =
    (readySocks input before.state.clientSock (slotsUpTo before.state.max)).length
  nodup : (readySocks input before.state.clientSock (slotsUpTo before.state.max)).Nodup
  members : ∀ fd, fd ∈ readySocks input before.state.clientSock (slotsUpTo before.state.max) ↔
    fd ∈ input.leseSock ∧ fd ≠ state.sock1
  accepts : Accepts state input before

/-- A round from a table in agreement. -/
theorem exists_scans {state : State} {input : Round} (table : Table state)
    (selects : Selects state input) (fresh : AcceptsFresh state input) :
    ∃ before, Scans state input before := by
  have ready := selects.ready
  by_cases listening : state.sock1 ∈ input.leseSock
  · obtain ⟨sock2, accepted, closed, small⟩ := fresh listening
    obtain ⟨i, found⟩ := exists_freeSlot table closed small
    have entered : acceptClient input.accepted state = .ok (state.enter i sock2) := by
      rw [accepted]
      simp only [acceptClient, found]
    have kept := table.accept entered (fresh listening)
    have subset : input.leseSock ⊆ (state.enter i sock2).gesamtSock :=
      selects.subset.trans (Finset.subset_insert _ _)
    obtain ⟨nodup, members⟩ := readySocks_of_table kept subset
    have counted : (readySocks input (state.enter i sock2).clientSock
        (slotsUpTo (state.enter i sock2).max)).length + 1 = input.leseSock.card := by
      rw [← List.toFinset_card_of_nodup nodup, ← Finset.card_erase_add_one listening]
      congr 2
      ext fd
      rw [List.mem_toFinset, members, Finset.mem_erase]
      exact and_comm
    refine ⟨⟨state.enter i sock2, [.accept], input.ready - 1⟩, ?_, by dsimp only; omega, nodup,
      members, ?_⟩
    · rw [round, if_pos listening, entered]
      simp only [bind, Except.bind]
      split
      · -- only the listening socket is ready
        have nothing : readyClients input (state.enter i sock2).clientSock
            (slotsUpTo (state.enter i sock2).max) = [] :=
          List.eq_nil_of_length_eq_zero (by rw [length_readyClients]; omega)
        rw [scanClients_eq_serveAll (nodup_slotsUpTo _) _ (by dsimp only; omega), nothing]
        rfl
      · rfl
    · rw [Accepts, if_pos listening]
      obtain ⟨slot, empty, same⟩ := enter_of_acceptClient (accepted ▸ entered)
      exact ⟨rfl, slot, sock2, accepted, empty, same⟩
  · obtain ⟨nodup, members⟩ := readySocks_of_table table selects.subset
    have counted : (readySocks input state.clientSock (slotsUpTo state.max)).length =
        input.leseSock.card := by
      rw [← List.toFinset_card_of_nodup nodup]
      congr 1
      ext fd
      rw [List.mem_toFinset, members]
      exact ⟨And.left, fun present => ⟨present, fun same => listening (same ▸ present)⟩⟩
    refine ⟨⟨state, [], input.ready⟩, ?_, by dsimp only; omega, nodup, members, ?_⟩
    · rw [round, if_neg listening]
    · rw [Accepts, if_neg listening]
      exact ⟨rfl, rfl⟩

/-- The clients that a round serves. -/
def served (input : Round) (before : Progress) : List (Fin fdSetSize × ℕ) :=
  readyClients input before.state.clientSock (slotsUpTo before.state.max)

theorem Scans.serves {state : State} {input : Round} {before : Progress}
    (scans : Scans state input before) :
    round state input = serveAll input (served input before) before :=
  scans.scan.trans (scanClients_eq_serveAll (nodup_slotsUpTo _) before scans.counted)

theorem Scans.mem_served {state : State} {input : Round} {before : Progress}
    (scans : Scans state input before) {client : Fin fdSetSize × ℕ}
    (member : client ∈ served input before) :
    client.2 ∈ input.leseSock ∧ client.2 ≠ state.sock1 := by
  apply (scans.members client.2).mp
  rw [← map_snd_readyClients]
  exact List.mem_map_of_mem member

/-- A round from a table in agreement ends without an error; it receives once
from each ready client and accepts when the listening socket is ready. -/
theorem round_spec {state : State} {input : Round} (table : Table state)
    (selects : Selects state input) (fresh : AcceptsFresh state input)
    (receives : Receives input) :
    ∃ after, round state input = .ok after ∧ (recvs after.calls).Nodup ∧
      (∀ fd, fd ∈ recvs after.calls ↔ fd ∈ input.leseSock ∧ fd ≠ state.sock1) ∧
      after.calls.count .accept = if state.sock1 ∈ input.leseSock then 1 else 0 := by
  obtain ⟨before, scans⟩ := exists_scans table selects fresh
  have delivered : ∀ client ∈ served input before, ∃ data, input.received client.2 = some data := by
    intro client member
    obtain ⟨data, received, _⟩ := receives client.2 (scans.mem_served member).1
    exact ⟨data, received⟩
  obtain ⟨after, served_, heard, accepts⟩ := serveAll_spec delivered before
  have called := scans.accepts
  rw [Accepts] at called
  have quiet : recvs before.calls = [] ∧
      before.calls.count .accept = if state.sock1 ∈ input.leseSock then 1 else 0 := by
    split at called
    · rename_i listening
      rw [called.1, if_pos listening]
      exact ⟨rfl, rfl⟩
    · rename_i listening
      rw [called.1, if_neg listening]
      exact ⟨rfl, rfl⟩
  rw [quiet.1, List.nil_append, served, map_snd_readyClients] at heard
  exact ⟨after, scans.serves.trans served_, heard ▸ scans.nodup, heard ▸ scans.members,
    accepts.trans quiet.2⟩

/-- **Every ready client is served exactly once per round.** In a reachable state
with any result of `select`, the round receives once from each client that is
ready and from nothing else, accepts once exactly when the listening socket is
ready, and does not receive from the client it accepts. -/
theorem served_once {state : State} {input : Round}
    (reached : (multiServer.restrict AcceptsFresh).Reachable state)
    (selects : Selects state input) (fresh : AcceptsFresh state input)
    (receives : Receives input) :
    ∃ after, round state input = .ok after ∧
      (∀ fd, fd ∈ input.leseSock → (∃ i, state.clientSock i = fd) →
        after.calls.count (.recv fd) = 1) ∧
      (∀ fd, ¬ (fd ∈ input.leseSock ∧ ∃ i, state.clientSock i = fd) →
        after.calls.count (.recv fd) = 0) ∧
      (after.calls.count .accept = if state.sock1 ∈ input.leseSock then 1 else 0) ∧
      ∀ sock2, state.sock1 ∈ input.leseSock → input.accepted = some sock2 →
        after.calls.count (.recv sock2) = 0 := by
  have table := table_invariant.reachable reached
  obtain ⟨after, done, nodup, members, accepts⟩ := round_spec table selects fresh receives
  refine ⟨after, done, ?_, ?_, accepts, ?_⟩
  · rintro fd present ⟨i, there⟩
    rw [count_recv]
    apply List.count_eq_one_of_mem nodup
    exact (members fd).mpr ⟨present, fun same => table.listening i (same ▸ there)⟩
  · intro fd other
    rw [count_recv, List.count_eq_zero]
    intro heard
    obtain ⟨present, different⟩ := (members fd).mp heard
    obtain same | client := (table.members fd).mp (selects.subset present)
    · exact different same
    · exact other ⟨present, client⟩
  · intro sock2 listening accepted
    rw [count_recv, List.count_eq_zero]
    intro heard
    obtain ⟨other, taken, closed, _⟩ := fresh listening
    cases accepted.symm.trans taken
    exact closed (table.opened (selects.subset ((members sock2).mp heard).1))

/-- A second connection arrives together with the line `quit` of the first client. -/
def secondConnection : Round where
  leseSock := {3, 4}
  ready := 2
  accepted := some 5
  received _ := some quitLine

theorem served_secondConnection : ∃ i after,
    round (listening.enter i 4) secondConnection = .ok after ∧
      after.calls.count (.recv 4) = 1 ∧ after.calls.count (.recv 5) = 0 ∧
      after.calls.count .accept = 1 := by
  obtain ⟨i, reached⟩ := reachable_firstConnection
  have subset : ({3, 4} : Finset ℕ) ⊆ {4, 3} := by decide
  have closed : 5 ∉ (listening.enter i 4).opened := by
    simp only [State.enter, listening, start]
    decide
  have small : 5 < fdSetSize := by unfold fdSetSize; decide
  have receives : Receives secondConnection := fun _ _ => ⟨quitLine, rfl, by decide⟩
  have fresh : AcceptsFresh (listening.enter i 4) secondConnection :=
    fun _ => ⟨5, rfl, closed, small⟩
  have selects : Selects (listening.enter i 4) secondConnection :=
    ⟨subset, ⟨3, by decide⟩, rfl⟩
  obtain ⟨after, done, once, _, accepts, new⟩ := served_once reached selects fresh receives
  exact ⟨i, after, done, once 4 (by decide) ⟨i, Function.update_self ..⟩,
    new 5 (show 3 ∈ secondConnection.leseSock by decide) rfl, accepts⟩

end LinuxUnix.MultiServer

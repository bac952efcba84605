import LinuxUnix.Network.MultiServer
import Mathlib.Data.Finite.Defs
import Mathlib.Data.Fintype.EquivFin

/-! # The client table of the select server

The table of clients, the set given to `select`, the highest slot in use and the
highest descriptor are updated separately, but agree whenever the server returns
to `select` (`LinuxUnix.MultiServer.table_of_reachable`).
-/

namespace LinuxUnix.MultiServer

open CMemory TransitionSystem

/-- The agreement of the four pieces of state with each other and with the
descriptors the kernel has open. -/
structure Table (state : State) : Prop where
  members : ∀ fd, fd ∈ state.gesamtSock ↔ fd = state.sock1 ∨ ∃ i, state.clientSock i = fd
  distinct : ∀ i j, 0 ≤ state.clientSock i → state.clientSock i = state.clientSock j → i = j
  listening : ∀ i, state.clientSock i ≠ state.sock1
  unused : ∀ i : Fin fdSetSize, state.max < i → state.clientSock i = -1
  bounded : ∀ fd ∈ state.gesamtSock, fd ≤ state.sockMax
  opened : state.gesamtSock ⊆ state.opened
  small : ∀ i, state.clientSock i < fdSetSize

theorem table_start {sock1 : ℕ} {opened : Finset ℕ} {buffer : List Byte}
    (listening : sock1 ∈ opened) : Table (start sock1 opened buffer) where
  members fd := by
    simp only [start, Finset.mem_singleton]
    omega
  distinct i j valid _ := absurd valid (by simp only [start]; omega)
  listening i := by simp only [start]; omega
  unused _ _ := rfl
  bounded fd member := (Finset.mem_singleton.mp member).le
  opened := Finset.singleton_subset_iff.mpr listening
  small i := by simp only [start]; omega

/-- The buffer is not part of the table. -/
theorem Table.setBuffer {state : State} (table : Table state) (buffer : List Byte) :
    Table { state with buffer } :=
  ⟨table.members, table.distinct, table.listening, table.unused, table.bounded, table.opened,
    table.small⟩

/-- A slot whose descriptor is closed leaves the table in agreement. -/
theorem Table.remove {state : State} (table : Table state) {i : Fin fdSetSize} {fd : ℕ}
    (there : state.clientSock i = fd) : Table (state.remove i fd) where
  members other := by
    simp only [State.remove, Finset.mem_erase, table.members]
    constructor
    · rintro ⟨different, rfl | ⟨j, same⟩⟩
      · exact .inl rfl
      · refine .inr ⟨j, ?_⟩
        have apart : j ≠ i := by
          rintro rfl
          exact different (by exact_mod_cast same.symm.trans there)
        rw [Function.update_of_ne apart, same]
    · rintro (rfl | ⟨j, same⟩)
      · exact ⟨fun equal => table.listening i (there.trans (by rw [equal])), .inl rfl⟩
      · have apart : j ≠ i := by
          rintro rfl
          rw [Function.update_self] at same
          omega
        rw [Function.update_of_ne apart] at same
        refine ⟨fun equal => apart ?_, .inr ⟨j, same⟩⟩
        exact table.distinct j i (by omega) (same.trans (equal ▸ there.symm))
  distinct j k valid same := by
    simp only [State.remove, Function.update_apply] at valid same
    split at same <;> split at same
    · rename_i first second
      exact first.trans second.symm
    · rename_i first _
      rw [if_pos first] at valid
      omega
    · rename_i first _
      rw [if_neg first] at valid
      omega
    · rename_i first _
      rw [if_neg first] at valid
      exact table.distinct j k valid same
  listening j := by
    simp only [State.remove, Function.update_apply]
    split
    · omega
    · exact table.listening j
  unused j above := by
    simp only [State.remove, Function.update_apply]
    split
    · rfl
    · exact table.unused j above
  bounded other member := table.bounded other (Finset.mem_of_mem_erase member)
  opened := Finset.erase_subset_erase fd table.opened
  small j := by
    simp only [State.remove, Function.update_apply]
    split
    · omega
    · exact table.small j

/-- A descriptor that no open one equals enters a free slot in agreement. -/
theorem Table.enter {state : State} (table : Table state) {i : Fin fdSetSize} {sock2 : ℕ}
    (empty : state.clientSock i < 0) (closed : sock2 ∉ state.opened) (small : sock2 < fdSetSize) :
    Table (state.enter i sock2) := by
  have unregistered : sock2 ∉ state.gesamtSock := fun member => closed (table.opened member)
  have absent := (table.members sock2).not.mp unregistered
  rw [not_or, not_exists] at absent
  refine {
    members := fun fd => ?_
    distinct := fun j k valid same => ?_
    listening := fun j => ?_
    unused := fun j above => ?_
    bounded := fun fd member => ?_
    opened := Finset.insert_subset_insert sock2 table.opened
    small := fun j => ?_ }
  · simp only [State.enter, Finset.mem_insert, table.members]
    constructor
    · rintro (rfl | rfl | ⟨j, same⟩)
      · exact .inr ⟨i, Function.update_self ..⟩
      · exact .inl rfl
      · refine .inr ⟨j, ?_⟩
        have apart : j ≠ i := by
          rintro rfl
          omega
        rw [Function.update_of_ne apart, same]
    · rintro (rfl | ⟨j, same⟩)
      · exact .inr (.inl rfl)
      · by_cases here : j = i
        · subst here
          rw [Function.update_self] at same
          exact .inl (by exact_mod_cast same.symm)
        · rw [Function.update_of_ne here] at same
          exact .inr (.inr ⟨j, same⟩)
  · simp only [State.enter, Function.update_apply] at valid same
    split at same <;> split at same
    · rename_i first second
      exact first.trans second.symm
    · exact absurd same.symm (absent.2 k)
    · exact absurd same (absent.2 j)
    · rename_i first _
      rw [if_neg first] at valid
      exact table.distinct j k valid same
  · simp only [State.enter, Function.update_apply]
    split
    · exact fun same => absent.1 (by exact_mod_cast same)
    · exact table.listening j
  · simp only [State.enter] at above ⊢
    have beyond : state.max < j := by
      split at above <;> omega
    have apart : j ≠ i := by
      rintro rfl
      split at above <;> omega
    rw [Function.update_of_ne apart]
    exact table.unused j beyond
  · simp only [State.enter, Finset.mem_insert] at member ⊢
    rcases member with rfl | member
    · split <;> omega
    · have below := table.bounded fd member
      split <;> omega
  · simp only [State.enter, Function.update_apply]
    split
    · exact_mod_cast small
    · exact table.small j

/-- A client that finds a slot. -/
theorem acceptClient_eq_ok {accepted : Option ℕ} {before after : State}
    (entered : acceptClient accepted before = .ok after) :
    ∃ sock2 i, accepted = some sock2 ∧ freeSlot before.clientSock = some i ∧
      after = before.enter i sock2 := by
  unfold acceptClient at entered
  split at entered
  · cases entered
  · rename_i sock2
    split at entered
    · cases entered
    · rename_i i found
      cases entered
      exact ⟨sock2, i, rfl, found, rfl⟩

/-- An accepted descriptor enters the slot that the loop stops at, which is free. -/
theorem enter_of_acceptClient {before after : State} {sock2 : ℕ}
    (entered : acceptClient (some sock2) before = .ok after) :
    ∃ i, before.clientSock i < 0 ∧ after = before.enter i sock2 := by
  obtain ⟨_, i, same, found, rfl⟩ := acceptClient_eq_ok entered
  cases same
  unfold freeSlot at found
  have empty := List.find?_some found
  rw [decide_eq_true_eq] at empty
  exact ⟨i, empty, rfl⟩

/-- A client that is served leaves the tables if it has sent the line `quit`. -/
theorem serveClient_eq_ok {input : Round} {i : Fin fdSetSize} {sock3 : ℕ}
    {before after : Progress} (served : serveClient input i sock3 before = .ok after) :
    ∃ buffer, tcpRecv (input.received sock3) before.state.buffer = .ok buffer ∧
      (cstr buffer = quitLine ∧ after.state = { before.state with buffer }.remove i sock3 ∨
        cstr buffer ≠ quitLine ∧ after.state = { before.state with buffer }) := by
  unfold serveClient at served
  obtain ⟨buffer, received, served⟩ := exists_of_bind_eq_ok served
  refine ⟨buffer, received, ?_⟩
  dsimp only at served
  split at served
  · rename_i quit
    cases served
    exact .inl ⟨quit, rfl⟩
  · rename_i other
    cases served
    exact .inr ⟨other, rfl⟩

/-- What serving a slot's client preserves is preserved by the scan of the slots. -/
theorem scanClients_preserves {holds : State → Prop} {input : Round}
    (serves : ∀ {i : Fin fdSetSize} {sock3 : ℕ} {before after : Progress}, holds before.state →
      before.state.clientSock i = sock3 → serveClient input i sock3 before = .ok after →
        holds after.state)
    {slots : List (Fin fdSetSize)} {before after : Progress} (start : holds before.state)
    (scanned : scanClients input slots before = .ok after) : holds after.state := by
  induction slots generalizing before with
  | nil =>
      cases scanned
      exact start
  | cons i slots ih =>
      simp only [scanClients] at scanned
      split at scanned
      · exact ih start scanned
      · rename_i valid
        split at scanned
        · obtain ⟨middle, served, scanned⟩ := exists_of_bind_eq_ok scanned
          have kept : holds middle.state :=
            serves start (Int.toNat_of_nonneg (by omega)).symm served
          split at scanned
          · cases scanned
            exact kept
          · exact ih kept scanned
        · exact ih start scanned

/-- What entering a client and serving one preserve is preserved by a round. -/
theorem round_preserves {holds : State → Prop} {input : Round} {before : State} {after : Progress}
    (enters : ∀ {entered : State}, before.sock1 ∈ input.leseSock →
      acceptClient input.accepted before = .ok entered → holds entered)
    (serves : ∀ {i : Fin fdSetSize} {sock3 : ℕ} {before after : Progress}, holds before.state →
      before.state.clientSock i = sock3 → serveClient input i sock3 before = .ok after →
        holds after.state)
    (start : holds before) (done : round before input = .ok after) : holds after.state := by
  unfold MultiServer.round at done
  split at done
  · rename_i ready
    obtain ⟨middle, entered, done⟩ := exists_of_bind_eq_ok done
    have kept := enters ready entered
    dsimp only at done
    split at done
    · cases done
      exact kept
    · exact @scanClients_preserves holds input serves _ ⟨middle, _, _⟩ _ kept done
  · exact @scanClients_preserves holds input serves _ ⟨before, _, _⟩ _ start done

/-- A new descriptor that no open one equals enters the table in agreement. -/
theorem Table.accept {before after : State} (table : Table before) {accepted : Option ℕ}
    (entered : acceptClient accepted before = .ok after)
    (fresh : ∃ sock2, accepted = some sock2 ∧ sock2 ∉ before.opened ∧ sock2 < fdSetSize) :
    Table after := by
  obtain ⟨sock2, rfl, closed, small⟩ := fresh
  obtain ⟨i, empty, rfl⟩ := enter_of_acceptClient entered
  exact table.enter empty closed small

/-- A new descriptor that fits an `fd_set` finds a free slot: `FD_SETSIZE`
clients and this descriptor would be more than there are numbers. -/
theorem exists_freeSlot {state : State} (table : Table state) {sock2 : ℕ}
    (closed : sock2 ∉ state.opened) (small : sock2 < fdSetSize) :
    ∃ i, freeSlot state.clientSock = some i := by
  by_contra nothing
  have full : ∀ i, 0 ≤ state.clientSock i := by
    intro i
    by_contra negative
    have found : (freeSlot state.clientSock).isSome = true := by
      rw [freeSlot, List.find?_isSome]
      exact ⟨i, List.mem_finRange i, by rw [decide_eq_true_eq]; omega⟩
    exact nothing (Option.isSome_iff_exists.mp found)
  let slotFd : Fin fdSetSize → Fin fdSetSize := fun i =>
    ⟨(state.clientSock i).toNat, by have := table.small i; have := full i; omega⟩
  have injective : Function.Injective slotFd := by
    intro i j same
    have values : (state.clientSock i).toNat = (state.clientSock j).toNat :=
      congrArg Fin.val same
    have left := full i
    have right := full j
    exact table.distinct i j left (by omega)
  obtain ⟨i, there⟩ := Finite.injective_iff_surjective.mp injective ⟨sock2, small⟩
  have value : (state.clientSock i).toNat = sock2 := congrArg Fin.val there
  have valid := full i
  exact closed (table.opened ((table.members sock2).mpr (.inr ⟨i, by omega⟩)))

/-- Serving a slot's client leaves the table in agreement. -/
theorem Table.serve {input : Round} {i : Fin fdSetSize} {before after : Progress}
    (table : Table before.state) {sock3 : ℕ} (there : before.state.clientSock i = sock3)
    (served : serveClient input i sock3 before = .ok after) : Table after.state := by
  obtain ⟨buffer, _, ⟨_, same⟩ | ⟨_, same⟩⟩ := serveClient_eq_ok served
  · rw [same]
    exact (table.setBuffer buffer).remove there
  · rw [same]
    exact table.setBuffer buffer

/-- A round in which `accept` returns a fresh descriptor leaves the table in
agreement. -/
theorem Table.round {before : State} {input : Round} {after : Progress} (table : Table before)
    (fresh : AcceptsFresh before input) (done : round before input = .ok after) :
    Table after.state :=
  round_preserves (fun ready entered => table.accept entered (fresh ready))
    (fun table there served => table.serve there served) table done

/-- The agreement holds whenever the server calls `select`. -/
theorem table_invariant : (multiServer.restrict AcceptsFresh).Invariant Table where
  initial := by
    rintro state ⟨sock1, opened, buffer, listening, _, rfl⟩
    exact table_start listening
  step := by
    rintro before input after table ⟨fresh, _, calls, ready, done⟩
    exact table.round fresh done

/-- **The client table of the select server.** At every `select` call the set of
all sockets is the listening socket and the clients in the table, the clients
have distinct descriptors other than the listening one, the slots above `max` are
free, and no socket of the set is above `sock_max`. -/
theorem table_of_reachable {state : State}
    (reached : (multiServer.restrict AcceptsFresh).Reachable state) :
    (∀ fd, fd ∈ state.gesamtSock ↔ fd = state.sock1 ∨ ∃ i, state.clientSock i = fd) ∧
      (∀ i j, 0 ≤ state.clientSock i → state.clientSock i = state.clientSock j → i = j) ∧
      (∀ i, state.clientSock i ≠ state.sock1) ∧
      (∀ i : Fin fdSetSize, state.max < i → state.clientSock i = -1) ∧
      ∀ fd ∈ state.gesamtSock, fd ≤ state.sockMax := by
  have table := table_invariant.reachable reached
  exact ⟨table.members, table.distinct, table.listening, table.unused, table.bounded⟩

/-- The server with descriptor 3 for its socket, and its first connection. -/
def listening : State :=
  start 3 {0, 1, 2, 3} (List.replicate buf 0)

def firstConnection : Round where
  leseSock := {3}
  ready := 1
  accepted := some 4
  received _ := none

/-- The first connection enters the table and brings the server back to `select`. -/
theorem reachable_firstConnection :
    ∃ i, (multiServer.restrict AcceptsFresh).Reachable (listening.enter i 4) := by
  have open_ : 3 ∈ ({0, 1, 2, 3} : Finset ℕ) := by decide
  have closed : 4 ∉ listening.opened := by decide
  have small : 4 < fdSetSize := by unfold fdSetSize; decide
  have table : Table listening := table_start open_
  obtain ⟨i, found⟩ := exists_freeSlot table closed small
  have ready : listening.sock1 ∈ firstConnection.leseSock := by decide
  have entered : acceptClient firstConnection.accepted listening = .ok (listening.enter i 4) := by
    simp only [acceptClient, firstConnection, found]
  have done : round listening firstConnection =
      .ok { state := listening.enter i 4, calls := [.accept], ready := 0 } := by
    rw [round, if_pos ready, entered]
    rfl
  have fresh : AcceptsFresh listening firstConnection := fun _ => ⟨4, rfl, closed, small⟩
  have selects : Selects listening firstConnection := ⟨subset_rfl, ⟨3, by decide⟩, rfl⟩
  exact ⟨i, .step (.initial ⟨3, {0, 1, 2, 3}, _, open_, List.length_replicate, rfl⟩)
    ⟨fresh, selects, [.accept], 0, done⟩⟩

theorem table_of_firstConnection : ∃ i, 4 ∈ (listening.enter i 4).gesamtSock ∧
    (∀ j, (listening.enter i 4).clientSock j ≠ 3) ∧
    ∀ fd ∈ (listening.enter i 4).gesamtSock, fd ≤ (listening.enter i 4).sockMax := by
  obtain ⟨i, reached⟩ := reachable_firstConnection
  obtain ⟨members, _, distinct, _, bounded⟩ := table_of_reachable reached
  exact ⟨i, (members 4).mpr (.inr ⟨i, Function.update_self ..⟩), distinct, bounded⟩

end LinuxUnix.MultiServer

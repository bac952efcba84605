import LinuxUnix.Network.MultiServerRound

/-! # Clients that leave the select server without `quit`

`TCP_recv` takes the end of a stream for an empty message, so that the client stays in the
table and is read again in every round (`LinuxUnix.MultiServer.registered_of_left`). If
`recv` fails, the server exits, for all its clients
(`LinuxUnix.MultiServer.round_of_failed`). Only the line `quit` takes a client out.
-/

namespace LinuxUnix.MultiServer

open CMemory TransitionSystem

/-- `recv` on the descriptor reports the end of the stream or an error. -/
def Left (input : Round) (fd : ℕ) : Prop :=
  input.received fd = some [] ∨ input.received fd = none

/-- A client that has left is taken out of the tables, and no other client that has nothing
to read; and the server goes on. -/
structure Departs (state : State) (input : Round) (fd : ℕ) (after : Progress) : Prop where
  returned : round state input = .ok after
  closed : fd ∉ after.state.opened
  unregistered : fd ∉ after.state.gesamtSock
  absent : ∀ i, after.state.clientSock i ≠ fd
  others : ∀ i, 0 ≤ state.clientSock i → (state.clientSock i).toNat ∉ input.leseSock →
    after.state.clientSock i = state.clientSock i

/-- The client is in the tables, and its descriptor is open. -/
structure Registered (fd : ℕ) (state : State) : Prop where
  member : fd ∈ state.gesamtSock
  opened : fd ∈ state.opened
  slot : ∃ i, state.clientSock i = fd

variable {input : Round} {fd : ℕ}

/-- What has been received from a client that leaves is not the line `quit`. -/
theorem not_quit_of_left (left : Left input fd) {memory buffer : List Byte}
    (received : tcpRecv (input.received fd) memory = .ok buffer) : cstr buffer ≠ quitLine := by
  rcases left with ended | failed
  · rw [ended] at received
    cases received
    rw [cstr_overwrite]
    decide
  · rw [failed] at received
    cases received

theorem Registered.serve {i : Fin fdSetSize} {before after : Progress} {sock3 : ℕ}
    (registered : Registered fd before.state) (left : Left input fd)
    (there : before.state.clientSock i = sock3)
    (served : serveClient input i sock3 before = .ok after) : Registered fd after.state := by
  obtain ⟨buffer, received, ⟨quit, same⟩ | ⟨_, same⟩⟩ := serveClient_eq_ok served
  · have different : fd ≠ sock3 := by
      rintro rfl
      exact not_quit_of_left left received quit
    obtain ⟨slot, holds⟩ := registered.slot
    have apart : slot ≠ i := by
      rintro rfl
      exact different (by exact_mod_cast holds.symm.trans there)
    rw [same]
    exact ⟨Finset.mem_erase_of_ne_of_mem different registered.member,
      Finset.mem_erase_of_ne_of_mem different registered.opened, slot,
      (Function.update_of_ne apart _ _).trans holds⟩
  · rw [same]
    exact ⟨registered.member, registered.opened, registered.slot⟩

/-- A new client does not take the slot of another one. -/
theorem Registered.accept {before after : State} (registered : Registered fd before)
    {accepted : Option ℕ} (entered : acceptClient accepted before = .ok after) :
    Registered fd after := by
  cases accepted with
  | none => cases entered
  | some sock2 =>
      obtain ⟨i, empty, rfl⟩ := enter_of_acceptClient entered
      obtain ⟨slot, holds⟩ := registered.slot
      refine ⟨Finset.mem_insert_of_mem registered.member,
        Finset.mem_insert_of_mem registered.opened, slot, ?_⟩
      have apart : slot ≠ i := by
        rintro rfl
        omega
      exact (Function.update_of_ne apart _ _).trans holds

/-- A client that has left without `quit` stays registered. -/
theorem registered_of_left {state : State} {after : Progress} (registered : Registered fd state)
    (left : Left input fd) (done : round state input = .ok after) :
    Registered fd after.state :=
  round_preserves (fun _ entered => registered.accept entered)
    (fun registered there served => registered.serve left there served) registered done

/-- A failed `recv` ends the server, whoever has been served before. -/
theorem serveAll_of_failed (failed : input.received fd = none)
    {clients : List (Fin fdSetSize × ℕ)} : ∀ before : Progress, fd ∈ clients.map Prod.snd →
      serveAll input clients before = .error .recv := by
  induction clients with
  | nil => exact fun _ member => absurd member List.not_mem_nil
  | cons client clients ih =>
      intro before member
      rw [serveAll]
      cases received : input.received client.2 with
      | none =>
          rw [serveClient, received]
          rfl
      | some data =>
          obtain ⟨middle, returned, _⟩ := serveClient_spec (i := client.1) received before
          rw [returned]
          apply ih middle
          rw [List.map_cons] at member
          refine List.mem_of_ne_of_mem ?_ member
          rintro rfl
          cases failed.symm.trans received

/-- If `recv` fails for a ready client, the server exits. -/
theorem round_of_failed {state : State} (table : Table state) (selects : Selects state input)
    (fresh : AcceptsFresh state input) (ready : fd ∈ input.leseSock) (client : fd ≠ state.sock1)
    (failed : input.received fd = none) : round state input = .error .recv := by
  obtain ⟨before, scans⟩ := exists_scans table selects fresh
  rw [scans.serves]
  apply serveAll_of_failed failed before
  rw [served, map_snd_readyClients]
  exact (scans.members fd).mpr ⟨ready, client⟩

/-- **No client departs without `quit`.** In no reachable state and for no ready client whose
`recv` reports the end of the stream or an error does the round take the client out of the
tables and bring the server back to `select`. -/
theorem not_departs_of_left {state : State}
    (reached : (multiServer.restrict AcceptsFresh).Reachable state)
    (selects : Selects state input) (ready : fd ∈ input.leseSock)
    (client : ∃ i, state.clientSock i = fd) (left : Left input fd) (after : Progress) :
    ¬ Departs state input fd after := by
  intro departs
  have table := table_invariant.reachable reached
  have member := selects.subset ready
  exact departs.unregistered
    (registered_of_left ⟨member, table.opened member, client⟩ left departs.returned).member

/-- The first client closes its connection. -/
def firstClosed : Round where
  leseSock := {4}
  ready := 1
  accepted := none
  received _ := some []

theorem selects_firstClosed (i : Fin fdSetSize) : Selects (listening.enter i 4) firstClosed where
  subset := Finset.singleton_subset_iff.mpr (Finset.mem_insert_self _ _)
  nonempty := ⟨4, Finset.mem_singleton_self 4⟩
  ready := rfl

theorem not_departs_firstClosed :
    ∃ i, ∀ after, ¬ Departs (listening.enter i 4) firstClosed 4 after := by
  obtain ⟨i, reached⟩ := reachable_firstConnection
  exact ⟨i, not_departs_of_left reached (selects_firstClosed i) (Finset.mem_singleton_self 4)
    ⟨i, Function.update_self ..⟩ (.inl rfl)⟩

/-- The server keeps the client that has closed its connection. -/
theorem registered_firstClosed : ¬ ∀ (state : State) (input : Round) (fd : ℕ),
    (multiServer.restrict AcceptsFresh).Reachable state → Selects state input →
      AcceptsFresh state input → fd ∈ input.leseSock → (∃ i, state.clientSock i = fd) →
        Left input fd → ∃ after, Departs state input fd after := by
  intro departing
  obtain ⟨i, reached⟩ := reachable_firstConnection
  have selects := selects_firstClosed i
  have closed : (listening.enter i 4).sock1 ∉ firstClosed.leseSock := by
    change 3 ∉ ({4} : Finset ℕ)
    decide
  have slot : (listening.enter i 4).clientSock i = (4 : ℕ) := Function.update_self ..
  obtain ⟨after, departs⟩ := departing (listening.enter i 4) firstClosed 4 reached selects
    (fun ready => absurd ready closed) (Finset.mem_singleton_self 4) ⟨i, slot⟩ (.inl rfl)
  have member : 4 ∈ (listening.enter i 4).gesamtSock := Finset.mem_insert_self _ _
  have opened : 4 ∈ (listening.enter i 4).opened := Finset.mem_insert_self _ _
  exact departs.unregistered
    (registered_of_left ⟨member, opened, ⟨i, slot⟩⟩ (.inl rfl) departs.returned).member

end LinuxUnix.MultiServer

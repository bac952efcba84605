import LinuxUnix.Ipc.MailboxExchange

/-! # The mailbox after clients leave

Both operations of a `clientwrite` are made with `SEM_UNDO`, one on each
semaphore. When a client that has sent `n` texts ends, the kernel therefore adds
`n` to `SN_EMPTY` and takes as much as it can, but at most `n`, from `SN_FULL`.
The occupancy of the mailbox grows by what could not be taken
(`LinuxUnix.Mailbox.occupancy_leave`), and the processes exclude each other as
long as every client that ends has sent no more texts than are waiting
(`LinuxUnix.Mailbox.excludes_of_reachable`).
-/

namespace LinuxUnix.Mailbox

open TransitionSystem

variable {Client : Type} [Fintype Client] [DecidableEq Client]

/-- At most one process is inside, and with none inside the two semaphore values
add up to one. -/
def Excludes (state : State Client) : Prop :=
  processCount ClientAt.inside state.client + state.server.inside.toNat ≤ 1 ∧
    (processCount ClientAt.inside state.client + state.server.inside.toNat = 0 →
      state.sems.semval .empty + state.sems.semval .full = 1)

instance (state : State Client) : Decidable (Excludes state) :=
  inferInstanceAs (Decidable (_ ∧ _))

omit [DecidableEq Client] in
/-- A singly occupied mailbox excludes. -/
theorem excludes_of_single {state : State Client} (single : occupancy state = 1) :
    Excludes state := by
  unfold occupancy at single
  constructor
  · omega
  · intro empty
    omega

/-- The undo record of every client alive: one `SN_EMPTY` for each text it sent
and for the one it is sending, and minus one `SN_FULL` for each text it sent. -/
def Recorded (state : State Client) : Prop :=
  ∀ who, state.client who ≠ .ended →
    state.sems.semadj (.client who) .empty =
        state.sent who + ((state.client who).inside.toNat : ℤ) ∧
      state.sems.semadj (.client who) .full = -(state.sent who : ℤ)

omit [Fintype Client] [DecidableEq Client] in
/-- The undo record of a client at a place where it is alive. -/
theorem Recorded.at_ {state : State Client} (recorded : Recorded state) {who : Client}
    {place : ClientAt} (there : state.client who = place) (alive : place ≠ .ended) :
    state.sems.semadj (.client who) .empty = state.sent who + (place.inside.toNat : ℤ) ∧
      state.sems.semadj (.client who) .full = -(state.sent who : ℤ) := by
  subst there
  exact recorded who alive

omit [Fintype Client] in
/-- A move of one client keeps the records if its own record is kept and the
other clients' records and counters are untouched. -/
theorem recorded_update {before after : State Client} {who : Client} {place : ClientAt}
    (recorded : Recorded before) (client : after.client = Function.update before.client who place)
    (others : ∀ other, other ≠ who →
      after.sems.semadj (.client other) = before.sems.semadj (.client other) ∧
        after.sent other = before.sent other)
    (own : place ≠ .ended →
      after.sems.semadj (.client who) .empty = after.sent who + (place.inside.toNat : ℤ) ∧
        after.sems.semadj (.client who) .full = -(after.sent who : ℤ)) : Recorded after := by
  intro other alive
  rw [client] at alive ⊢
  by_cases same : other = who
  · subst same
    rw [Function.update_self] at alive ⊢
    exact own alive
  · rw [Function.update_of_ne same] at alive ⊢
    rw [(others other same).1, (others other same).2]
    exact recorded other alive

omit [Fintype Client] in
/-- Every step keeps the records. -/
theorem recorded_of_moves {before after : State Client} {action : Action Client}
    (recorded : Recorded before) (moved : Moves before action after) : Recorded after := by
  cases moved with
  | serverLocks at_ performed =>
      intro who alive
      have other := SemaphoreSet.semadj_semop_other performed (.client who) (by simp)
      exact other ▸ recorded who alive
  | serverCopies _ _ _ => exact recorded
  | serverPrints _ _ => exact recorded
  | serverUnlocks at_ performed =>
      intro who alive
      have other := SemaphoreSet.semadj_semop_other performed (.client who) (by simp)
      exact other ▸ recorded who alive
  | @clientLocks who sems at_ performed =>
      have mine := SemaphoreSet.semadj_semop performed
      have full := SemaphoreSet.semadj_semop_of_ne performed .full (by simp)
      have old := recorded.at_ at_ (by simp)
      refine recorded_update recorded rfl (fun other different => ⟨?_, rfl⟩) fun _ => ?_
      · exact SemaphoreSet.semadj_semop_other performed (.client other)
          fun same => different (Process.client.inj same)
      · simp only [ClientAt.inside, Bool.toNat_false, Bool.toNat_true] at old ⊢
        omega
  | @clientReads who text at_ _ =>
      have old := recorded.at_ at_ (by simp)
      exact recorded_update recorded rfl (fun _ _ => ⟨rfl, rfl⟩) fun _ => old
  | @clientEof who at_ =>
      have old := recorded.at_ at_ (by simp)
      exact recorded_update recorded rfl (fun _ _ => ⟨rfl, rfl⟩) fun _ => old
  | @clientStores who text count byte at_ _ =>
      have old := recorded.at_ at_ (by simp)
      exact recorded_update recorded rfl (fun _ _ => ⟨rfl, rfl⟩) fun _ => old
  | @clientReturns who text count at_ _ =>
      have old := recorded.at_ at_ (by simp)
      exact recorded_update recorded rfl (fun _ _ => ⟨rfl, rfl⟩) fun _ => old
  | @clientUnlocks who text sems at_ performed =>
      have mine := SemaphoreSet.semadj_semop performed
      have empty := SemaphoreSet.semadj_semop_of_ne performed .empty (by simp)
      have old := recorded.at_ at_ (by simp)
      refine recorded_update recorded rfl (fun other different => ⟨?_, ?_⟩) fun _ => ?_
      · exact SemaphoreSet.semadj_semop_other performed (.client other)
          fun same => different (Process.client.inj same)
      · exact Function.update_of_ne different _ _
      · simp only [ClientAt.inside, Bool.toNat_false, Bool.toNat_true] at old ⊢
        rw [Function.update_self]
        omega
  | @clientWrites who choice at_ _ =>
      have old := recorded.at_ at_ (by simp)
      exact recorded_update recorded rfl (fun _ _ => ⟨rfl, rfl⟩) fun _ => old
  | clientStays _ => exact recorded
  | leaves ending alive =>
      refine recorded_update recorded rfl (fun other different => ⟨?_, rfl⟩)
        fun ended => absurd rfl ended
      exact SemaphoreSet.semadj_undo_other (Process.client other)
        fun same => different (Process.client.inj same)

/-- **The cost of a departure.** The end of a client raises the occupancy by the
number of texts it sent that are not waiting any more. -/
theorem occupancy_leave {state : State Client} (recorded : Recorded state) {who : Client}
    (alive : state.client who ≠ .ended) :
    occupancy (state.leave who) =
      occupancy state + (state.sent who - state.sems.semval .full) := by
  obtain ⟨emptyAdj, fullAdj⟩ := recorded who alive
  have empty := SemaphoreSet.semval_undo state.sems (.client who) .empty
  have full := SemaphoreSet.semval_undo state.sems (.client who) .full
  have left := processCount_update ClientAt.inside state.client who .ended
  have outside : ClientAt.inside .ended = false := rfl
  rw [outside, Bool.toNat_false] at left
  simp only [occupancy, State.leave]
  omega

/-- A client ends only when it has sent no more texts than are waiting: none, or
a single one while a text waits. -/
def LeavesEven (state : State Client) (action : Action Client) : Prop :=
  ∀ who, action.ends = some who → state.sent who ≤ state.sems.semval .full

instance (state : State Client) (action : Action Client) : Decidable (LeavesEven state action) :=
  inferInstanceAs (Decidable (∀ _, _ → _))

/-- The occupancy and the records are kept in every run with such departures. -/
theorem departure_invariant : (mailbox.restrict LeavesEven).Invariant
    fun state : State Client => occupancy state = 1 ∧ Recorded state where
  initial := by
    rintro state rfl
    exact ⟨exchanging_start.single, fun _ _ => ⟨rfl, rfl⟩⟩
  step := by
    rintro before action after ⟨single, recorded⟩ ⟨even, moved⟩
    have moves := moves_of_next moved
    refine ⟨?_, recorded_of_moves recorded moves⟩
    cases ending : action.ends with
    | none => exact (occupancy_of_moves moves ending).trans single
    | some who =>
        have enough := even who ending
        cases moves with
        | leaves same alive =>
            cases same.symm.trans ending
            rw [occupancy_leave recorded alive]
            omega
        | clientStays staying | clientWrites _ staying =>
            simp only [Action.ends, staying, ↓reduceIte] at ending
            cases ending
        | _ => cases ending

/-- Client 0 sends a line and leaves while it waits, client 1 is killed in its
input, and client 2 enters. -/
def evenDepartures : List (Action (Fin 3)) :=
  [.choose 0 '1'.toUInt8, .client 0, .line 0 (some [10]), .client 0, .client 0, .client 0,
    .client 0, .choose 0 '2'.toUInt8, .choose 1 '1'.toUInt8, .client 1, .kill 1,
    .choose 2 '1'.toUInt8, .client 2]

/-- Client 0 sends a line that the server prints, and chooses the end of the
menu; then clients 1 and 2 enter. -/
def departure : List (Action (Fin 3)) :=
  [.choose 0 '1'.toUInt8, .client 0, .line 0 (some [10]), .client 0, .client 0, .client 0,
    .client 0, .server, .server, .server, .server, .choose 0 '2'.toUInt8, .choose 1 '1'.toUInt8,
    .client 1, .choose 2 '1'.toUInt8, .client 2]

end LinuxUnix.Mailbox

import LinuxUnix.Foundation.ProcessCount
import LinuxUnix.Ipc.Mailbox

/-! # The mailbox as a one-place buffer

While no client ends, the two semaphore values and the processes inside the
buffer always add up to one (`LinuxUnix.Mailbox.occupancy`). The process inside
is then alone with the buffer, so that the texts printed are the texts deposited,
in order, up to the one that still waits
(`LinuxUnix.Mailbox.exchange_of_reachable`).
-/

namespace LinuxUnix.Mailbox

open CMemory TransitionSystem

variable {Client : Type} [Fintype Client] [DecidableEq Client]

/-- The semaphore values and the processes between their two operations. -/
def occupancy (state : State Client) : ℕ :=
  state.sems.semval .empty + state.sems.semval .full +
    processCount ClientAt.inside state.client + state.server.inside.toNat

/-- Every step but the end of a client keeps the occupancy. -/
theorem occupancy_of_moves {before after : State Client} {action : Action Client}
    (moved : Moves before action after) (staying : action.ends = none) :
    occupancy after = occupancy before := by
  cases moved with
  | serverLocks at_ performed =>
      have value := SemaphoreSet.semval_semop performed
      have other := SemaphoreSet.semval_semop_of_ne performed .empty nofun
      simp only [occupancy, at_, ServerAt.inside, Bool.toNat_true, Bool.toNat_false]
      omega
  | serverCopies at_ read nonzero => simp only [occupancy, at_, ServerAt.inside]
  | serverPrints at_ read => simp only [occupancy, at_, ServerAt.inside]
  | serverUnlocks at_ performed =>
      have value := SemaphoreSet.semval_semop performed
      have other := SemaphoreSet.semval_semop_of_ne performed .full nofun
      simp only [occupancy, at_, ServerAt.inside, Bool.toNat_true, Bool.toNat_false]
      omega
  | @clientLocks who sems at_ performed =>
      have value := SemaphoreSet.semval_semop performed
      have other := SemaphoreSet.semval_semop_of_ne performed .full nofun
      have entered := processCount_update ClientAt.inside before.client who .fgets
      simp only [at_, ClientAt.inside, Bool.toNat_true, Bool.toNat_false] at entered
      simp only [occupancy]
      omega
  | clientReads at_ _ =>
      simp only [occupancy]
      rw [processCount_update_same (by simp only [at_, ClientAt.inside])]
  | clientEof at_ =>
      simp only [occupancy]
      rw [processCount_update_same (by simp only [at_, ClientAt.inside])]
  | clientStores at_ _ =>
      simp only [occupancy]
      rw [processCount_update_same (by simp only [at_, ClientAt.inside])]
  | clientReturns at_ _ =>
      simp only [occupancy]
      rw [processCount_update_same (by simp only [at_, ClientAt.inside])]
  | @clientUnlocks who text sems at_ performed =>
      have value := SemaphoreSet.semval_semop performed
      have other := SemaphoreSet.semval_semop_of_ne performed .empty nofun
      have left := processCount_update ClientAt.inside before.client who .menu
      simp only [at_, ClientAt.inside, Bool.toNat_true, Bool.toNat_false] at left
      simp only [occupancy]
      omega
  | clientWrites at_ _ =>
      simp only [occupancy]
      rw [processCount_update_same (by simp only [at_, ClientAt.inside])]
  | clientStays _ => rfl
  | leaves ending _ => exact absurd (staying ▸ ending) nofun

omit [DecidableEq Client] in
/-- A client inside a singly occupied mailbox is alone: both semaphores are
taken, the server is outside, and every client inside is that client. -/
theorem alone_of_inside {state : State Client} (single : occupancy state = 1) {who : Client}
    (inside : (state.client who).inside = true) :
    state.sems.semval .full = 0 ∧ state.server.inside = false ∧
      ∀ other, (state.client other).inside = true → other = who := by
  have present := processCount_pos inside
  unfold occupancy at single
  refine ⟨by omega, ?_, ?_⟩
  · cases occupied : state.server.inside with
    | false => rfl
    | true =>
        rw [occupied, Bool.toNat_true] at single
        omega
  · intro other member
    exact processCount_le_one_iff.mp (by omega) other who member inside

/-- The texts deposited and not yet printed: the buffer, from the client's
`unlocksem(SN_FULL)` until the server has printed it. -/
def State.waiting (state : State Client) : List (List Byte) :=
  if 0 < state.sems.semval .full ∨ state.server.printing = true then [cstr state.buffer] else []

omit [DecidableEq Client] in
/-- While a client is inside, nothing waits. -/
theorem waiting_of_inside {state : State Client} (single : occupancy state = 1) {who : Client}
    (inside : (state.client who).inside = true) : state.waiting = [] := by
  obtain ⟨full, server, _⟩ := alone_of_inside single inside
  have quiet : state.server.printing = false := by
    cases at_ : state.server with
    | lock => rfl
    | print copied => rw [at_] at server; cases server
    | unlock => rfl
  simp only [State.waiting, full, quiet, Nat.lt_irrefl, Bool.false_eq_true, or_self, ↓reduceIte]

/-- What the buffer holds of a client's line, at the client's place. -/
def ClientAt.Holds (buffer : List Byte) : ClientAt → Prop
  | .store text count => text.length < bufferSize ∧ count ≤ text.length + 1 ∧
      buffer.take count = (text ++ [0]).take count
  | .unlock (some text) => cstr buffer = cstr text
  | .menu | .lock | .fgets | .unlock none | .ended => True

omit [Fintype Client] in
/-- After a client's move the buffer holds what it should, if it does for the
others and at the new place. -/
theorem holds_update {buffer : List Byte} {place : Client → ClientAt} {who : Client}
    {next : ClientAt} (others : ∀ other, other ≠ who → (place other).Holds buffer)
    (moved : next.Holds buffer) :
    ∀ other, (Function.update place who next other).Holds buffer :=
  (Function.forall_update_iff place fun _ next => next.Holds buffer).mpr ⟨moved, others⟩

/-- A client outside makes no demand on the buffer. -/
theorem ClientAt.holds_of_outside {buffer : List Byte} {place : ClientAt}
    (outside : place.inside = false) : place.Holds buffer := by
  cases place with
  | menu | lock | ended => trivial
  | fgets | store _ _ | unlock _ => cases outside

/-- What every interleaving keeps while no client ends. -/
structure Exchanging (state : State Client) : Prop where
  single : occupancy state = 1
  size : state.buffer.length = bufferSize
  delivered : state.deposited = state.printed ++ state.waiting
  copying : ∀ copied, state.server = .print copied → copied <+: cstr state.buffer
  clients : ∀ who, (state.client who).Holds state.buffer

omit [DecidableEq Client] in
/-- The server starts with an empty mailbox. -/
theorem exchanging_start : Exchanging (State.start : State Client) where
  single := by
    have outside : processCount ClientAt.inside (fun _ : Client => ClientAt.menu) = 0 :=
      processCount_const rfl
    simp only [occupancy, State.start, outside, ServerAt.inside, Bool.toNat_false]
  size := List.length_replicate
  delivered := rfl
  copying := nofun
  clients := fun _ => trivial

/-- After a client's move the buffer still holds what the clients rely on. -/
theorem Exchanging.held {state : State Client} (exchanging : Exchanging state) {who : Client}
    {next : ClientAt} (moved : next.Holds state.buffer) :
    ∀ other, (Function.update state.client who next other).Holds state.buffer :=
  holds_update (fun other _ => exchanging.clients other) moved

/-- The client that stores a byte is alone inside, so that no other process relies on
the buffer. -/
theorem Exchanging.store {before : State Client} (exchanging : Exchanging before) {who : Client}
    {line : List Byte} {count : ℕ} {byte : Byte} (at_ : before.client who = .store line count)
    (next : (line ++ [0])[count]? = some byte) (single : occupancy { before with
      buffer := before.buffer.set count byte
      client := Function.update before.client who (.store line (count + 1)) } = 1) :
    Exchanging { before with
      buffer := before.buffer.set count byte
      client := Function.update before.client who (.store line (count + 1)) } := by
  have inside : (before.client who).inside = true := by rw [at_]; rfl
  have still : (Function.update before.client who (.store line (count + 1)) who).inside =
      true := by rw [Function.update_self]; rfl
  obtain ⟨_, outside, others⟩ := alone_of_inside exchanging.single inside
  have held := exchanging.clients who
  rw [at_] at held
  obtain ⟨short, _, same⟩ := held
  have bound : count < line.length + 1 := by
    simpa using (List.getElem?_eq_some_iff.mp next).1
  exact {
    single
    size := by simpa using exchanging.size
    delivered := by
      rw [waiting_of_inside single still]
      exact waiting_of_inside exchanging.single inside ▸ exchanging.delivered
    copying := fun copied printing => by
      rw [show before.server = .print copied from printing] at outside
      cases outside
    clients := holds_update
      (fun other mine => ClientAt.holds_of_outside
        (Bool.not_eq_true _ ▸ fun member => mine (others other member)))
      ⟨short, bound, take_set_succ (by rw [exchanging.size]; omega) next same⟩ }

/-- Every step with which no client ends keeps the exchange going. -/
theorem Exchanging.step {before after : State Client} {action : Action Client}
    (exchanging : Exchanging before) (moved : Moves before action after)
    (staying : action.ends = none) : Exchanging after := by
  have single : occupancy after = 1 :=
    (occupancy_of_moves moved staying).trans exchanging.single
  cases moved with
  | serverLocks at_ performed =>
      have locked := SemaphoreSet.semval_semop performed
      have waits : before.waiting = [cstr before.buffer] := if_pos (.inl (by omega))
      exact {
        single
        size := exchanging.size
        delivered := by
          rw [exchanging.delivered, waits]
          simp only [State.waiting, ServerAt.printing, or_true, ↓reduceIte]
        copying := fun copied same => by
          cases same
          exact List.nil_prefix
        clients := exchanging.clients }
  | @serverCopies copied byte at_ read nonzero =>
      exact {
        single
        size := exchanging.size
        delivered := by
          rw [exchanging.delivered]
          simp only [State.waiting, at_, ServerAt.printing]
        copying := fun more same => by
          cases same
          exact concat_prefix_cstr (exchanging.copying copied at_) read nonzero
        clients := exchanging.clients }
  | @serverPrints copied at_ read =>
      have full : before.sems.semval .full = 0 := by
        have occupied := exchanging.single
        simp only [occupancy, at_, ServerAt.inside, Bool.toNat_true] at occupied
        omega
      exact {
        single
        size := exchanging.size
        delivered := by
          rw [exchanging.delivered, eq_cstr_of_prefix (exchanging.copying copied at_) read]
          simp only [State.waiting, at_, full, ServerAt.printing, or_true, ↓reduceIte,
            Nat.lt_irrefl, Bool.false_eq_true, or_self, List.append_nil]
        copying := nofun
        clients := exchanging.clients }
  | serverUnlocks at_ performed =>
      have other := SemaphoreSet.semval_semop_of_ne performed .full nofun
      exact {
        single
        size := exchanging.size
        delivered := by
          rw [exchanging.delivered]
          simp only [State.waiting, at_, other, ServerAt.printing]
        copying := nofun
        clients := exchanging.clients }
  | clientLocks at_ performed =>
      have other := SemaphoreSet.semval_semop_of_ne performed .full nofun
      exact {
        single
        size := exchanging.size
        delivered := by
          rw [exchanging.delivered]
          simp only [State.waiting, other]
        copying := exchanging.copying
        clients := exchanging.held trivial }
  | clientReads at_ piece =>
      simp only [isPiece, Bool.and_eq_true, decide_eq_true_eq] at piece
      exact { exchanging with
        single
        clients := exchanging.held ⟨piece.1.2, Nat.zero_le _, rfl⟩ }
  | clientEof at_ =>
      exact { exchanging with single, clients := exchanging.held trivial }
  | clientStores at_ next => exact exchanging.store at_ next single
  | @clientReturns who line count at_ complete =>
      have held := exchanging.clients who
      rw [at_] at held
      have all : line.length + 1 ≤ count := by simpa using complete
      exact { exchanging with
        single
        clients := exchanging.held (cstr_of_take_eq all held.2.2) }
  | @clientUnlocks who line sems at_ performed =>
      have value := SemaphoreSet.semval_semop performed
      have inside : (before.client who).inside = true := by rw [at_]; rfl
      have quiet := waiting_of_inside exchanging.single inside
      have full : 0 < sems.semval .full := by omega
      exact {
        single
        size := exchanging.size
        delivered := by
          rw [exchanging.delivered, quiet]
          simp only [State.waiting, full, true_or, ↓reduceIte, List.append_nil]
        copying := exchanging.copying
        clients := exchanging.held trivial }
  | clientWrites at_ _ =>
      exact { exchanging with single, clients := exchanging.held trivial }
  | clientStays _ => exact exchanging
  | leaves ending _ => exact absurd (staying ▸ ending) nofun

/-- The runs in which no client ends. -/
def Staying (_ : State Client) (action : Action Client) : Prop :=
  action.ends = none

instance (state : State Client) (action : Action Client) : Decidable (Staying state action) :=
  inferInstanceAs (Decidable (_ = _))

/-- The exchange goes on in every run in which no client ends. -/
theorem exchanging_invariant :
    (mailbox.restrict Staying).Invariant (Exchanging : State Client → Prop) where
  initial := fun _ started => started ▸ exchanging_start
  step := fun _ _ _ exchanging moved => exchanging.step (moves_of_next moved.2) moved.1

/-- Client 0 sends a line, the server takes it, and client 1 enters the buffer. -/
def firstLine : List (Action (Fin 2)) :=
  [.choose 0 '1'.toUInt8, .client 0, .line 0 (some ['h'.toUInt8, 10]), .client 0, .client 0,
    .client 0, .client 0, .client 0, .server, .server, .choose 1 '1'.toUInt8, .server, .server,
    .server, .client 1]

end LinuxUnix.Mailbox

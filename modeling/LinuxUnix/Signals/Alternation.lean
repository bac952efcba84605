import LinuxUnix.Signals.SignalSync

/-! # Parent and child take turns

At any time one of the processes has the turn: it is about to print or to send, or its signal
has been sent and wakes it up. The other one waits (`LinuxUnix.SignalSync.Phase`). What the
handler leaves in `mask_alt` does no harm, since `eltern_warten` and `kind_wartet` only block
it once more, and what was blocked before comes back when `sigsuspend` returns
(`LinuxUnix.SignalSync.Sound`).
-/

namespace LinuxUnix.SignalSync

open TransitionSystem

/-- `sigsuspend` lets every signal in, and the two are blocked before and after it. -/
structure Sound (process : Process) : Prop where
  null : process.maskNull = ∅
  blocked : process.place ≠ .suspended → sigusr1 ∈ process.mask ∧ sigusr2 ∈ process.mask
  former : process.place = .suspended → sigusr1 ∈ process.former ∧ sigusr2 ∈ process.former
  counted : process.sent = process.handled + process.pending.card

/-- A process that waits, without a signal. -/
structure Idle (process : Process) : Prop where
  flag : process.flag = false
  pending : process.pending = ∅
  place : process.place = .test ∨
    process.place = .suspended ∧ process.handlers = [] ∧ process.mask = ∅

/-- A process that waits, and whose signal has been sent. -/
inductive Woken (signal : ℕ) (process : Process) : Prop
  /-- the signal is pending -/
  | pending (flag : process.flag = false) (pending : process.pending = {signal})
      (place : process.place = .test ∨
        process.place = .suspended ∧ process.handlers = [] ∧ process.mask = ∅)
  /-- the handler runs -/
  | handling (flag : process.flag = false) (pending : process.pending = ∅)
      (place : process.place = .suspended) (stage : Stage)
      (handlers : process.handlers = [⟨stage, ∅⟩])
  /-- the handler has set the flag -/
  | flagged (flag : process.flag = true) (pending : process.pending = ∅)
      (place : process.place = .test ∨ process.place = .reset)
  /-- the flag has been cleared -/
  | restoring (flag : process.flag = false) (pending : process.pending = ∅)
      (place : process.place = .restore)

/-- A process at a place where it has no signal. -/
structure Stands (place : Place) (round : ℕ) (process : Process) : Prop where
  place : process.place = place
  round : process.round = round
  flag : process.flag = false
  pending : process.pending = ∅

variable {process after : Process} {signal : ℕ}

theorem Stands.outside {place : Place} {round : ℕ} (stands : Stands place round process)
    (other : place ≠ .suspended) : process.place ≠ .suspended :=
  stands.place ▸ other

theorem mem_signals (mask : Mask) :
    sigusr1 ∈ mask ∪ {sigusr1, sigusr2} ∧ sigusr2 ∈ mask ∪ {sigusr1, sigusr2} := by
  constructor
  · exact Finset.mem_union_right _ (Finset.mem_insert_self _ _)
  · exact Finset.mem_union_right _ (Finset.mem_insert_of_mem (Finset.mem_singleton_self _))

/-- Where a waiting process can be, and what it does there. -/
theorem warten_cases (moved : warten process = some after) :
    (process.place = .test ∧ process.flag = true ∧ after = { process with place := .reset }) ∨
    (process.place = .test ∧ process.flag = false ∧ after = sigsuspend process) ∨
    (process.place = .suspended ∧ ∃ saved handlers,
      process.handlers = ⟨.syncing, saved⟩ :: handlers ∧
        after = { startSync process with handlers := ⟨.setting, saved⟩ :: handlers }) ∨
    (process.place = .suspended ∧ ∃ saved handlers,
      process.handlers = ⟨.setting, saved⟩ :: handlers ∧
        after = handlerReturns { process with flag := true } saved handlers) ∨
    (process.place = .reset ∧ after = { process with flag := false, place := .restore }) := by
  rw [warten] at moved
  cases place : process.place with
  | test =>
      simp only [place] at moved
      cases flag : process.flag with
      | true =>
          rw [flag, if_pos rfl] at moved
          exact .inl ⟨rfl, rfl, (Option.some.inj moved).symm⟩
      | false =>
          rw [flag, if_neg Bool.false_ne_true] at moved
          exact .inr (.inl ⟨rfl, rfl, (Option.some.inj moved).symm⟩)
  | suspended =>
      simp only [place] at moved
      cases handlers : process.handlers with
      | nil =>
          rw [handlers] at moved
          cases moved
      | cons handler handlers =>
          obtain ⟨stage, saved⟩ := handler
          rw [handlers] at moved
          cases stage with
          | syncing =>
              exact .inr (.inr (.inl ⟨rfl, saved, _, rfl, (Option.some.inj moved).symm⟩))
          | setting =>
              exact .inr (.inr (.inr (.inl ⟨rfl, saved, _, rfl, (Option.some.inj moved).symm⟩)))
  | reset =>
      simp only [place] at moved
      exact .inr (.inr (.inr (.inr ⟨rfl, (Option.some.inj moved).symm⟩)))
  | output | send | restore | ended =>
      simp only [place] at moved
      cases moved

/-- Waiting keeps the masks. -/
theorem Sound.warten (sound : Sound process) (moved : warten process = some after) :
    Sound after := by
  rcases warten_cases moved with ⟨test, _, rfl⟩ | ⟨test, _, rfl⟩ |
    ⟨suspended, saved, handlers, _, rfl⟩ | ⟨suspended, saved, handlers, _, rfl⟩ | ⟨reset, rfl⟩
  · refine ⟨sound.null, fun _ => sound.blocked (by rw [test]; decide), fun there => ?_,
      sound.counted⟩
    cases there
  · refine ⟨sound.null, fun outside => absurd rfl outside, fun _ => ?_, sound.counted⟩
    exact sound.blocked (by rw [test]; decide)
  · exact ⟨rfl, fun outside => absurd suspended outside, sound.former, sound.counted⟩
  · cases handlers with
    | nil =>
        refine ⟨sound.null, fun _ => sound.former suspended, fun there => ?_, sound.counted⟩
        cases there
    | cons handler handlers =>
        exact ⟨sound.null, fun outside => absurd suspended outside, sound.former, sound.counted⟩
  · refine ⟨sound.null, fun _ => sound.blocked (by rw [reset]; decide), fun there => ?_,
      sound.counted⟩
    cases there

/-- What the kernel does when it delivers a signal. -/
theorem deliver_cases (moved : deliver process signal = some after) :
    (process.place = .suspended ∧ signal ∈ process.pending ∧ signal ∉ process.mask) ∧
      after = { process with
        pending := process.pending.erase signal
        handled := process.handled + 1
        handlers := ⟨.syncing, process.mask⟩ :: process.handlers
        mask := insert signal process.mask } := by
  rw [deliver, Option.ite_none_right_eq_some] at moved
  exact ⟨moved.1, (Option.some.inj moved.2).symm⟩

/-- A signal that is delivered is handled. -/
theorem Sound.deliver (sound : Sound process) (moved : deliver process signal = some after) :
    Sound after := by
  obtain ⟨⟨suspended, pending, _⟩, rfl⟩ := deliver_cases moved
  refine ⟨sound.null, fun outside => absurd suspended outside, sound.former, ?_⟩
  have positive := Finset.card_pos.mpr ⟨signal, pending⟩
  have counted := sound.counted
  change process.sent = process.handled + 1 + (process.pending.erase signal).card
  rw [Finset.card_erase_of_mem pending]
  omega

/-- A process that waits has not ended. -/
theorem Idle.place_ne (idle : Idle process) {place : Place} (different : place ≠ .test)
    (outside : place ≠ .suspended) : process.place ≠ place := by
  rcases idle.place with test | ⟨suspended, _⟩
  · rw [test]
    exact different.symm
  · rw [suspended]
    exact outside.symm

/-- A signal for a process that waits. -/
theorem Idle.kill (idle : Idle process) (signal : ℕ) : kill process signal =
    { process with sent := process.sent + 1, pending := {signal} } := by
  rw [SignalSync.kill, if_neg (idle.place_ne (by decide) (by decide)), idle.pending]
  rfl

theorem Idle.woken (idle : Idle process) (signal : ℕ) :
    Woken signal (SignalSync.kill process signal) := by
  rw [idle.kill]
  exact .pending idle.flag rfl idle.place

/-- No signal is merged with another one. -/
theorem Sound.kill (sound : Sound process) (idle : Idle process) (signal : ℕ) :
    Sound (kill process signal) := by
  rw [idle.kill]
  refine ⟨sound.null, sound.blocked, sound.former, ?_⟩
  change process.sent + 1 = process.handled + Finset.card {signal}
  rw [sound.counted, idle.pending, Finset.card_empty, Finset.card_singleton, Nat.add_zero]

/-- No handler runs while a waiting process has no signal, or its signal is pending. -/
theorem no_handlers (place : process.place = .test ∨
      process.place = .suspended ∧ process.handlers = [] ∧ process.mask = ∅)
    (suspended : process.place = .suspended) : process.handlers = [] := by
  rcases place with test | ⟨_, none_, _⟩
  · cases test.symm.trans suspended
  · exact none_

/-- One handler runs at most, and then its signal is not pending any more. -/
theorem Woken.running (woken : Woken signal process) (suspended : process.place = .suspended)
    {handler : Handler} {handlers : List Handler} (calls : process.handlers = handler :: handlers) :
    process.flag = false ∧ process.pending = ∅ ∧ handler.saved = ∅ ∧ handlers = [] := by
  cases woken with
  | pending flag pending place => cases (no_handlers place suspended).symm.trans calls
  | handling flag pending place stage only =>
      cases only.symm.trans calls
      exact ⟨flag, pending, rfl, rfl⟩
  | flagged flag pending place =>
      rcases place with test | reset
      · cases test.symm.trans suspended
      · cases reset.symm.trans suspended
  | restoring flag pending place => cases place.symm.trans suspended

theorem Idle.warten (idle : Idle process) (sound : Sound process)
    (moved : warten process = some after) : Idle after ∧ after.round = process.round := by
  rcases warten_cases moved with ⟨_, set_, _⟩ | ⟨_, _, rfl⟩ | ⟨suspended, _, _, handlers, _⟩ |
    ⟨suspended, _, _, handlers, _⟩ | ⟨reset, _⟩
  · cases idle.flag.symm.trans set_
  · exact ⟨⟨idle.flag, idle.pending, .inr ⟨rfl, rfl, sound.null⟩⟩, rfl⟩
  · cases (no_handlers idle.place suspended).symm.trans handlers
  · cases (no_handlers idle.place suspended).symm.trans handlers
  · exact absurd reset (idle.place_ne (by decide) (by decide))

/-- A process that has been woken up does not wait again. -/
theorem Woken.warten (woken : Woken signal process) (sound : Sound process)
    (moved : warten process = some after) : Woken signal after ∧ after.round = process.round := by
  rcases warten_cases moved with ⟨test, set_, rfl⟩ | ⟨test, unset, rfl⟩ |
    ⟨suspended, saved, handlers, calls, rfl⟩ | ⟨suspended, saved, handlers, calls, rfl⟩ |
    ⟨reset, rfl⟩
  · refine ⟨?_, rfl⟩
    cases woken with
    | pending flag pending place => cases flag.symm.trans set_
    | handling flag pending place stage calls => cases flag.symm.trans set_
    | flagged flag pending place => exact .flagged flag pending (.inr rfl)
    | restoring flag pending place => cases flag.symm.trans set_
  · refine ⟨?_, rfl⟩
    cases woken with
    | pending flag pending place => exact .pending flag pending (.inr ⟨rfl, rfl, sound.null⟩)
    | handling flag pending place stage calls => cases place.symm.trans test
    | flagged flag pending place => cases flag.symm.trans unset
    | restoring flag pending place => cases place.symm.trans test
  · obtain ⟨flag, pending, rfl, rfl⟩ := woken.running suspended calls
    exact ⟨.handling flag pending suspended .setting rfl, rfl⟩
  · obtain ⟨_, pending, rfl, rfl⟩ := woken.running suspended calls
    exact ⟨.flagged rfl pending (.inl rfl), rfl⟩
  · refine ⟨?_, rfl⟩
    cases woken with
    | pending flag pending place =>
        rcases place with test | ⟨suspended, _⟩
        · cases test.symm.trans reset
        · cases suspended.symm.trans reset
    | handling flag pending place stage calls => cases place.symm.trans reset
    | flagged flag pending place => exact .restoring rfl pending rfl
    | restoring flag pending place => cases place.symm.trans reset

/-- The handler starts with the empty mask of `sigsuspend` and its own signal. -/
theorem Woken.deliver (woken : Woken signal process) {delivered : ℕ}
    (moved : deliver process delivered = some after) :
    Woken signal after ∧ after.round = process.round := by
  obtain ⟨⟨suspended, member, _⟩, rfl⟩ := deliver_cases moved
  refine ⟨?_, rfl⟩
  cases woken with
  | pending flag pending place =>
      rw [pending, Finset.mem_singleton] at member
      subst member
      rcases place with test | ⟨_, none_, unblocked⟩
      · cases test.symm.trans suspended
      · have left : process.pending.erase delivered = ∅ := by
          rw [pending, Finset.erase_singleton]
        exact .handling flag left suspended .syncing (by rw [none_, unblocked])
  | handling flag pending place stage calls =>
      rw [pending] at member
      exact absurd member (Finset.notMem_empty _)
  | flagged flag pending place =>
      rw [pending] at member
      exact absurd member (Finset.notMem_empty _)
  | restoring flag pending place =>
      rw [pending] at member
      exact absurd member (Finset.notMem_empty _)

/-- A process that has been woken up can go on. -/
theorem Woken.goesOn (woken : Woken signal process) :
    process.place = .restore ∨ (∃ after, SignalSync.warten process = some after) ∨
      ∃ after, SignalSync.deliver process signal = some after := by
  cases woken with
  | pending flag pending place =>
      rcases place with test | ⟨suspended, none_, unblocked⟩
      · exact .inr (.inl ⟨_, by rw [SignalSync.warten, test]⟩)
      · refine .inr (.inr ⟨_, if_pos ⟨suspended, ?_, ?_⟩⟩)
        · rw [pending]
          exact Finset.mem_singleton_self _
        · rw [unblocked]
          exact Finset.notMem_empty _
  | handling flag pending place stage calls =>
      refine .inr (.inl ?_)
      rw [SignalSync.warten, place]
      cases stage with
      | syncing =>
          simp only [calls]
          exact ⟨_, rfl⟩
      | setting =>
          simp only [calls]
          exact ⟨_, rfl⟩
  | flagged flag pending place =>
      rcases place with test | reset
      · exact .inr (.inl ⟨_, by rw [SignalSync.warten, test]⟩)
      · exact .inr (.inl ⟨_, by rw [SignalSync.warten, reset]⟩)
  | restoring flag pending place => exact .inl place

/-- A process in a round in which it waits, without a signal. -/
structure Waits (round : ℕ) (process : Process) : Prop where
  idle : Idle process
  round : process.round = round

/-- The child waits in the next round, or has ended. -/
def Rests (rounds round : ℕ) (process : Process) : Prop :=
  if round < rounds then Waits round process else process.place = .ended

/-- Whose turn it is. -/
inductive Phase (rounds : ℕ) (state : State) : Prop
  /-- the parent is about to print -/
  | elternOutput (round : ℕ) (more : round < rounds) (eltern : Stands .output round state.eltern)
      (kind : Waits round state.kind) (log : state.log = outputs round)
  /-- the parent is about to wake up the child -/
  | elternSend (round : ℕ) (more : round < rounds) (eltern : Stands .send round state.eltern)
      (kind : Waits round state.kind) (log : state.log = outputs round ++ [.eltern])
  /-- the child wakes up -/
  | toKind (round : ℕ) (more : round < rounds) (eltern : Waits round state.eltern)
      (kind : Woken sigusr2 state.kind) (same : state.kind.round = round)
      (log : state.log = outputs round ++ [.eltern])
  /-- the child is about to print -/
  | kindOutput (round : ℕ) (more : round < rounds) (eltern : Waits round state.eltern)
      (kind : Stands .output round state.kind) (log : state.log = outputs round ++ [.eltern])
  /-- the child is about to wake up the parent -/
  | kindSend (round : ℕ) (more : round < rounds) (eltern : Waits round state.eltern)
      (kind : Stands .send round state.kind) (log : state.log = outputs (round + 1))
  /-- the parent wakes up -/
  | toEltern (round : ℕ) (more : round < rounds) (eltern : Woken sigusr1 state.eltern)
      (same : state.eltern.round = round) (kind : Rests rounds (round + 1) state.kind)
      (log : state.log = outputs (round + 1))
  /-- both have ended -/
  | finished (eltern : state.eltern.place = .ended) (kind : state.kind.place = .ended)
      (log : state.log = outputs rounds)

variable {rounds round : ℕ} {before : State} {state : State} {who : Who}

theorem outputs_succ (round : ℕ) : outputs (round + 1) = outputs round ++ [.eltern, .kind] := by
  rw [outputs, List.replicate_succ', List.flatten_append]
  rfl

theorem outputs_initial {fewer more : ℕ} (le : fewer ≤ more) : outputs fewer <+: outputs more := by
  induction le with
  | refl => exact List.prefix_refl _
  | step _ ih =>
      rw [outputs_succ]
      exact ih.trans (List.prefix_append _ _)

theorem Phase.order (phase : Phase rounds state) : state.log <+: outputs rounds := by
  have half : ∀ {round}, round < rounds → outputs round ++ [Who.eltern] <+: outputs rounds := by
    intro round more
    refine List.IsPrefix.trans ⟨[.kind], ?_⟩ (outputs_initial more)
    rw [outputs_succ, List.append_assoc]
    rfl
  cases phase with
  | elternOutput round more eltern kind log => exact log ▸ outputs_initial (Nat.le_of_lt more)
  | elternSend round more eltern kind log => exact log ▸ half more
  | toKind round more eltern kind same log => exact log ▸ half more
  | kindOutput round more eltern kind log => exact log ▸ half more
  | kindSend round more eltern kind log => exact log ▸ outputs_initial more
  | toEltern round more eltern same kind log => exact log ▸ outputs_initial more
  | finished eltern kind log => exact log ▸ List.prefix_refl _

/-- Where `next` is a step of the wait. -/
theorem next_of_waiting {after : State} (waiting : (state.process who).place = .test ∨
      (state.process who).place = .suspended ∨ (state.process who).place = .reset)
    (moved : next rounds state (.step who) = some after) :
    ∃ later, warten (state.process who) = some later ∧ after = state.set who later := by
  have same : next rounds state (.step who) = (warten (state.process who)).map (state.set who) := by
    rcases waiting with place | place | place
    all_goals simp only [next, place]
  rw [same, Option.map_eq_some_iff] at moved
  obtain ⟨later, waited, set_⟩ := moved
  exact ⟨later, waited, set_.symm⟩

/-- A waiting process goes on waiting. -/
theorem Waits.step {after : State} (waits : Waits round (state.process who))
    (sound : Sound (state.process who)) (moved : next rounds state (.step who) = some after) :
    ∃ later, Waits round later ∧ Sound later ∧ after = state.set who later := by
  have place : (state.process who).place = .test ∨ (state.process who).place = .suspended ∨
      (state.process who).place = .reset := by
    rcases waits.idle.place with test | ⟨suspended, _⟩
    · exact .inl test
    · exact .inr (.inl suspended)
  obtain ⟨later, waited, rfl⟩ := next_of_waiting place moved
  obtain ⟨idle, same⟩ := waits.idle.warten sound waited
  exact ⟨later, ⟨idle, same.trans waits.round⟩, sound.warten waited, rfl⟩

/-- A process that has been woken up goes on, until it leaves the wait. -/
theorem Woken.step {after : State} (woken : Woken signal (state.process who))
    (sound : Sound (state.process who)) (moved : next rounds state (.step who) = some after) :
    ((state.process who).place = .restore ∧ (state.process who).flag = false ∧
      (state.process who).pending = ∅) ∨
    ∃ later, Woken signal later ∧ later.round = (state.process who).round ∧ Sound later ∧
      after = state.set who later := by
  have waiting : (state.process who).place = .test ∨ (state.process who).place = .suspended ∨
      (state.process who).place = .reset ∨ ((state.process who).place = .restore ∧
        (state.process who).flag = false ∧ (state.process who).pending = ∅) := by
    cases woken with
    | pending flag pending place =>
        rcases place with test | ⟨suspended, _⟩
        · exact .inl test
        · exact .inr (.inl suspended)
    | handling flag pending place stage calls => exact .inr (.inl place)
    | flagged flag pending place =>
        rcases place with test | reset
        · exact .inl test
        · exact .inr (.inr (.inl reset))
    | restoring flag pending place => exact .inr (.inr (.inr ⟨place, flag, pending⟩))
  rcases waiting with test | suspended | reset | restoring
  · obtain ⟨later, waited, rfl⟩ := next_of_waiting (.inl test) moved
    obtain ⟨still, same⟩ := woken.warten sound waited
    exact .inr ⟨later, still, same, sound.warten waited, rfl⟩
  · obtain ⟨later, waited, rfl⟩ := next_of_waiting (.inr (.inl suspended)) moved
    obtain ⟨still, same⟩ := woken.warten sound waited
    exact .inr ⟨later, still, same, sound.warten waited, rfl⟩
  · obtain ⟨later, waited, rfl⟩ := next_of_waiting (.inr (.inr reset)) moved
    obtain ⟨still, same⟩ := woken.warten sound waited
    exact .inr ⟨later, still, same, sound.warten waited, rfl⟩
  · exact .inl restoring

theorem next_of_output (place : (state.process who).place = .output) :
    next rounds state (.step who) = some { state.set who { state.process who with place := .send }
      with log := state.log ++ [who] } := by
  simp only [next, place]

theorem next_of_send (place : (state.process who).place = .send) :
    next rounds state (.step who) =
      some ((state.set who.other (kill (state.process who.other) who.other.signal)).set who
        (afterSend rounds who (state.process who))) := by
  simp only [next, place]

theorem next_of_restore (place : (state.process who).place = .restore) :
    next rounds state (.step who) = some (state.set who (afterWait rounds who
      { state.process who with
        mask := (state.process who).mask ∪ (state.process who).maskAlt })) := by
  simp only [next, place]

theorem next_of_ended (place : (state.process who).place = .ended) :
    next rounds state (.step who) = none := by
  simp only [next, place, warten, Option.map_none]

/-- Outside `sigsuspend` a process may be anywhere. -/
theorem Sound.goTo (sound : Sound process) (outside : process.place ≠ .suspended) {place : Place}
    (leaves : place ≠ .suspended) (round : ℕ) : Sound { process with place, round } where
  null := sound.null
  blocked := fun _ => sound.blocked outside
  former := fun there => absurd there leaves
  counted := sound.counted

/-- More signals may be blocked, such as those of `mask_alt`. -/
theorem Sound.block (sound : Sound process) (mask : Mask) :
    Sound { process with mask := process.mask ∪ mask } where
  null := sound.null
  blocked := fun outside => (sound.blocked outside).imp (Finset.mem_union_left _)
    (Finset.mem_union_left _)
  former := sound.former
  counted := sound.counted

theorem sound_set (sound : ∀ who, Sound (state.process who)) (later : Sound process) (who : Who) :
    ∀ other, Sound ((state.set who process).process other) := by
  intro other
  cases who with
  | eltern =>
      cases other with
      | eltern => exact later
      | kind => exact sound .kind
  | kind =>
      cases other with
      | eltern => exact sound .eltern
      | kind => exact later

theorem nextRound_place_ne (rounds : ℕ) {first : Place} (other : first ≠ .suspended)
    (process : Process) : (nextRound rounds first process).place ≠ .suspended := by
  rw [nextRound]
  dsimp only
  split
  · exact other
  · decide

/-- The end of the wait: the parent begins the next round, and the child prints. -/
theorem Sound.afterWait (sound : Sound process) (place : process.place = .restore)
    (rounds : ℕ) (who : Who) :
    Sound (afterWait rounds who { process with mask := process.mask ∪ process.maskAlt }) := by
  have blocked := sound.block process.maskAlt
  have outside : process.place ≠ .suspended := by rw [place]; decide
  cases who with
  | eltern => exact blocked.goTo outside (nextRound_place_ne rounds (by decide) process) _
  | kind => exact blocked.goTo outside (by decide) _

theorem Sound.afterSend (sound : Sound process) (place : process.place = .send)
    (rounds : ℕ) (who : Who) : Sound (afterSend rounds who process) := by
  have outside : process.place ≠ .suspended := by rw [place]; decide
  cases who with
  | eltern => exact sound.goTo outside (by decide) _
  | kind => exact sound.goTo outside (nextRound_place_ne rounds (by decide) process) _

variable {after : State}

/-- A step of the parent keeps the turns. -/
theorem Phase.stepEltern (phase : Phase rounds before) (sound : ∀ who, Sound (before.process who))
    (moved : next rounds before (.step .eltern) = some after) :
    Phase rounds after ∧ ∀ who, Sound (after.process who) := by
  cases phase with
  | elternOutput round more eltern kind log =>
      rw [@next_of_output rounds before .eltern eltern.place] at moved
      cases moved
      refine ⟨.elternSend round more ⟨rfl, eltern.round, eltern.flag, eltern.pending⟩ kind ?_, ?_⟩
      · change before.log ++ [.eltern] = _
        rw [log]
      · have outside := eltern.outside (by decide)
        exact sound_set sound ((sound .eltern).goTo outside (by decide) _) .eltern
  | elternSend round more eltern kind log =>
      rw [@next_of_send rounds before .eltern eltern.place] at moved
      cases moved
      refine ⟨.toKind round more ⟨⟨eltern.flag, eltern.pending, .inl rfl⟩, eltern.round⟩
        (kind.idle.woken sigusr2) ?_ log, ?_⟩
      · change (kill before.kind sigusr2).round = round
        rw [kind.idle.kill]
        exact kind.round
      · exact sound_set (sound_set sound ((sound .kind).kill kind.idle sigusr2) .kind)
          ((sound .eltern).afterSend eltern.place rounds .eltern) .eltern
  | toKind round more eltern kind same log =>
      obtain ⟨later, waits, kept, rfl⟩ := eltern.step (sound .eltern) moved
      exact ⟨.toKind round more waits kind same log, sound_set sound kept .eltern⟩
  | kindOutput round more eltern kind log =>
      obtain ⟨later, waits, kept, rfl⟩ := eltern.step (sound .eltern) moved
      exact ⟨.kindOutput round more waits kind log, sound_set sound kept .eltern⟩
  | kindSend round more eltern kind log =>
      obtain ⟨later, waits, kept, rfl⟩ := eltern.step (sound .eltern) moved
      exact ⟨.kindSend round more waits kind log, sound_set sound kept .eltern⟩
  | toEltern round more eltern same kind log =>
      rcases eltern.step (sound .eltern) moved with
        ⟨place, flag, pending⟩ | ⟨later, woken, still, kept, rfl⟩
      · rw [next_of_restore place] at moved
        cases moved
        refine ⟨?_, sound_set sound ((sound .eltern).afterWait place rounds .eltern) .eltern⟩
        by_cases again : round + 1 < rounds
        · rw [Rests, if_pos again] at kind
          refine .elternOutput (round + 1) again ⟨?_, ?_, flag, pending⟩ kind log
          · change (if before.eltern.round + 1 < rounds then Place.output else Place.ended) = _
            rw [same, if_pos again]
          · change before.eltern.round + 1 = _
            rw [same]
        · rw [Rests, if_neg again] at kind
          refine .finished ?_ kind ?_
          · change (if before.eltern.round + 1 < rounds then Place.output else Place.ended) = _
            rw [same, if_neg again]
          · change before.log = _
            have last : round + 1 = rounds := Nat.le_antisymm more (Nat.le_of_not_lt again)
            rw [log, last]
      · exact ⟨.toEltern round more woken (still.trans same) kind log, sound_set sound kept .eltern⟩
  | finished eltern kind log =>
      rw [@next_of_ended rounds before .eltern eltern] at moved
      cases moved

/-- A step of the child keeps the turns. -/
theorem Phase.stepKind (phase : Phase rounds before) (sound : ∀ who, Sound (before.process who))
    (moved : next rounds before (.step .kind) = some after) :
    Phase rounds after ∧ ∀ who, Sound (after.process who) := by
  cases phase with
  | elternOutput round more eltern kind log =>
      obtain ⟨later, waits, kept, rfl⟩ := kind.step (sound .kind) moved
      exact ⟨.elternOutput round more eltern waits log, sound_set sound kept .kind⟩
  | elternSend round more eltern kind log =>
      obtain ⟨later, waits, kept, rfl⟩ := kind.step (sound .kind) moved
      exact ⟨.elternSend round more eltern waits log, sound_set sound kept .kind⟩
  | toKind round more eltern kind same log =>
      rcases kind.step (sound .kind) moved with
        ⟨place, flag, pending⟩ | ⟨later, woken, still, kept, rfl⟩
      · rw [next_of_restore place] at moved
        cases moved
        refine ⟨.kindOutput round more eltern ⟨rfl, same, flag, pending⟩ log, ?_⟩
        exact sound_set sound ((sound .kind).afterWait place rounds .kind) .kind
      · exact ⟨.toKind round more eltern woken (still.trans same) log, sound_set sound kept .kind⟩
  | kindOutput round more eltern kind log =>
      rw [@next_of_output rounds before .kind kind.place] at moved
      cases moved
      refine ⟨.kindSend round more eltern ⟨rfl, kind.round, kind.flag, kind.pending⟩ ?_, ?_⟩
      · change before.log ++ [.kind] = _
        rw [log, outputs_succ, List.append_assoc]
        rfl
      · exact sound_set sound ((sound .kind).goTo (kind.outside (by decide)) (by decide) _) .kind
  | kindSend round more eltern kind log =>
      rw [@next_of_send rounds before .kind kind.place] at moved
      cases moved
      refine ⟨.toEltern round more (eltern.idle.woken sigusr1) ?_ ?_ log, ?_⟩
      · change (kill before.eltern sigusr1).round = round
        rw [eltern.idle.kill]
        exact eltern.round
      · change Rests rounds (round + 1) (nextRound rounds .test before.kind)
        have next_ : before.kind.round + 1 = round + 1 := congrArg (· + 1) kind.round
        rw [Rests, nextRound, next_]
        by_cases again : round + 1 < rounds
        · rw [if_pos again, if_pos again]
          exact ⟨⟨kind.flag, kind.pending, .inl rfl⟩, rfl⟩
        · rw [if_neg again, if_neg again]
      · exact sound_set (sound_set sound ((sound .eltern).kill eltern.idle sigusr1) .eltern)
          ((sound .kind).afterSend kind.place rounds .kind) .kind
  | toEltern round more eltern same kind log =>
      by_cases again : round + 1 < rounds
      · rw [Rests, if_pos again] at kind
        obtain ⟨later, waits, kept, rfl⟩ := kind.step (sound .kind) moved
        refine ⟨.toEltern round more eltern same ?_ log, sound_set sound kept .kind⟩
        rw [Rests, if_pos again]
        exact waits
      · rw [Rests, if_neg again] at kind
        rw [@next_of_ended rounds before .kind kind] at moved
        cases moved
  | finished eltern kind log =>
      rw [@next_of_ended rounds before .kind kind] at moved
      cases moved

/-- Only a process that is being woken up has a signal pending. -/
theorem Phase.deliver (phase : Phase rounds before) {signal : ℕ} {process : Process}
    (moved : deliver (before.process who) signal = some process) :
    Phase rounds (before.set who process) := by
  obtain ⟨⟨suspended, pending, _⟩, _⟩ := deliver_cases moved
  have empty : (before.process who).pending ≠ ∅ := Finset.ne_empty_of_mem pending
  cases phase with
  | elternOutput round more eltern kind log =>
      cases who with
      | eltern => exact absurd eltern.pending empty
      | kind => exact absurd kind.idle.pending empty
  | elternSend round more eltern kind log =>
      cases who with
      | eltern => exact absurd eltern.pending empty
      | kind => exact absurd kind.idle.pending empty
  | toKind round more eltern kind same log =>
      cases who with
      | eltern => exact absurd eltern.idle.pending empty
      | kind =>
          obtain ⟨woken, still⟩ := kind.deliver moved
          exact .toKind round more eltern woken (still.trans same) log
  | kindOutput round more eltern kind log =>
      cases who with
      | eltern => exact absurd eltern.idle.pending empty
      | kind => exact absurd kind.pending empty
  | kindSend round more eltern kind log =>
      cases who with
      | eltern => exact absurd eltern.idle.pending empty
      | kind => exact absurd kind.pending empty
  | toEltern round more eltern same kind log =>
      cases who with
      | eltern =>
          obtain ⟨woken, still⟩ := eltern.deliver moved
          exact .toEltern round more woken (still.trans same) kind log
      | kind =>
          rw [Rests] at kind
          split at kind
          · exact absurd kind.idle.pending empty
          · cases kind.symm.trans suspended
  | finished eltern kind log =>
      cases who with
      | eltern => cases eltern.symm.trans suspended
      | kind => cases kind.symm.trans suspended

/-- A process that has been woken up can go on. -/
theorem next_of_woken {signal : ℕ} (woken : Woken signal (state.process who)) :
    ∃ action after, next rounds state action = some after := by
  rcases woken.goesOn with restore | ⟨after, waited⟩ | ⟨after, delivered⟩
  · exact ⟨.step who, _, next_of_restore restore⟩
  · have place : (state.process who).place = .test ∨ (state.process who).place = .suspended ∨
        (state.process who).place = .reset := by
      rcases warten_cases waited with ⟨test, _⟩ | ⟨test, _⟩ | ⟨suspended, _⟩ | ⟨suspended, _⟩ |
        ⟨reset, _⟩
      · exact .inl test
      · exact .inl test
      · exact .inr (.inl suspended)
      · exact .inr (.inl suspended)
      · exact .inr (.inr reset)
    refine ⟨.step who, state.set who after, ?_⟩
    rcases place with place | place | place
    all_goals simp only [next, place, waited, Option.map_some]
  · exact ⟨.deliver who signal, state.set who after,
      by simp only [next, delivered, Option.map_some]⟩

/-- Whoever has the turn can go on. -/
theorem Phase.goesOn (phase : Phase rounds state)
    (unfinished : ∃ who, (state.process who).place ≠ .ended) :
    ∃ action after, next rounds state action = some after := by
  cases phase with
  | elternOutput round more eltern kind log =>
      exact ⟨.step .eltern, _, @next_of_output rounds state .eltern eltern.place⟩
  | elternSend round more eltern kind log =>
      exact ⟨.step .eltern, _, @next_of_send rounds state .eltern eltern.place⟩
  | toKind round more eltern kind same log => exact @next_of_woken rounds state .kind _ kind
  | kindOutput round more eltern kind log =>
      exact ⟨.step .kind, _, @next_of_output rounds state .kind kind.place⟩
  | kindSend round more eltern kind log =>
      exact ⟨.step .kind, _, @next_of_send rounds state .kind kind.place⟩
  | toEltern round more eltern same kind log => exact @next_of_woken rounds state .eltern _ eltern
  | finished eltern kind log =>
      obtain ⟨who, runs⟩ := unfinished
      cases who with
      | eltern => exact absurd eltern runs
      | kind => exact absurd kind runs

/-- After `start_sync` both signals are blocked. -/
theorem sound_startSync (mask : Mask) {place : Place} (outside : place ≠ .suspended) :
    Sound { startSync (fresh mask) with place } where
  null := rfl
  blocked := fun _ => mem_signals mask
  former := fun there => absurd there outside
  counted := rfl

theorem phase_start (rounds : ℕ) (mask : Mask) : Phase rounds (start rounds mask) := by
  rw [start]
  by_cases more : 0 < rounds
  · rw [if_pos more, if_pos more]
    exact .elternOutput 0 more ⟨rfl, rfl, rfl, rfl⟩ ⟨⟨rfl, rfl, .inl rfl⟩, rfl⟩ rfl
  · rw [if_neg more, if_neg more]
    refine .finished rfl rfl ?_
    rw [Nat.eq_zero_of_not_pos more]
    rfl

theorem phase_invariant (rounds : ℕ) : (sigSync rounds).Invariant fun state =>
    Phase rounds state ∧ ∀ who, Sound (state.process who) where
  initial := by
    rintro _ ⟨mask, rfl⟩
    refine ⟨phase_start rounds mask, fun who => ?_⟩
    cases who with
    | eltern => exact sound_startSync mask (by split <;> decide)
    | kind => exact sound_startSync mask (by split <;> decide)
  step := by
    rintro before action after ⟨phase, sound⟩ moved
    change next rounds before action = some after at moved
    cases action with
    | step who =>
        cases who with
        | eltern => exact phase.stepEltern sound moved
        | kind => exact phase.stepKind sound moved
    | deliver who signal =>
        rw [next, Option.map_eq_some_iff] at moved
        obtain ⟨later, delivered, rfl⟩ := moved
        exact ⟨phase.deliver delivered, sound_set sound ((sound who).deliver delivered) who⟩

/-- **Parent and child alternate.** For every number of rounds, in every state that a run
reaches, the outputs alternate, no signal has been lost or merged, both signals are blocked
outside `sigsuspend`, and there is a step unless both processes have ended. -/
theorem alternating_of_reachable (rounds : ℕ) {state : State}
    (reached : (sigSync rounds).Reachable state) : Alternating rounds state := by
  obtain ⟨phase, sound⟩ := (phase_invariant rounds).reachable reached
  exact ⟨phase.order, fun who => (sound who).counted, fun who => (sound who).blocked, phase.goesOn⟩

/-- The parent prints and wakes up the child, which prints. -/
def firstRound : List Action :=
  [.step .kind, .step .eltern, .step .eltern, .deliver .kind sigusr2, .step .kind, .step .kind,
    .step .kind, .step .kind, .step .kind, .step .kind]

theorem alternating_of_firstRound : ∃ state : State,
    run (guarded (fun _ _ => True) (next 2)) (start 2 ∅) firstRound = some state ∧
      state.log = [.eltern, .kind] ∧ Alternating 2 state := by
  have executed : ((run (guarded (fun _ _ => True) (next 2)) (start 2 ∅) firstRound).map
      fun state => decide (state.log = [.eltern, .kind])) = some true := by decide +kernel
  obtain ⟨state, executed, log⟩ := Option.map_eq_some_iff.mp executed
  have reached : ((sigSync 2).restrict fun _ _ => True).Reachable state :=
    .of_run (.initial ⟨∅, rfl⟩) executed
  exact ⟨state, executed, of_decide_eq_true log, alternating_of_reachable 2 reached.of_restrict⟩

end LinuxUnix.SignalSync

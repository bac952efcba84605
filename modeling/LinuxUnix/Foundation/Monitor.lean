import Mathlib.Data.Finset.Card

/-! # A mutex with a condition variable

A thread that waits for the condition gives the mutex back. A signal wakes at least one of the
threads that wait, if there are any, and a thread can be woken without a signal; it gets the
mutex again when it is free (`Monitor.relock`). A signal is not kept for those that wait later:
what it does is seen in the number of threads that wait (`Monitor.card_signal`).
-/

/-- Who holds the mutex, the threads that wait, and those that have been woken and need the
mutex again. -/
structure Monitor (Thread : Type*) where
  holder : Option Thread
  waiting : Finset Thread
  woken : Finset Thread

namespace Monitor

variable {Thread : Type*} [DecidableEq Thread]

/-- The mutex and the condition as they are initialised. -/
def start : Monitor Thread where
  holder := none
  waiting := ∅
  woken := ∅

/-- `pthread_mutex_lock` -/
def lock (monitor : Monitor Thread) (thread : Thread) : Option (Monitor Thread) :=
  if monitor.holder = none then some { monitor with holder := some thread } else none

/-- `pthread_mutex_unlock` -/
def unlock (monitor : Monitor Thread) (thread : Thread) : Option (Monitor Thread) :=
  if monitor.holder = some thread then some { monitor with holder := none } else none

/-- `pthread_cond_wait` -/
def wait (monitor : Monitor Thread) (thread : Thread) : Option (Monitor Thread) :=
  if monitor.holder = some thread then
    some { monitor with holder := none, waiting := insert thread monitor.waiting }
  else none

/-- `pthread_cond_signal` wakes these threads. -/
def signal (monitor : Monitor Thread) (chosen : Finset Thread) : Option (Monitor Thread) :=
  if chosen ⊆ monitor.waiting ∧ (chosen = ∅ → monitor.waiting = ∅) then
    some { monitor with
      waiting := monitor.waiting \ chosen
      woken := monitor.woken ∪ chosen }
  else none

/-- A thread is woken without a signal. -/
def wake (monitor : Monitor Thread) (thread : Thread) : Option (Monitor Thread) :=
  if thread ∈ monitor.waiting then
    some { monitor with
      waiting := monitor.waiting.erase thread
      woken := insert thread monitor.woken }
  else none

/-- `pthread_cond_wait` returns. -/
def relock (monitor : Monitor Thread) (thread : Thread) : Option (Monitor Thread) :=
  if monitor.holder = none ∧ thread ∈ monitor.woken then
    some { monitor with
      holder := some thread
      woken := monitor.woken.erase thread }
  else none

variable {monitor after : Monitor Thread} {thread : Thread} {chosen : Finset Thread}

omit [DecidableEq Thread] in
theorem lock_eq_some_iff : monitor.lock thread = some after ↔
    monitor.holder = none ∧ after = { monitor with holder := some thread } := by
  rw [lock, Option.ite_none_right_eq_some, Option.some.injEq, eq_comm (a := after)]

theorem unlock_eq_some_iff : monitor.unlock thread = some after ↔
    monitor.holder = some thread ∧ after = { monitor with holder := none } := by
  rw [unlock, Option.ite_none_right_eq_some, Option.some.injEq, eq_comm (a := after)]

theorem wait_eq_some_iff : monitor.wait thread = some after ↔
    monitor.holder = some thread ∧
      after = { monitor with holder := none, waiting := insert thread monitor.waiting } := by
  rw [wait, Option.ite_none_right_eq_some, Option.some.injEq, eq_comm (a := after)]

theorem signal_eq_some_iff : monitor.signal chosen = some after ↔
    (chosen ⊆ monitor.waiting ∧ (chosen = ∅ → monitor.waiting = ∅)) ∧
      after = { monitor with
        waiting := monitor.waiting \ chosen
        woken := monitor.woken ∪ chosen } := by
  rw [signal, Option.ite_none_right_eq_some, Option.some.injEq, eq_comm (a := after)]

theorem wake_eq_some_iff : monitor.wake thread = some after ↔
    thread ∈ monitor.waiting ∧ after = { monitor with
      waiting := monitor.waiting.erase thread
      woken := insert thread monitor.woken } := by
  rw [wake, Option.ite_none_right_eq_some, Option.some.injEq, eq_comm (a := after)]

theorem relock_eq_some_iff : monitor.relock thread = some after ↔
    (monitor.holder = none ∧ thread ∈ monitor.woken) ∧ after = { monitor with
      holder := some thread
      woken := monitor.woken.erase thread } := by
  rw [relock, Option.ite_none_right_eq_some, Option.some.injEq, eq_comm (a := after)]

/-- A signal is always possible. -/
theorem signal_all (monitor : Monitor Thread) : (monitor.signal monitor.waiting).isSome := by
  rw [signal, if_pos ⟨subset_rfl, id⟩]
  rfl

/-- After a signal fewer threads wait, or none. -/
theorem card_signal (signals : monitor.signal chosen = some after) :
    after.waiting.card ≤ monitor.waiting.card - 1 := by
  obtain ⟨⟨inside, some_⟩, rfl⟩ := signal_eq_some_iff.mp signals
  rw [Finset.card_sdiff_of_subset inside]
  by_cases none_ : chosen = ∅
  · rw [some_ none_, Finset.card_empty, Nat.zero_sub]
  · have positive := Finset.card_pos.mpr (Finset.nonempty_iff_ne_empty.mpr none_)
    omega

/-- A signal wakes one of those that wait. -/
theorem exists_woken (signals : monitor.signal chosen = some after)
    (waits : monitor.waiting ≠ ∅) : ∃ thread ∈ monitor.waiting, thread ∈ after.woken := by
  obtain ⟨⟨inside, some_⟩, rfl⟩ := signal_eq_some_iff.mp signals
  obtain ⟨thread, picked⟩ := Finset.nonempty_iff_ne_empty.mpr fun none_ => waits (some_ none_)
  exact ⟨thread, inside picked, Finset.mem_union_right _ picked⟩

/-- A signal that nobody waits for wakes nobody. -/
theorem woken_of_nobody (signals : monitor.signal chosen = some after)
    (nobody : monitor.waiting = ∅) : after.woken = monitor.woken := by
  obtain ⟨⟨inside, _⟩, rfl⟩ := signal_eq_some_iff.mp signals
  rw [nobody, Finset.subset_empty] at inside
  rw [inside]
  exact Finset.union_empty _

theorem woken_of_signal (signals : monitor.signal chosen = some after)
    (woken : thread ∈ monitor.woken) : thread ∈ after.woken := by
  obtain ⟨_, rfl⟩ := signal_eq_some_iff.mp signals
  exact Finset.mem_union_left _ woken

/-- The threads in `pthread_cond_wait`. -/
def inWait (monitor : Monitor Thread) (thread : Thread) : Prop :=
  thread ∈ monitor.waiting ∨ thread ∈ monitor.woken

/-- Where a thread is, as far as the monitor is concerned. -/
inductive Status
  | outside
  /-- it has locked the mutex -/
  | inside
  /-- in `pthread_cond_wait` -/
  | waiting
  deriving DecidableEq

/-- The monitor agrees with where the threads are. -/
structure Follows (monitor : Monitor Thread) (status : Thread → Status) : Prop where
  holds : ∀ thread, monitor.holder = some thread ↔ status thread = .inside
  waits : ∀ thread, monitor.inWait thread ↔ status thread = .waiting
  disjoint : Disjoint monitor.waiting monitor.woken

variable {status : Thread → Status}

omit [DecidableEq Thread] in
theorem follows_start (outside : ∀ thread, status thread = .outside) :
    (start : Monitor Thread).Follows status where
  holds thread := by
    rw [outside]
    exact ⟨nofun, nofun⟩
  waits thread := by
    rw [outside]
    simp only [inWait, start, Finset.notMem_empty, or_self, false_iff]
    nofun
  disjoint := Finset.disjoint_empty_left _

omit [DecidableEq Thread] in
/-- Only one thread is inside. -/
theorem Follows.unique {other : Thread} (follows : monitor.Follows status)
    (first : status thread = .inside) (second : status other = .inside) : thread = other :=
  Option.some.inj (((follows.holds _).mpr first).symm.trans ((follows.holds _).mpr second))

omit [DecidableEq Thread] in
/-- A thread that is in `pthread_cond_wait` although nobody waits for a signal has been woken. -/
theorem Follows.woken (follows : monitor.Follows status) (nobody : monitor.waiting = ∅)
    (waits : status thread = .waiting) : thread ∈ monitor.woken := by
  refine ((follows.waits thread).mpr waits).resolve_left fun member => ?_
  rw [nobody] at member
  exact absurd member (Finset.notMem_empty _)

/-- A thread that gets the free mutex is the one that is inside. -/
theorem Follows.enter (follows : monitor.Follows status) (free : monitor.holder = none)
    (other : Thread) :
    some thread = some other ↔ Function.update status thread .inside other = .inside := by
  by_cases same : other = thread
  · subst same
    rw [Function.update_self]
    exact ⟨fun _ => rfl, fun _ => rfl⟩
  · have before := follows.holds other
    rw [free] at before
    rw [Function.update_of_ne same, ← before, Option.some.injEq]
    exact ⟨fun equal => absurd equal.symm same, nofun⟩

theorem Follows.lock (follows : monitor.Follows status) (outside : status thread = .outside)
    (locks : monitor.lock thread = some after) :
    after.Follows (Function.update status thread .inside) := by
  obtain ⟨free, rfl⟩ := lock_eq_some_iff.mp locks
  refine ⟨follows.enter free, fun other => ?_, follows.disjoint⟩
  have before := follows.waits other
  by_cases same : other = thread
  · subst same
    rw [outside] at before
    rw [Function.update_self]
    exact before.trans ⟨nofun, nofun⟩
  · rw [Function.update_of_ne same]
    exact before

/-- A thread that gives the mutex back goes on outside or waits. -/
theorem Follows.leave {next : Status} (follows : monitor.Follows status)
    (holder : monitor.holder = some thread) (other : Thread) (gone : next ≠ .inside) :
    (none : Option Thread) = some other ↔ Function.update status thread next other = .inside := by
  refine ⟨nofun, fun inside => ?_⟩
  by_cases same : other = thread
  · subst same
    rw [Function.update_self] at inside
    exact absurd inside gone
  · rw [Function.update_of_ne same] at inside
    exact absurd (follows.unique inside ((follows.holds _).mp holder)) same

theorem Follows.unlock (follows : monitor.Follows status)
    (unlocks : monitor.unlock thread = some after) :
    after.Follows (Function.update status thread .outside) := by
  obtain ⟨holder, rfl⟩ := unlock_eq_some_iff.mp unlocks
  refine ⟨fun other => follows.leave holder other nofun, fun other => ?_, follows.disjoint⟩
  have before := follows.waits other
  by_cases same : other = thread
  · subst same
    rw [(follows.holds _).mp holder] at before
    rw [Function.update_self]
    exact before.trans ⟨nofun, nofun⟩
  · rw [Function.update_of_ne same]
    exact before

theorem Follows.wait (follows : monitor.Follows status)
    (waits : monitor.wait thread = some after) :
    after.Follows (Function.update status thread .waiting) := by
  obtain ⟨holder, rfl⟩ := wait_eq_some_iff.mp waits
  have awake : ¬ monitor.inWait thread := by
    rw [follows.waits, (follows.holds _).mp holder]
    nofun
  refine ⟨fun other => follows.leave holder other nofun, fun other => ?_, ?_⟩
  · have before := follows.waits other
    by_cases same : other = thread
    · subst same
      rw [Function.update_self]
      exact ⟨fun _ => rfl, fun _ => .inl (Finset.mem_insert_self ..)⟩
    · rw [Function.update_of_ne same, ← before, inWait, inWait, Finset.mem_insert]
      simp only [same, false_or]
  · exact Finset.disjoint_insert_left.mpr ⟨fun woken => awake (.inr woken), follows.disjoint⟩

theorem Follows.relock (follows : monitor.Follows status)
    (relocks : monitor.relock thread = some after) :
    after.Follows (Function.update status thread .inside) := by
  obtain ⟨⟨free, woken⟩, rfl⟩ := relock_eq_some_iff.mp relocks
  refine ⟨follows.enter free, fun other => ?_, ?_⟩
  · by_cases same : other = thread
    · subst same
      rw [Function.update_self]
      refine ⟨fun waits => ?_, nofun⟩
      rcases waits with waiting | stays
      · exact absurd woken (Finset.disjoint_left.mp follows.disjoint waiting)
      · exact absurd rfl (Finset.mem_erase.mp stays).1
    · rw [Function.update_of_ne same, ← follows.waits other, inWait, inWait, Finset.mem_erase]
      simp only [ne_eq, same, not_false_eq_true, true_and]
  · exact follows.disjoint.mono_right (Finset.erase_subset ..)

/-- A signal takes nobody out of `pthread_cond_wait`. -/
theorem Follows.signal (follows : monitor.Follows status)
    (signals : monitor.signal chosen = some after) : after.Follows status := by
  obtain ⟨⟨inside, _⟩, rfl⟩ := signal_eq_some_iff.mp signals
  refine ⟨follows.holds, fun thread => ?_, ?_⟩
  · rw [← follows.waits thread]
    simp only [inWait, Finset.mem_sdiff, Finset.mem_union]
    constructor
    · rintro (⟨waits, _⟩ | woken | chosen)
      · exact .inl waits
      · exact .inr woken
      · exact .inl (inside chosen)
    · rintro (waits | woken)
      · by_cases picked : thread ∈ chosen
        · exact .inr (.inr picked)
        · exact .inl ⟨waits, picked⟩
      · exact .inr (.inl woken)
  · exact Finset.disjoint_union_right.mpr
      ⟨follows.disjoint.mono_left Finset.sdiff_subset, Finset.sdiff_disjoint⟩

/-- Nor does a wake-up without a signal. -/
theorem Follows.wake (follows : monitor.Follows status)
    (wakes : monitor.wake thread = some after) : after.Follows status := by
  obtain ⟨waits, rfl⟩ := wake_eq_some_iff.mp wakes
  refine ⟨follows.holds, fun other => ?_, ?_⟩
  · rw [← follows.waits other]
    simp only [inWait, Finset.mem_erase, Finset.mem_insert]
    by_cases same : other = thread
    · subst same
      simp only [ne_eq, not_true_eq_false, false_and, true_or, or_true, waits]
    · simp only [ne_eq, same, not_false_eq_true, true_and, false_or]
  · exact Finset.disjoint_insert_right.mpr
      ⟨fun member => absurd rfl (Finset.mem_erase.mp member).1,
        follows.disjoint.mono_left (Finset.erase_subset ..)⟩

end Monitor

import LinuxUnix.Network.ThreadedServer

/-! # Which descriptors the threads use

`copy` closes the connection and `threading_socket` closes it again; after a
failed `open`, `copy` even goes on reading from the connection it has closed. In
between, the number is not in use and can be handed out once more. As long as
`accept` and `open` do not hand out such a number, and the names fit the buffers,
no thread uses a descriptor of another one
(`LinuxUnix.ThreadedServer.owns_of_reachable`); as soon as they do, one is about to
(`LinuxUnix.ThreadedServer.not_owns_of_handed`).
-/

namespace LinuxUnix.ThreadedServer

open FileTransfer DescriptorTable TransitionSystem

/-- The descriptor that a system call uses. -/
def descriptor : Request → Option ℤ
  | .read fd _ | .write fd _ | .close fd => some fd
  | .create _ => none

/-- What a descriptor of a thread may denote. -/
def Own (worker : ℕ) (object : Object) : Prop :=
  object = .connection worker ∨ object = .file worker

theorem Own.unique {first second : ℕ} {object : Object} (left : Own first object)
    (right : Own second object) : first = second := by
  rcases left with rfl | rfl <;> rcases right with same | same <;> cases same <;> rfl

/-- The next system call of a thread uses no number that denotes anything other
than the thread's own connection or its own file. -/
def Owned (table : DescriptorTable Object) (worker : ℕ) (locals : Locals) : Prop :=
  ∀ call ∈ request locals, ∀ fd ∈ descriptor call, ∀ object ∈ table.lookup fd, Own worker object

/-- No thread of the running process is about to use a descriptor of another one. -/
def Owns (state : State) : Prop :=
  state.status ≠ .undefined ∧ (state.status = .running →
    ∀ worker locals, state.workers[worker]? = some locals → Owned state.table worker locals)

/-- What a reply to the name loop adds to `puffer`, and the path it completes, fit
the buffers. -/
def FitsAt (home puffer : List Byte) : At → Reply → Prop
  | .header j, .data (byte :: _) =>
      j < maxZeichen ∧ (byte = 10 → pathOf home (puffer.set j 0) ≠ none)
  | .header _, .data [] => pathOf home puffer ≠ none
  | .header _, .failed | .header _, .value _ => True
  | .openFile, _ | .refused, _ | .block, _ | .writing _, _ | .closeFile, _ | .closeConn, _
  | .closeAgain, _ | .done, _ | .exited, _ | .undefined, _ => True

instance (home puffer : List Byte) : ∀ pc reply, Decidable (FitsAt home puffer pc reply)
  | .header _, .data (_ :: _) => inferInstanceAs (Decidable (_ ∧ _))
  | .header _, .data [] => inferInstanceAs (Decidable (_ ≠ _))
  | .header _, .failed | .header _, .value _ => inferInstanceAs (Decidable True)
  | .openFile, _ | .refused, _ | .block, _ | .writing _, _ | .closeFile, _ | .closeConn, _
  | .closeAgain, _ | .done, _ | .exited, _ | .undefined, _ => inferInstanceAs (Decidable True)

/-- The name that a thread reads fits the buffers. -/
def NameFits (home : List Byte) (locals : Locals) (reply : Reply) : Prop :=
  FitsAt home locals.puffer locals.pc reply

/-- No thread that has system calls left has this number for its connection. -/
def Free (state : State) (fd : ℕ) : Prop :=
  ∀ locals ∈ state.workers, request locals ≠ none → locals.connfd ≠ fd

/-- The number that the step hands out, if it does. -/
def handed (state : State) : Action → Option ℕ
  | .accepted fd => some fd
  | .work worker (.value fd) => match state.workers[worker]?.bind request with
    | some (.create _) => some fd
    | some (.read _ _) | some (.write _ _) | some (.close _) | none => none
  | _ => none

/-- The thread that goes on, and with what. -/
def answered (state : State) : Action → Option (Locals × Reply)
  | .work worker reply => state.workers[worker]?.map fun locals => (locals, reply)
  | _ => none

/-- The step hands out no number that a thread still uses, and overruns no buffer. -/
def Spares (home : List Byte) (state : State) (action : Action) : Prop :=
  (∀ fd ∈ handed state action, Free state fd) ∧
    ∀ answer ∈ answered state action, NameFits home answer.1 answer.2

instance (home : List Byte) (locals : Locals) (reply : Reply) :
    Decidable (NameFits home locals reply) :=
  inferInstanceAs (Decidable (FitsAt ..))

instance (state : State) (fd : ℕ) : Decidable (Free state fd) :=
  inferInstanceAs (Decidable (∀ _ ∈ _, _))

instance (home : List Byte) (state : State) (action : Action) :
    Decidable (Spares home state action) :=
  inferInstanceAs (Decidable (_ ∧ _))

instance (table : DescriptorTable Object) (worker : ℕ) (locals : Locals) :
    Decidable (Owned table worker locals) :=
  inferInstanceAs (Decidable (∀ _ ∈ _, ∀ _ ∈ _, ∀ _ ∈ _, _ ∨ _))

/-- What the descriptors of a thread denote, depending on where it stands. -/
def Placed (table : DescriptorTable Object) (worker : ℕ) (locals : Locals) : Prop :=
  match locals.pc with
  | .header _ | .openFile | .refused | .closeConn =>
      table.lookup locals.connfd = some (.connection worker)
  | .block =>
      (table.lookup locals.connfd = some (.connection worker) ∧
        table.lookup locals.fd = some (.file worker)) ∨
      table.lookup locals.connfd = none
  | .writing _ | .closeFile =>
      table.lookup locals.connfd = some (.connection worker) ∧
        table.lookup locals.fd = some (.file worker)
  | .closeAgain => table.lookup locals.connfd = none
  | .done | .exited | .undefined => True

/-- The invariant of the guarded runs. -/
structure Kept (state : State) : Prop where
  defined : state.status ≠ .undefined
  pending : ∀ fd ∈ state.pending, state.table.lookup fd = some .unserved
  placed : state.status = .running → ∀ worker locals, state.workers[worker]? = some locals →
    Placed state.table worker locals

variable {home : List Byte} {table after : DescriptorTable Object} {worker : ℕ} {locals : Locals}
  {call : Request} {reply : Reply}

/-- A thread in place uses only its own descriptors. -/
theorem Placed.owned (placed : Placed table worker locals) : Owned table worker locals := by
  intro call issued fd used object denoted
  have connection : table.lookup fd = some (.connection worker) → Own worker object := by
    intro same
    exact .inl (Option.some.inj (denoted.symm.trans same))
  have file : table.lookup fd = some (.file worker) → Own worker object := by
    intro same
    exact .inr (Option.some.inj (denoted.symm.trans same))
  have unused : table.lookup fd = none → Own worker object := by
    intro none_
    cases denoted.symm.trans none_
  cases pc : locals.pc with
  | header j =>
      simp only [Placed, request, pc] at placed issued
      cases issued
      cases used
      exact connection placed
  | openFile =>
      simp only [request, pc] at issued
      cases issued
      cases used
  | refused =>
      simp only [Placed, request, pc] at placed issued
      cases issued
      cases used
      exact connection placed
  | block =>
      simp only [Placed, request, pc] at placed issued
      cases issued
      cases used
      rcases placed with ⟨conn, _⟩ | closed
      · exact connection conn
      · exact unused closed
  | writing n =>
      simp only [Placed, request, pc] at placed issued
      cases issued
      cases used
      exact file placed.2
  | closeFile =>
      simp only [Placed, request, pc] at placed issued
      cases issued
      cases used
      exact file placed.2
  | closeConn =>
      simp only [Placed, request, pc] at placed issued
      cases issued
      cases used
      exact connection placed
  | closeAgain =>
      simp only [Placed, request, pc] at placed issued
      cases issued
      cases used
      exact unused placed
  | done => simp only [request, pc] at issued; cases issued
  | exited => simp only [request, pc] at issued; cases issued
  | undefined => simp only [request, pc] at issued; cases issued

/-- What a thread relies on is kept if its descriptors are, and if the number of
its connection is not handed out while the thread goes on without it. -/
theorem Placed.frame (placed : Placed table worker locals)
    (kept : ∀ fd object, Own worker object → table.lookup fd = some object →
      after.lookup fd = some object)
    (unused : request locals ≠ none → table.lookup locals.connfd = none →
      after.lookup locals.connfd = none) : Placed after worker locals := by
  have connection : table.lookup locals.connfd = some (.connection worker) →
      after.lookup locals.connfd = some (.connection worker) := kept _ _ (.inl rfl)
  have file : table.lookup locals.fd = some (.file worker) →
      after.lookup locals.fd = some (.file worker) := kept _ _ (.inr rfl)
  have both : table.lookup locals.connfd = some (.connection worker) ∧
      table.lookup locals.fd = some (.file worker) →
      after.lookup locals.connfd = some (.connection worker) ∧
        after.lookup locals.fd = some (.file worker) :=
    fun own => ⟨connection own.1, file own.2⟩
  cases pc : locals.pc with
  | header | openFile | refused | closeConn =>
      simp only [Placed, pc] at placed ⊢
      exact connection placed
  | block =>
      simp only [Placed, pc] at placed ⊢
      exact placed.imp both (unused (by simp only [request, pc, ne_eq, reduceCtorEq,
        not_false_eq_true]))
  | writing | closeFile =>
      simp only [Placed, pc] at placed ⊢
      exact both placed
  | closeAgain =>
      simp only [Placed, pc] at placed ⊢
      exact unused (by simp only [request, pc, ne_eq, reduceCtorEq, not_false_eq_true]) placed
  | done | exited | undefined => simp only [Placed, pc]

theorem placed_enterOpen (conn : table.lookup locals.connfd = some (.connection worker)) :
    Placed table worker (locals.enterOpen home) := by
  unfold Locals.enterOpen
  split
  · exact conn
  · trivial

theorem placed_takeByte (conn : table.lookup locals.connfd = some (.connection worker)) (j : ℕ)
    (byte : Byte) : Placed table worker (locals.takeByte home j byte) := by
  unfold Locals.takeByte
  split
  · split
    · exact placed_enterOpen conn
    · exact conn
  · trivial

/-- The thread that makes a permitted system call is in place afterwards. -/
theorem Placed.resume (placed : Placed table worker locals) (issued : request locals = some call)
    (permitted : permits table call reply) :
    Placed (settle table worker call reply) worker
      (resume threadingSocket home locals reply) := by
  cases pc : locals.pc with
  | header j =>
      simp only [Placed, request, pc, Option.some.injEq] at placed issued
      subst issued
      simp only [FileTransfer.resume, pc, settle]
      split
      · exact placed_takeByte placed ..
      · exact placed_enterOpen placed
      all_goals trivial
  | openFile =>
      simp only [Placed, request, pc, Option.some.injEq] at placed issued
      subst issued
      cases reply with
      | failed =>
          simp only [FileTransfer.resume, pc, settle]
          exact placed
      | data bytes => exact permitted.elim
      | value fd =>
          have other : locals.connfd ≠ fd := by
            intro same
            rw [same, lookup_natCast] at placed
            cases placed.symm.trans permitted
          simp only [FileTransfer.resume, pc, settle]
          exact .inl ⟨(lookup_install_of_ne other).trans placed, lookup_install_self⟩
  | refused =>
      simp only [request, pc, Option.some.injEq] at issued
      subst issued
      simp only [FileTransfer.resume, pc, settle]
      exact .inr (lookup_release_self ..)
  | block =>
      simp only [Placed, request, pc, Option.some.injEq] at placed issued
      subst issued
      cases reply with
      | failed =>
          simp only [FileTransfer.resume, pc, settle]
          trivial
      | value fd => exact permitted.elim
      | data bytes =>
          have own := placed.resolve_right permitted.1
          simp only [FileTransfer.resume, pc, settle]
          cases bytes with
          | nil => exact own
          | cons byte bytes => exact own
  | writing n =>
      simp only [Placed, request, pc, Option.some.injEq] at placed issued
      subst issued
      simp only [FileTransfer.resume, pc, settle]
      split
      · exact .inl placed
      · trivial
  | closeFile =>
      simp only [Placed, request, pc, Option.some.injEq] at placed issued
      subst issued
      have other : locals.connfd ≠ locals.fd := by
        intro same
        rw [same] at placed
        cases placed.1.symm.trans placed.2
      simp only [FileTransfer.resume, pc, settle]
      exact (lookup_release_of_ne other).trans placed.1
  | closeConn =>
      simp only [request, pc, Option.some.injEq] at issued
      subst issued
      simp only [FileTransfer.resume, pc, settle]
      exact lookup_release_self ..
  | closeAgain =>
      simp only [FileTransfer.resume, pc]
      trivial
  | done | exited | undefined =>
      simp only [request, pc] at issued
      cases issued

/-- A number can be given a new meaning if it is neither a descriptor of the thread
nor the number of the connection that it has closed. -/
theorem Placed.install (placed : Placed table worker locals) {fd : ℕ} (object : Object)
    (foreign : ∀ object ∈ table fd, ¬ Own worker object)
    (free : request locals ≠ none → table.lookup locals.connfd = none → locals.connfd ≠ fd) :
    Placed (table.install fd object) worker locals := by
  apply placed.frame
  · intro number object own denoted
    refine (lookup_install_of_ne ?_).trans denoted
    rintro rfl
    rw [lookup_natCast] at denoted
    exact foreign object denoted own
  · intro goes closed
    exact (lookup_install_of_ne (free goes closed)).trans closed

/-- A number that is not in use can be handed out, if no thread that goes on has it
for its connection. -/
theorem Placed.handOut (placed : Placed table worker locals) {fd : ℕ} (object : Object)
    (unused : table fd = none) (free : request locals ≠ none → locals.connfd ≠ fd) :
    Placed (table.install fd object) worker locals := by
  refine placed.install object ?_ fun goes _ => free goes
  intro other denoted
  cases unused.symm.trans denoted

/-- Closing a descriptor of one thread leaves what others rely on. -/
theorem lookup_release_of_owned {other : ℕ} {object : Object} {fd number : ℤ}
    (owned : ∀ object ∈ table.lookup fd, Own other object) (foreign : ¬ Own other object)
    (denoted : table.lookup number = some object) :
    (table.release fd).lookup number = some object := by
  refine (lookup_release_of_ne ?_).trans denoted
  rintro rfl
  exact foreign (owned object denoted)

/-- Another thread's system call leaves a thread in place. -/
theorem Placed.settle {other : ℕ} {acting : Locals} (placed : Placed table worker locals)
    (others : Placed table other acting) (different : other ≠ worker)
    (issued : request acting = some call) (permitted : permits table call reply)
    (free : ∀ path fd, call = .create path → reply = .value fd → request locals ≠ none →
      locals.connfd ≠ fd) : Placed (settle table other call reply) worker locals := by
  unfold ThreadedServer.settle
  split
  · exact placed.handOut _ permitted (free _ _ rfl rfl)
  · apply placed.frame
    · intro number object own denoted
      exact lookup_release_of_owned (others.owned _ issued _ rfl)
        (fun foreign => different (foreign.unique own)) denoted
    · intro _ closed
      exact lookup_release_eq_none closed _
  all_goals exact placed

/-- A connection that `main` has accepted is not affected by the threads. -/
theorem unserved_settle {acting : Locals} {fd : ℤ} (others : Placed table worker acting)
    (issued : request acting = some call) (permitted : permits table call reply)
    (unserved : table.lookup fd = some .unserved) :
    (settle table worker call reply).lookup fd = some .unserved := by
  unfold settle
  split
  · rename_i number
    refine (lookup_install_of_ne ?_).trans unserved
    rintro rfl
    rw [lookup_natCast] at unserved
    cases unserved.symm.trans permitted
  · refine lookup_release_of_owned (others.owned _ issued _ rfl) ?_ unserved
    rintro (same | same) <;> cases same
  all_goals exact unserved

theorem defined_enterOpen (fits : pathOf home locals.puffer ≠ none) :
    statusAt (locals.enterOpen home).pc = .running := by
  unfold Locals.enterOpen
  split
  · rfl
  · exact absurd ‹_› fits

/-- A name that fits leads to no access outside the buffers. -/
theorem defined_resume (fits : NameFits home locals reply) (issued : request locals ≠ none) :
    statusAt (resume threadingSocket home locals reply).pc ≠ .undefined := by
  cases pc : locals.pc with
  | header j =>
      simp only [NameFits, FitsAt, resume, pc] at fits ⊢
      cases reply with
      | failed | value => simp only [statusAt, ne_eq, reduceCtorEq, not_false_eq_true]
      | data bytes =>
          cases bytes with
          | nil => rw [defined_enterOpen fits]; decide
          | cons byte bytes =>
              change statusAt (locals.takeByte home j byte).pc ≠ .undefined
              rw [Locals.takeByte, if_pos fits.1]
              split
              · rw [defined_enterOpen (fits.2 ‹_›)]; decide
              · simp only [statusAt, ne_eq, reduceCtorEq, not_false_eq_true]
  | openFile | block =>
      simp only [resume, pc]
      split <;> simp only [statusAt, ne_eq, reduceCtorEq, not_false_eq_true]
  | writing n =>
      simp only [resume, pc]
      split <;> simp only [statusAt, ne_eq, reduceCtorEq, not_false_eq_true]
  | refused | closeFile | closeConn | closeAgain =>
      simp only [resume, pc, threadingSocket, statusAt, ne_eq, reduceCtorEq, not_false_eq_true]
  | done | exited | undefined => exact absurd (by simp only [request, pc]) issued

/-- What a thread's system call keeps. -/
theorem Kept.serve {state : State} (kept : Kept state) (running : state.status = .running)
    (there : state.workers[worker]? = some locals) (issued : request locals = some call)
    (permitted : permits state.table call reply) (fits : NameFits home locals reply)
    (free : ∀ path fd, call = .create path → reply = .value fd → Free state fd) :
    Kept (state.serve home worker locals call reply) where
  defined := defined_resume fits (by rw [issued]; exact Option.some_ne_none call)
  pending := by
    intro fd accepted
    exact unserved_settle (kept.placed running _ _ there) issued permitted
      (kept.pending fd accepted)
  placed := by
    intro _ other locals' there'
    have acting := kept.placed running _ _ there
    simp only [State.serve] at there' ⊢
    by_cases same : worker = other
    · subst same
      rw [List.getElem?_set_self' , there] at there'
      cases there'
      exact acting.resume issued permitted
    · rw [List.getElem?_set_ne same] at there'
      refine (kept.placed running _ _ there').settle acting same issued permitted ?_
      intro path fd created handed
      exact free path fd created handed _ (List.mem_of_getElem? there')

/-- What starting a thread for the connection just accepted keeps. -/
theorem Kept.created {state : State} {fd : ℕ} (kept : Kept state)
    (running : state.status = .running) (accepted : state.pending = some fd) (stack : Locals) :
    Kept { state with
      table := state.table.install fd (.connection state.workers.length)
      pending := none
      workers := state.workers ++ [stack.begin fd] } where
  defined := kept.defined
  pending := by intro fd accepted; cases accepted
  placed := by
    intro _ worker locals there
    have unserved := kept.pending fd accepted
    rw [lookup_natCast] at unserved
    rw [List.getElem?_append] at there
    split at there
    · refine (kept.placed running _ _ there).install _ ?_ ?_
      · intro object denoted own
        rw [Option.mem_def, unserved] at denoted
        cases denoted
        rcases own with same | same <;> cases same
      · intro _ closed same
        rw [same, lookup_natCast, unserved] at closed
        cases closed
    · rw [List.getElem?_singleton] at there
      split at there
      · have last : worker = state.workers.length := by omega
        cases there
        subst last
        exact lookup_install_self
      · cases there

/-- Every guarded step keeps the invariant. -/
theorem kept_invariant (sockfd : ℕ) (home : List Byte) :
    ((threadedServer sockfd home).restrict (Spares home)).Invariant Kept where
  initial := by
    rintro _ rfl
    exact {
      defined := by intro same; cases same
      pending := by intro fd accepted; cases accepted
      placed := by intro _ worker locals there; cases there }
  step := by
    rintro before action after kept ⟨⟨free, fits⟩, moved⟩
    change next home before action = some after at moved
    cases action with
    | accepted fd =>
        simp only [next, Option.ite_none_right_eq_some] at moved
        obtain ⟨⟨running, _, unused⟩, moved⟩ := moved
        cases moved
        exact {
          defined := kept.defined
          pending := by
            rintro _ ⟨⟩
            exact lookup_install_self
          placed := by
            intro _ worker locals there
            exact (kept.placed running _ _ there).handOut _ unused
              (free fd rfl _ (List.mem_of_getElem? there)) }
    | interrupted =>
        simp only [next, Option.ite_none_right_eq_some] at moved
        obtain ⟨_, moved⟩ := moved
        cases moved
        exact kept
    | acceptFailed =>
        simp only [next, Option.ite_none_right_eq_some] at moved
        obtain ⟨_, moved⟩ := moved
        cases moved
        exact {
          defined := by intro same; cases same
          pending := kept.pending
          placed := by intro running; cases running }
    | created stack =>
        simp only [next] at moved
        split at moved
        · simp only [Option.ite_none_right_eq_some] at moved
          obtain ⟨⟨running, _⟩, moved⟩ := moved
          cases moved
          exact kept.created running ‹_› stack
        · cases moved
    | notCreated =>
        simp only [next, Option.ite_none_right_eq_some] at moved
        obtain ⟨_, moved⟩ := moved
        cases moved
        exact {
          defined := kept.defined
          pending := by intro fd accepted; cases accepted
          placed := kept.placed }
    | work worker reply =>
        simp only [next] at moved
        split at moved
        case h_2 => cases moved
        case h_1 locals there =>
          split at moved
          case h_2 => cases moved
          case h_1 call issued =>
            simp only [Option.ite_none_right_eq_some] at moved
            obtain ⟨⟨running, permitted⟩, moved⟩ := moved
            cases moved
            have fits := fits (locals, reply) (Option.map_eq_some_iff.mpr ⟨_, there, rfl⟩)
            refine kept.serve running there issued permitted fits ?_
            rintro path fd rfl rfl
            apply free
            simp only [handed, there, Option.bind_some, issued, Option.mem_def]

theorem Kept.owns {state : State} (kept : Kept state) : Owns state :=
  ⟨kept.defined, fun running worker locals there =>
    (kept.placed running worker locals there).owned⟩

/-- A thread without the connection whose number it keeps is about to use it. -/
theorem Placed.uses (placed : Placed table worker locals) (goes : request locals ≠ none)
    (unused : table.lookup locals.connfd = none) :
    ∃ call ∈ request locals, descriptor call = some locals.connfd := by
  cases pc : locals.pc with
  | header | openFile | refused | closeConn =>
      simp only [Placed, pc] at placed
      cases placed.symm.trans unused
  | writing | closeFile =>
      simp only [Placed, pc] at placed
      cases placed.1.symm.trans unused
  | block | closeAgain =>
      simp only [request, pc, Option.mem_def, Option.some.injEq, exists_eq_left', descriptor]
  | done | exited | undefined => exact absurd (by simp only [request, pc]) goes

/-- Once its number denotes something else, such a thread does not own it. -/
theorem Placed.not_owned_install (placed : Placed table worker locals)
    (goes : request locals ≠ none) {fd : ℕ} {object : Object} (foreign : ¬ Own worker object)
    (unused : table fd = none) (still : locals.connfd = fd) :
    ¬ Owned (table.install fd object) worker locals := by
  intro owned
  have closed : table.lookup locals.connfd = none := by rw [still, lookup_natCast, unused]
  obtain ⟨call, issued, used⟩ := placed.uses goes closed
  refine foreign (owned call issued _ used object ?_)
  rw [still]
  exact lookup_install_self

theorem pc_of_create {path : List Byte} (issued : request locals = some (.create path)) :
    locals.pc = .openFile := by
  cases pc : locals.pc with
  | openFile => rfl
  | header | refused | block | writing | closeFile | closeConn | closeAgain | done | exited |
      undefined =>
      simp only [request, pc] at issued
      cases issued

/-- Only a thread that opens its file is handed a number. -/
theorem handed_work {state : State} {fd : ℕ} (handed_ : fd ∈ handed state (.work worker reply)) :
    reply = .value fd ∧ ∃ locals path,
      state.workers[worker]? = some locals ∧ request locals = some (.create path) := by
  cases reply with
  | failed | data => cases handed_
  | value number =>
      simp only [handed] at handed_
      split at handed_
      · cases handed_
        obtain ⟨locals, there, issued⟩ := Option.bind_eq_some_iff.mp ‹_›
        exact ⟨rfl, locals, _, there, issued⟩
      all_goals cases handed_

/-- Handing out a number that a thread still uses is followed by a violation. -/
theorem not_owns_of_handed {before after : State} {action : Action} {fd : ℕ} (kept : Kept before)
    (moved : next home before action = some after) (handed_ : fd ∈ handed before action)
    (used : ¬ Free before fd) : ¬ Owns after := by
  obtain ⟨locals, member, goes, still⟩ : ∃ locals ∈ before.workers,
      request locals ≠ none ∧ locals.connfd = fd := by
    simpa only [Free, not_forall, exists_prop, not_not] using used
  obtain ⟨worker, there⟩ := List.mem_iff_getElem?.mp member
  rintro ⟨_, owns⟩
  cases action with
  | interrupted | acceptFailed | created | notCreated => cases handed_
  | accepted number =>
      simp only [next, Option.ite_none_right_eq_some] at moved
      obtain ⟨⟨running, _, unused⟩, moved⟩ := moved
      cases handed_
      cases moved
      refine (kept.placed running _ _ there).not_owned_install goes ?_ unused still
        (owns running _ _ there)
      rintro (same | same) <;> cases same
  | work opener reply =>
      obtain ⟨rfl, opening, path, acting, issued⟩ := handed_work handed_
      simp only [next, acting, issued, Option.ite_none_right_eq_some] at moved
      obtain ⟨⟨running, unused⟩, moved⟩ := moved
      cases moved
      have pc := pc_of_create issued
      have different : opener ≠ worker := by
        rintro rfl
        have conn := kept.placed running _ _ acting
        cases acting.symm.trans there
        simp only [Placed, pc, still, lookup_natCast] at conn
        cases conn.symm.trans unused
      refine (kept.placed running _ _ there).not_owned_install goes ?_ unused still
        (owns ?_ worker _ ?_)
      · rintro (same | same) <;> cases same
        exact different rfl
      · simp only [State.serve, resume, pc, statusAt]
      · exact (List.getElem?_set_ne different).trans there

/-- A name that does not fit leads outside the buffers. -/
theorem undefined_of_not_nameFits (large : ¬ NameFits home locals reply) :
    (resume threadingSocket home locals reply).pc = .undefined := by
  have overrun : ∀ locals : Locals, ¬ pathOf home locals.puffer ≠ none →
      (locals.enterOpen home).pc = .undefined := by
    intro locals large
    rw [Locals.enterOpen, not_not.mp large]
  cases pc : locals.pc with
  | header j =>
      simp only [NameFits, pc] at large
      cases reply with
      | failed | value => exact absurd trivial large
      | data bytes =>
          cases bytes with
          | nil =>
              simp only [resume, pc]
              exact overrun _ large
          | cons byte bytes =>
              simp only [resume, pc]
              unfold Locals.takeByte
              split
              · split
                · exact overrun _ fun fits => large ⟨‹_›, fun _ => fits⟩
                · exact absurd ⟨‹_›, fun newline => absurd newline ‹_›⟩ large
              · rfl
  | openFile | refused | block | writing | closeFile | closeConn | closeAgain | done | exited |
      undefined =>
      simp only [NameFits, FitsAt, pc, not_true_eq_false] at large

/-- The step after a guarded run is followed by a violation unless it meets the
guard. -/
theorem owns_iff_spares {sockfd : ℕ} {before after : State} {action : Action}
    (reached : ((threadedServer sockfd home).restrict (Spares home)).Reachable before)
    (moved : next home before action = some after) : Owns after ↔ Spares home before action := by
  have kept := (kept_invariant sockfd home).reachable reached
  constructor
  · intro owns
    constructor
    · intro fd handed_
      by_contra used
      exact not_owns_of_handed kept moved handed_ used owns
    · intro answer answered_
      by_contra large
      apply owns.1
      cases action with
      | accepted | interrupted | acceptFailed | created | notCreated => cases answered_
      | work worker reply =>
          obtain ⟨locals, there, rfl⟩ := Option.map_eq_some_iff.mp answered_
          simp only [next, there] at moved
          split at moved
          · simp only [Option.ite_none_right_eq_some] at moved
            obtain ⟨_, moved⟩ := moved
            cases moved
            rw [State.serve, undefined_of_not_nameFits large, statusAt]
          · cases moved
  · intro spares
    exact ((kept_invariant sockfd home).step _ _ _ kept ⟨spares, moved⟩).owns

/-- In every run in which no number is handed out that a thread still uses, and all
names fit, no thread uses a descriptor of another one. -/
theorem owns_of_reachable {sockfd : ℕ} {state : State}
    (reached : ((threadedServer sockfd home).restrict (Spares home)).Reachable state) :
    Owns state :=
  ((kept_invariant sockfd home).reachable reached).owns

/-- A client sends the name of a file and closes, and is served up to the first
`close` of its connection; meanwhile another one has connected. -/
def twoClients : List Action :=
  [.accepted 4, .created blank, .work 0 (.data [97]), .work 0 (.data [10]), .accepted 5,
    .created blank, .work 0 (.value 6), .work 0 (.data []), .work 0 (.value 0),
    .work 0 (.value 0)]

theorem owns_of_twoClients : ∃ state : State,
    run (guarded (Spares [47]) (next [47])) (listening 3) twoClients = some state ∧
      Owns state := by
  have executed :
      (run (guarded (Spares [47]) (next [47])) (listening 3) twoClients).isSome = true := by
    decide +kernel
  obtain ⟨state, executed⟩ := Option.isSome_iff_exists.mp executed
  have reached : ((threadedServer 3 [47]).restrict (Spares [47])).Reachable state :=
    .of_run (.initial rfl) executed
  exact ⟨state, executed, owns_of_reachable reached⟩

/-- The second client connects between the two calls of `close`. -/
def betweenCloses : List Action :=
  [.accepted 4, .created blank, .work 0 (.data [97]), .work 0 (.data [10]), .work 0 (.value 5),
    .work 0 (.data []), .work 0 (.value 0), .work 0 (.value 0), .accepted 4, .created blank]

/-- The first thread is about to close the connection of the second one. -/
theorem not_owns_of_betweenCloses :
    ¬ ∀ state : State, (threadedServer 3 [47]).Reachable state → Owns state := by
  intro owns
  let anyStep : State → Action → Prop := fun _ _ => True
  have broken : ((run (guarded anyStep (next [47])) (listening 3) betweenCloses).bind fun state =>
      state.workers[0]?.map fun locals =>
        decide (state.status = .running ∧ ¬ Owned state.table 0 locals)) = some true := by
    decide +kernel
  obtain ⟨state, executed, broken⟩ := Option.bind_eq_some_iff.mp broken
  obtain ⟨locals, there, violated⟩ := Option.map_eq_some_iff.mp broken
  have reached : ((threadedServer 3 [47]).restrict anyStep).Reachable state :=
    .of_run (.initial rfl) executed
  obtain ⟨running, foreign⟩ := of_decide_eq_true violated
  exact foreign ((owns state reached.of_restrict).2 running 0 locals there)

end LinuxUnix.ThreadedServer

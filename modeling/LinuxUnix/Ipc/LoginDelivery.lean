import LinuxUnix.Ipc.LoginRoster

/-! # Every login reaches the clients that should get it

A login enters its client in the list, and what the server then sends to a client is what
the client should get for it (`LinuxUnix.LoginBroadcast.Consistent.receiveLogin`). What has
been put into a queue, and what is still to be sent to it, is what its client should have got
(`LinuxUnix.LoginBroadcast.Consistent.informed`).
-/

namespace LinuxUnix.LoginBroadcast

open CMemory MessageServer TransitionSystem

variable {Client : Type*} [DecidableEq Client] {before after : State Client} {who : Client}

/-- The state after the server has received the first message in its queue. -/
def State.received (state : State Client) (posted : Posted Client) (queue : List (Posted Client)) :
    State Client :=
  { state with
    server := (receive state.server posted.mail.c2s).1
    sending := (receive state.server posted.mail.c2s).2
    queue
    history := state.history ++ [posted] }

omit [DecidableEq Client] in
theorem isLogin_of_text {posted : Posted Client} {id : Int32} {str : List Byte}
    (sent : posted.mail.meaning = .text id str) : posted.isLogin = true := by
  rw [Posted.isLogin, sent]

omit [DecidableEq Client] in
theorem isLogin_of_logout {posted : Posted Client} {id : Int32}
    (out : posted.mail.meaning = .logout id) : posted.isLogin = false := by
  rw [Posted.isLogin, out]

/-- A login is owed to the clients in the list, and to the one that has logged in. -/
theorem Consistent.follow_text (consistent : Consistent before) {posted : Posted Client}
    {id : Int32} {str : List Byte} (sent : posted.mail.meaning = .text id str) (other : Client) :
    (before.history ++ [posted]).foldl (follow other) (false, []) =
      if other ∈ roster before.history ++ [posted.sender] then
        (true, owed other before.history ++ [(id.toInt, login)])
      else before.history.foldl (follow other) (false, []) := by
  have on_ : ((before.history.foldl (follow other) (false, [])).1 || posted.sender = other) = true ↔
      other ∈ roster before.history ++ [posted.sender] := by
    rw [Bool.or_eq_true, decide_eq_true_eq, consistent.attending, List.mem_append,
      List.mem_singleton, @eq_comm _ other]
  rw [follow_concat, follow, sent]
  simp only [on_]
  rfl

/-- A logout changes nothing in what is owed. -/
theorem Consistent.follow_logout (consistent : Consistent before) {posted : Posted Client}
    {id : Int32} (out : posted.mail.meaning = .logout id) (other : Client) :
    owed other (before.history ++ [posted]) = owed other before.history ∧
      (((before.history ++ [posted]).foldl (follow other) (false, [])).1 = true ↔
        other ∈ (roster before.history).erase posted.sender) := by
  rw [owed, follow_concat, follow, out]
  refine ⟨rfl, ?_⟩
  dsimp only
  rw [Bool.and_eq_true, consistent.attending, decide_eq_true_eq, consistent.once.mem_erase_iff,
    ne_comm]
  exact and_comm

/-- Who has not sent the message has the same messages waiting as before. -/
theorem Consistent.agrees_other (consistent : Consistent before) {posted : Posted Client}
    {queue : List (Posted Client)} (there : before.queue = posted :: queue) {other : Client}
    (different : other ≠ posted.sender) :
    Agrees (before.place other) (pending queue other) (other ∈ roster before.history) := by
  have kept := consistent.agrees other
  rw [there, pending_cons, if_neg (Ne.symm different)] at kept
  exact kept

/-- The login that the server has not received yet was not received before, either. -/
theorem early_of_received {posted : Posted Client} {queue : List (Posted Client)}
    (there : before.queue = posted :: queue) (last : pending queue posted.sender = [])
    {other : Client} (later : Early (before.received posted queue) other) : Early before other := by
  change before.place other = .start ∨ before.place other = .created ∨
    pending queue other = [true] at later
  rw [Early, there, pending_cons]
  by_cases same : posted.sender = other
  · subst same
    rw [last] at later
    rcases later with starts | created | entered
    · exact .inl starts
    · exact .inr (.inl created)
    · cases entered
  · rw [if_neg same]
    exact later

omit [DecidableEq Client] in
theorem received_history (state : State Client) (posted : Posted Client)
    (queue : List (Posted Client)) :
    (state.received posted queue).history = state.history ++ [posted] := rfl

/-- The list gets a client that was not in it. -/
theorem Consistent.once_enter (consistent : Consistent before)
    (absent : who ∉ roster before.history) : (roster before.history ++ [who]).Nodup := by
  rw [← List.concat_eq_append]
  exact consistent.once.concat absent

/-- The identifier of a client that has a queue belongs to nobody in the list. -/
theorem Consistent.distinct_enter (consistent : Consistent before)
    (lives : (before.place who).live = true) : ∀ first ∈ roster before.history ++ [who],
      ∀ second, (before.place second).live = true ∨ second ∈ roster before.history ++ [who] →
        before.clientId first = before.clientId second → first = second := by
  intro first member second there equal
  have used : (before.place second).live = true ∨ second ∈ roster before.history := by
    rcases there with both | listed
    · exact .inl both
    · rcases List.mem_append.mp listed with earlier | last
      · exact .inr earlier
      · rw [List.mem_singleton.mp last]
        exact .inl lives
  rcases List.mem_append.mp member with earlier | last
  · exact consistent.distinct first earlier second used equal
  · rw [List.mem_singleton.mp last] at equal ⊢
    rcases used with both | listed
    · have mine := (consistent.owned _ who).mpr ⟨lives, equal⟩
      have yours := (consistent.owned _ second).mpr ⟨both, rfl⟩
      exact Option.some.inj (mine.symm.trans yours)
    · exact (consistent.distinct second listed who (.inl lives) equal.symm).symm

/-- What the server sends for a login goes to the clients that should get it. -/
theorem Consistent.due_login (consistent : Consistent before) {posted : Posted Client}
    (sent : posted.mail.meaning = .text (before.clientId posted.sender) login)
    (lives : (before.place posted.sender).live = true)
    (absent : posted.sender ∉ roster before.history) {other : Client}
    (both : (before.place other).live = true) :
    owed other before.history ++ due (receive before.server posted.mail.c2s).2
      (before.clientId other) = owed other (before.history ++ [posted]) := by
  have distinct := consistent.distinct_enter lives
  have nodup : ((roster before.history ++ [posted.sender]).map before.clientId).Nodup :=
    (consistent.once_enter absent).map_on fun first member second there =>
      distinct first member second (.inr there)
  have listed : before.clientId other ∈
      (roster before.history ++ [posted.sender]).map before.clientId ↔
        other ∈ roster before.history ++ [posted.sender] := by
    refine ⟨fun member => ?_, List.mem_map_of_mem⟩
    obtain ⟨client, member, equal⟩ := List.mem_map.mp member
    exact distinct client member other (.inl both) equal ▸ member
  have ids : before.server.idFirst ++ [before.clientId posted.sender] =
      (roster before.history ++ [posted.sender]).map before.clientId := by
    rw [consistent.listed, List.map_append, List.map_singleton]
  have sends := due_of_nodup nodup (before.clientId other)
    ((before.clientId posted.sender).toInt, login)
  rw [receive_login before.server sent, ids, sends]
  change (before.history.foldl (follow other) (false, [])).2 ++ _ =
    ((before.history ++ [posted]).foldl (follow other) (false, [])).2
  rw [consistent.follow_text sent]
  by_cases member : other ∈ roster before.history ++ [posted.sender]
  · rw [if_pos member, if_pos (listed.mpr member)]
    rfl
  · rw [if_neg member, if_neg fun there => member (listed.mp there), List.append_nil]

/-- A login that the server receives: its client was not in the list, and has a queue. -/
theorem Consistent.receiveLogin (consistent : Consistent before) {posted : Posted Client}
    {queue : List (Posted Client)} (idle : before.sending = [])
    (there : before.queue = posted :: queue)
    (sent : posted.mail.meaning = .text (before.clientId posted.sender) login) :
    Consistent (before.received posted queue) := by
  obtain ⟨entered, _⟩ := @receive_text before.server _ _ _ sent
  have isLogin := isLogin_of_text sent
  have agrees := consistent.agrees posted.sender
  rw [there, pending_cons, if_pos rfl, isLogin] at agrees
  obtain ⟨last, notCreated, knows, _, later⟩ := agrees.receive
  obtain ⟨absent, lives⟩ := knows rfl
  have members : roster (before.received posted queue).history =
      roster before.history ++ [posted.sender] := by
    rw [received_history, roster_concat, enter, if_pos isLogin]
  have ids : before.server.idFirst ++ [before.clientId posted.sender] =
      (roster before.history ++ [posted.sender]).map before.clientId := by
    rw [consistent.listed, List.map_append, List.map_singleton]
  constructor
  case listed =>
    rw [members]
    exact entered.trans ids
  case once =>
    rw [members]
    exact consistent.once_enter absent
  case agrees =>
    intro other
    change Agrees (before.place other) (pending queue other) _
    rw [members, List.mem_append, List.mem_singleton]
    by_cases same : other = posted.sender
    · subst same
      rw [last]
      exact later _ ⟨fun _ => rfl, fun _ => .inr rfl⟩
    · have unchanged : (other ∈ roster before.history ∨ other = posted.sender) =
          (other ∈ roster before.history) := propext (or_iff_left same)
      rw [unchanged]
      exact consistent.agrees_other there same
  case owned => exact consistent.owned
  case distinct =>
    rw [members]
    exact consistent.distinct_enter lives
  case meaning =>
    intro other member
    exact consistent.meaning other (there ▸ List.mem_cons_of_mem _ member)
  case positive => exact consistent.positive
  case attending =>
    intro other
    rw [members, received_history, consistent.follow_text sent]
    split
    · rename_i member
      exact ⟨fun _ => member, fun _ => rfl⟩
    · rename_i absent
      rw [consistent.attending]
      exact ⟨fun member => List.mem_append_left _ member, fun member => absurd member absent⟩
  case early =>
    intro other early
    have different : other ≠ posted.sender := by
      rintro rfl
      change before.place posted.sender = .start ∨ before.place posted.sender = .created ∨
        pending queue posted.sender = [true] at early
      rw [last] at early
      rcases early with starts | created | entered
      · rw [starts] at lives
        cases lives
      · exact notCreated created
      · cases entered
    have earlier := early_of_received there last early
    obtain ⟨nothing, sofar⟩ := consistent.early other earlier
    have unlisted : other ∉ roster before.history ++ [posted.sender] := by
      rw [List.mem_append, List.mem_singleton]
      exact not_or.mpr ⟨consistent.unlisted earlier, different⟩
    refine ⟨nothing, ?_⟩
    rw [owed, received_history, consistent.follow_text sent, if_neg unlisted]
    exact sofar
  case informed =>
    intro other both
    have sofar := consistent.informed other both
    rw [idle, due, List.filter_nil, List.map_nil, List.append_nil] at sofar
    rw [received_history, ← consistent.due_login sent lives absent both, ← sofar]
    rfl
  case recipients =>
    change ∀ delivery ∈ (receive before.server posted.mail.c2s).2,
      delivery.queue ∈ (receive before.server posted.mail.c2s).1.idFirst ∧ 0 < delivery.priority
    rw [receive_login before.server sent, entered]
    intro delivery member
    obtain ⟨queue, inside, rfl⟩ := List.mem_map.mp member
    exact ⟨inside, Int32.lt_iff_toInt_lt.mp (consistent.positive posted.sender lives)⟩

/-- A logout that the server receives: its client was in the list. -/
theorem Consistent.receiveLogout (consistent : Consistent before) {posted : Posted Client}
    {queue : List (Posted Client)} (idle : before.sending = [])
    (there : before.queue = posted :: queue)
    (out : posted.mail.meaning = .logout (before.clientId posted.sender)) :
    Consistent (before.received posted queue) := by
  obtain ⟨removed, silent⟩ := @receive_logout before.server _ _ out
  have isLogin := isLogin_of_logout out
  have agrees := consistent.agrees posted.sender
  rw [there, pending_cons, if_pos rfl, isLogin] at agrees
  obtain ⟨last, _, _, knows, later⟩ := agrees.receive
  have present := knows rfl
  have members : roster (before.received posted queue).history =
      (roster before.history).erase posted.sender := by
    rw [received_history, roster_concat, enter,
      if_neg (by rw [isLogin]; exact Bool.false_ne_true)]
  have subset : ∀ {other}, other ∈ (roster before.history).erase posted.sender →
      other ∈ roster before.history := fun member => List.mem_of_mem_erase member
  constructor
  case listed =>
    rw [members]
    refine removed.trans ?_
    rw [consistent.listed]
    refine map_erase_of_distinct fun other member equal => ?_
    exact consistent.distinct other member posted.sender (.inr present) equal
  case once =>
    rw [members]
    exact consistent.once.erase _
  case agrees =>
    intro other
    change Agrees (before.place other) (pending queue other) _
    rw [members]
    by_cases same : other = posted.sender
    · subst same
      rw [last]
      refine later _ ⟨fun member => ?_, fun in_ => by cases in_⟩
      exact absurd member consistent.once.not_mem_erase
    · rw [List.mem_erase_of_ne same]
      exact consistent.agrees_other there same
  case owned => exact consistent.owned
  case distinct =>
    rw [members]
    intro first member second used
    exact consistent.distinct first (subset member) second (used.imp_right subset)
  case meaning =>
    intro other member
    exact consistent.meaning other (there ▸ List.mem_cons_of_mem _ member)
  case positive => exact consistent.positive
  case attending =>
    intro other
    rw [members]
    exact (consistent.follow_logout out other).2
  case early =>
    intro other early
    obtain ⟨nothing, sofar⟩ := consistent.early other (early_of_received there last early)
    exact ⟨nothing, (consistent.follow_logout out other).1.trans sofar⟩
  case informed =>
    intro other both
    change before.put other ++ due (receive before.server posted.mail.c2s).2
      (before.clientId other) = owed other (before.history ++ [posted])
    rw [silent, (consistent.follow_logout out other).1, ← consistent.informed other both, idle]
  case recipients =>
    change ∀ delivery ∈ (receive before.server posted.mail.c2s).2, _
    rw [silent]
    intro delivery member
    cases member

theorem due_cons (delivery : Delivery) (sending : List Delivery) (id : Int32) :
    due (delivery :: sending) id =
      if delivery.queue = id then content delivery :: due sending id else due sending id := by
  rw [due, List.filter_cons]
  simp only [decide_eq_true_eq]
  split
  · rfl
  · rfl

/-- What is put into a queue. -/
theorem put_msgsnd (state : State Client) {delivery : Delivery}
    (positive : 0 < delivery.priority) (other : Client) :
    (state.msgsnd delivery).put other =
      if state.owner delivery.queue = some other then state.put other ++ [content delivery]
      else state.put other := by
  rw [State.msgsnd]
  cases owns : state.owner delivery.queue with
  | none => rw [if_neg (by intro none_; cases none_)]
  | some client =>
      dsimp only
      rw [if_pos positive]
      by_cases same : other = client
      · subst same
        rw [if_pos rfl]
        exact Function.update_self ..
      · rw [if_neg fun both => same (Option.some.inj both).symm]
        exact Function.update_of_ne same _ _

theorem msgsnd_eq (state : State Client) (delivery : Delivery) :
    state.msgsnd delivery = { state with put := (state.msgsnd delivery).put } := by
  rw [State.msgsnd]
  split
  · split
    · rfl
    · rfl
  · rfl

/-- The next call of `msgsnd` brings the message to the client whose queue it is. -/
theorem Consistent.send (consistent : Consistent before) {delivery : Delivery}
    {sending : List Delivery} (there : before.sending = delivery :: sending) :
    Consistent { before.msgsnd delivery with sending } := by
  have positive : 0 < delivery.priority :=
    (consistent.recipients delivery (there ▸ List.mem_cons_self)).2
  have put := put_msgsnd before positive
  rw [msgsnd_eq]
  constructor
  case listed => exact consistent.listed
  case once => exact consistent.once
  case agrees => exact consistent.agrees
  case owned => exact consistent.owned
  case distinct => exact consistent.distinct
  case meaning => exact consistent.meaning
  case positive => exact consistent.positive
  case attending => exact consistent.attending
  case early =>
    intro other early
    obtain ⟨nothing, sofar⟩ := consistent.early other early
    refine ⟨?_, sofar⟩
    change (before.msgsnd delivery).put other = []
    have foreign : before.owner delivery.queue ≠ some other := by
      intro owns
      obtain ⟨lives, equal⟩ := (consistent.owned _ other).mp owns
      have informed := consistent.informed other lives
      rw [there, due_cons, if_pos equal.symm, nothing, sofar] at informed
      cases informed
    rw [put, if_neg foreign]
    exact nothing
  case informed =>
    intro other lives
    change (before.msgsnd delivery).put other ++ due sending (before.clientId other) = _
    have sofar := consistent.informed other lives
    rw [there, due_cons] at sofar
    have owns : before.owner delivery.queue = some other ↔
        delivery.queue = before.clientId other := by
      rw [consistent.owned]
      exact ⟨fun both => both.2.symm, fun equal => ⟨lives, equal.symm⟩⟩
    rw [put]
    by_cases mine : delivery.queue = before.clientId other
    · rw [if_pos mine] at sofar
      rw [if_pos (owns.mpr mine), List.append_assoc, List.singleton_append]
      exact sofar
    · rw [if_neg mine] at sofar
      rw [if_neg fun both => mine (owns.mp both)]
      exact sofar
  case recipients =>
    intro other member
    exact consistent.recipients other (there ▸ List.mem_cons_of_mem _ member)

/-- The server receives the first message in its queue. -/
theorem Consistent.receive (consistent : Consistent before) {posted : Posted Client}
    {queue : List (Posted Client)} (idle : before.sending = [])
    (there : before.queue = posted :: queue) : Consistent (before.received posted queue) := by
  rcases consistent.meaning posted (there ▸ List.mem_cons_self) with sent | out
  · exact consistent.receiveLogin idle there sent
  · exact consistent.receiveLogout idle there out

theorem consistent_start {state : State Client} (start : Start state) : Consistent state := by
  obtain ⟨clientId, puffer, ids, rfl⟩ := start
  constructor
  case listed => rfl
  case once => exact List.nodup_nil
  case agrees => exact fun _ => ⟨rfl, List.not_mem_nil⟩
  case owned =>
    intro id who
    refine ⟨fun owns => ?_, fun lives => absurd lives.1 Bool.false_ne_true⟩
    cases owns
  case distinct => exact fun _ member => absurd member List.not_mem_nil
  case meaning => exact fun _ member => absurd member List.not_mem_nil
  case positive => exact fun _ lives => absurd lives Bool.false_ne_true
  case attending =>
    exact fun _ => ⟨fun on_ => absurd on_ Bool.false_ne_true,
      fun member => absurd member List.not_mem_nil⟩
  case early => exact fun _ _ => ⟨rfl, rfl⟩
  case informed => exact fun _ lives => absurd lives Bool.false_ne_true
  case recipients => exact fun _ member => absurd member List.not_mem_nil

/-- A client that has got its first message is in the list, and goes on. -/
theorem Consistent.first (consistent : Consistent before) (waits : before.place who = .waiting)
    (got : before.put who ≠ []) : Consistent (before.goTo who .running) := by
  have agrees := consistent.agrees who
  rw [waits] at agrees
  rcases agrees with ⟨entered, _⟩ | listed
  · exact absurd (consistent.early who (.inr (.inr entered))).1 got
  · exact consistent.goTo (by rw [waits]; rfl) rfl listed (by decide)

theorem Consistent.fail (consistent : Consistent before)
    (there : before.place who = .created ∨ before.place who = .waiting ∨
      before.place who = .running) : Consistent (before.goTo who .failed) := by
  have agrees := consistent.agrees who
  rcases there with created | waits | runs
  · rw [created] at agrees
    exact consistent.goTo (by rw [created]; rfl) rfl (.inr agrees.1) (by decide)
  · rw [waits] at agrees
    refine consistent.goTo (by rw [waits]; rfl) rfl ?_ (by decide)
    exact agrees.imp_right fun listed => listed.1
  · rw [runs] at agrees
    exact consistent.goTo (by rw [runs]; rfl) rfl (.inr agrees.1) (by decide)

/-- A client that has its queue logs in. -/
theorem Consistent.login (consistent : Consistent before) (created : before.place who = .created)
    (buffer : Buffer) : Consistent
      ((before.post who (loginMail (before.clientId who) buffer)).goTo who .waiting) := by
  have agrees := consistent.agrees who
  rw [created] at agrees
  apply consistent.advance
  · intro posted member
    rw [List.mem_singleton.mp member]
  · intro posted member
    rw [List.mem_singleton.mp member]
    exact .inl rfl
  · rw [created]
    rfl
  · rfl
  · rw [agrees.1]
    exact .inl ⟨rfl, agrees.2⟩
  · exact fun _ => .inr (.inl created)

/-- A client in its loop logs out. -/
theorem Consistent.logout (consistent : Consistent before) (runs : before.place who = .running)
    (buffer : Buffer) : Consistent
      ((before.post who (logoutMail (before.clientId who) buffer)).goTo who .leaving) := by
  have agrees := consistent.agrees who
  rw [runs] at agrees
  apply consistent.advance
  · intro posted member
    rw [List.mem_singleton.mp member]
  · intro posted member
    rw [List.mem_singleton.mp member]
    exact .inr rfl
  · rw [runs]
    rfl
  · rfl
  · rw [agrees.1]
    exact .inl ⟨rfl, agrees.2⟩
  · rw [agrees.1]
    rintro (created | entered)
    · cases created
    · cases entered

theorem consistent_invariant :
    (broadcast.restrict Fresh).Invariant (Consistent : State Client → Prop) where
  initial := fun _ => consistent_start
  step := by
    rintro before action after consistent ⟨fresh, moved⟩
    change next before action = some after at moved
    cases action with
    | create who id =>
        rw [next, Option.ite_none_right_eq_some] at moved
        obtain ⟨⟨starts, free, positive⟩, moved⟩ := moved
        cases moved
        exact consistent.create starts free positive fresh
    | createFails who => cases fresh
    | login who buffer =>
        rw [next, Option.ite_none_right_eq_some] at moved
        obtain ⟨created, moved⟩ := moved
        cases moved
        exact consistent.login created buffer
    | first who =>
        rw [next, Option.ite_none_right_eq_some] at moved
        obtain ⟨⟨waits, got⟩, moved⟩ := moved
        cases moved
        exact consistent.first waits got
    | logout who buffer =>
        rw [next, Option.ite_none_right_eq_some] at moved
        obtain ⟨runs, moved⟩ := moved
        cases moved
        exact consistent.logout runs buffer
    | remove who =>
        rw [next, Option.ite_none_right_eq_some] at moved
        obtain ⟨leaves, moved⟩ := moved
        cases moved
        exact consistent.remove leaves
    | fail who =>
        rw [next, Option.ite_none_right_eq_some] at moved
        obtain ⟨there, moved⟩ := moved
        cases moved
        exact consistent.fail there
    | receive =>
        simp only [next] at moved
        split at moved
        · rename_i posted queue idle there
          cases moved
          exact consistent.receive idle there
        · cases moved
    | send =>
        simp only [next] at moved
        split at moved
        · rename_i delivery sending there
          cases moved
          exact consistent.send there
        · cases moved

/-- The server goes on after each call of `msgsnd`, whether the queue is there or not. -/
theorem goesOn_of_sending {state : State Client} {delivery : Delivery} {sending : List Delivery}
    (there : state.sending = delivery :: sending) :
    ∃ after, next state .send = some after ∧ after.sending = sending := by
  refine ⟨{ state.msgsnd delivery with sending }, ?_, rfl⟩
  simp only [next, there]

/-- **The login broadcast.** If the identifiers of new queues are not in the server's list,
every client whose queue exists has got each login from its own on once, in order, until
its logout, whenever the server is about to receive. -/
theorem informed_of_reachable {state : State Client}
    (reached : (broadcast.restrict Fresh).Reachable state) : Informed state where
  informed := by
    intro idle who id owns
    have consistent := consistent_invariant.reachable reached
    have informed := consistent.informed who ((consistent.owned id who).mp owns).1
    rw [idle, due, List.filter_nil, List.map_nil, List.append_nil] at informed
    exact informed
  goesOn := fun _ _ => goesOn_of_sending

instance (state : State Client) (action : Action Client) : Decidable (Fresh state action) :=
  match action with
  | .create _ id => inferInstanceAs (Decidable (id ∉ state.server.idFirst))
  | .createFails _ => .isFalse id
  | .login _ _ | .first _ | .logout _ _ | .remove _ | .fail _ | .receive | .send => .isTrue trivial

instance (state : State Client) (action : Action Client) : Decidable (Created state action) :=
  match action with
  | .createFails _ => .isFalse id
  | .create _ _ | .login _ _ | .first _ | .logout _ _ | .remove _ | .fail _ | .receive | .send =>
      .isTrue trivial

/-- An array of zeros. -/
def zeros : Buffer where
  bytes := List.replicate msgLen 0
  room := List.length_replicate

/-- The server without clients. -/
def State.init : State Client where
  server := MessageServer.start 0 []
  queue := []
  sending := []
  owner := fun _ => none
  place := fun _ => .start
  clientId := fun _ => 0
  put := fun _ => []
  history := []

/-- Two clients log in, and the first one logs out and removes its queue while the server
sends it the login of the second. -/
def overtaking : List (Action ℕ) :=
  [.create 0 5, .login 0 zeros, .receive, .send, .create 1 9, .login 1 zeros, .first 0, .receive,
    .logout 0 zeros, .remove 0, .send, .send]

theorem informed_of_overtaking : ∃ state : State ℕ,
    run (guarded Fresh next) State.init overtaking = some state ∧ Informed state := by
  have executed : (run (guarded Fresh next) State.init overtaking).isSome = true := by
    decide +kernel
  obtain ⟨state, executed⟩ := Option.isSome_iff_exists.mp executed
  have started : (broadcast.restrict Fresh).Reachable (State.init : State ℕ) :=
    .initial ⟨0, [], fun _ => 0, rfl⟩
  exact ⟨state, executed, informed_of_reachable (.of_run started executed)⟩

/-- Client 0 logs out and removes its queue while a login of client 2 waits, and client 1 gets
a queue with the same identifier before the server has received the logout. -/
def reused : List (Action ℕ) :=
  [.create 0 5, .login 0 zeros, .receive, .send, .first 0, .create 2 9, .login 2 zeros,
    .logout 0 zeros, .remove 0, .create 1 5, .receive, .send, .send]

/-- Client 1 has got a login although it has not logged in. -/
theorem not_informed_of_reused :
    ¬ ∀ state : State ℕ, (broadcast.restrict Created).Reachable state → Informed state := by
  intro informed
  have broken : ((run (guarded Created next) State.init reused).map fun state =>
      decide (state.sending = [] ∧ state.owner 5 = some 1 ∧ state.put 1 ≠ owed 1 state.history)) =
        some true := by decide +kernel
  obtain ⟨state, executed, violated⟩ := Option.map_eq_some_iff.mp broken
  obtain ⟨idle, owns, wrong⟩ := of_decide_eq_true violated
  have started : (broadcast.restrict Created).Reachable (State.init : State ℕ) :=
    .initial ⟨0, [], fun _ => 0, rfl⟩
  exact wrong ((informed state (.of_run started executed)).informed idle 1 5 owns)

end LinuxUnix.LoginBroadcast

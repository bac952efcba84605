import LinuxUnix.Foundation.Keyed
import LinuxUnix.Ipc.LoginBroadcast

/-! # The clients in the list of the message-queue server

The list of the server holds the identifiers of the clients that it has entered and not
taken out (`LinuxUnix.LoginBroadcast.roster`), whatever these clients have done since. Where
a client is says what it has in the queue of the server, and whether it is in the list
(`LinuxUnix.LoginBroadcast.Agrees`). No identifier in the list belongs to another client
than the one that the server knows, if the identifiers of new queues are not in it
(`LinuxUnix.LoginBroadcast.Consistent`).
-/

namespace LinuxUnix.LoginBroadcast

open CMemory Decimal MessageServer TransitionSystem

/-- The client has a queue. -/
def At.live : At → Bool
  | .start | .ended => false
  | .created | .waiting | .running | .leaving | .failed => true

/-- What a client can have in the queue of the server, a login (`true`) or a logout, and
whether it can be in the list. -/
def Agrees : At → List Bool → Prop → Prop
  | .start, pending, attending => pending = [] ∧ ¬ attending
  | .created, pending, attending => pending = [] ∧ ¬ attending
  | .waiting, pending, attending =>
      (pending = [true] ∧ ¬ attending) ∨ (pending = [] ∧ attending)
  | .running, pending, attending => pending = [] ∧ attending
  | .leaving, pending, attending =>
      (pending = [false] ∧ attending) ∨ (pending = [] ∧ ¬ attending)
  | .ended, pending, attending =>
      (pending = [false] ∧ attending) ∨ (pending = [] ∧ ¬ attending)
  | .failed, pending, attending => (pending = [true] ∧ ¬ attending) ∨ pending = []

section

variable {Client : Type*} [DecidableEq Client]

def Posted.isLogin (posted : Posted Client) : Bool :=
  match posted.mail.meaning with
  | .text _ _ => true
  | .logout _ => false

/-- What a client has in the queue of the server. -/
def pending (queue : List (Posted Client)) (who : Client) : List Bool :=
  (queue.filter (·.sender = who)).map Posted.isLogin

/-- The clients in the list after another message. -/
def enter (roster : List Client) (posted : Posted Client) : List Client :=
  if posted.isLogin then roster ++ [posted.sender] else roster.erase posted.sender

/-- The clients in the list. -/
def roster (history : List (Posted Client)) : List Client :=
  history.foldl enter []

/-- What `verteilen` has still to send to a queue. -/
def due (sending : List Delivery) (id : Int32) : List Text :=
  (sending.filter (·.queue = id)).map content

/-- The server has not received the client's login. -/
def Early (state : State Client) (who : Client) : Prop :=
  state.place who = .start ∨ state.place who = .created ∨ pending state.queue who = [true]

/-- The clients, the server and the queues fit together. -/
structure Consistent (state : State Client) : Prop where
  listed : state.server.idFirst = (roster state.history).map state.clientId
  once : (roster state.history).Nodup
  agrees : ∀ who, Agrees (state.place who) (pending state.queue who) (who ∈ roster state.history)
  owned : ∀ id who, state.owner id = some who ↔
    (state.place who).live = true ∧ state.clientId who = id
  distinct : ∀ first ∈ roster state.history, ∀ second,
    (state.place second).live = true ∨ second ∈ roster state.history →
      state.clientId first = state.clientId second → first = second
  meaning : ∀ posted ∈ state.queue,
    posted.mail.meaning = .text (state.clientId posted.sender) login ∨
      posted.mail.meaning = .logout (state.clientId posted.sender)
  positive : ∀ who, (state.place who).live = true → 0 < state.clientId who
  attending : ∀ who, (state.history.foldl (follow who) (false, [])).1 = true ↔
    who ∈ roster state.history
  early : ∀ who, Early state who → state.put who = [] ∧ owed who state.history = []
  informed : ∀ who, (state.place who).live = true →
    state.put who ++ due state.sending (state.clientId who) = owed who state.history
  recipients : ∀ delivery ∈ state.sending,
    delivery.queue ∈ state.server.idFirst ∧ 0 < delivery.priority

variable {before after : State Client} {who : Client}

theorem roster_concat (history : List (Posted Client)) (posted : Posted Client) :
    roster (history ++ [posted]) = enter (roster history) posted := by
  rw [roster, List.foldl_append]
  rfl

theorem follow_concat (who : Client) (history : List (Posted Client)) (posted : Posted Client) :
    (history ++ [posted]).foldl (follow who) (false, []) =
      follow who (history.foldl (follow who) (false, [])) posted := by
  rw [List.foldl_append]
  rfl

theorem pending_append (queue more : List (Posted Client)) (who : Client) :
    pending (queue ++ more) who = pending queue who ++ pending more who := by
  rw [pending, List.filter_append, List.map_append]
  rfl

theorem pending_cons (posted : Posted Client) (queue : List (Posted Client)) (who : Client) :
    pending (posted :: queue) who =
      if posted.sender = who then posted.isLogin :: pending queue who else pending queue who := by
  rw [pending, List.filter_cons]
  simp only [decide_eq_true_eq]
  split
  · rfl
  · rfl

/-- To take an identifier out is to take its client out, if no other client has it. -/
theorem map_erase_of_distinct {ids : Client → Int32} {clients : List Client}
    (distinct : ∀ other ∈ clients, ids other = ids who → other = who) :
    (clients.map ids).erase (ids who) = (clients.erase who).map ids := by
  induction clients with
  | nil => rfl
  | cons client clients ih =>
      rw [List.map_cons, List.erase_cons, List.erase_cons]
      by_cases same : client = who
      · subst same
        rw [if_pos (beq_self_eq_true _), if_pos (beq_self_eq_true _)]
      · have other : ids client ≠ ids who := fun equal =>
          same (distinct client List.mem_cons_self equal)
        rw [if_neg (by rw [beq_iff_eq]; exact other), if_neg (by rw [beq_iff_eq]; exact same),
          List.map_cons, ih fun other member => distinct other (List.mem_cons_of_mem _ member)]

/-- A queue whose identifier is in the list gets one message. -/
theorem due_of_nodup {ids : List Int32} (once : ids.Nodup) (id : Int32) (text : Text) :
    due (ids.map fun queue => { queue, priority := text.1, message := text.2 }) id =
      if id ∈ ids then [text] else [] := by
  have selected := @Keyed.select_of_nodup _ _ _ ids once
    (fun queue => ({ queue, priority := text.1, message := text.2 } : Delivery)) Delivery.queue
    (fun _ => rfl) id
  rw [due, selected]
  split
  · rfl
  · rfl

/-- What the server sends for a login. -/
theorem receive_login (server : Server) {mail : Mail} {id : Int32}
    (sent : mail.meaning = .text id login) : (receive server mail.c2s).2 =
      (server.idFirst ++ [id]).map fun queue =>
        { queue, priority := id.toInt, message := login } := by
  have word : scanWord login server.puffer = overwrite server.puffer 0 (login ++ [0]) := rfl
  have text : cstr (overwrite server.puffer 0 (login ++ [0])) = login := by
    rw [cstr_overwrite]
    rfl
  rw [(receive_text sent).2, verteilen, word, text]

/-- The message that the server receives is the only one of its sender. -/
theorem Agrees.receive {at_ : At} {login : Bool} {rest : List Bool} {attending : Prop}
    (agrees : Agrees at_ (login :: rest) attending) :
    rest = [] ∧ at_ ≠ .created ∧ (login = true → ¬ attending ∧ at_.live = true) ∧
      (login = false → attending) ∧ ∀ later, (later ↔ login = true) → Agrees at_ [] later := by
  cases at_ with
  | start | created | running => cases agrees.1
  | waiting =>
      obtain ⟨there, absent⟩ | ⟨none_, _⟩ := agrees
      · cases there
        exact ⟨rfl, by decide, fun _ => ⟨absent, rfl⟩, (by intro out; cases out),
          fun _ entered => .inr ⟨rfl, entered.mpr rfl⟩⟩
      · cases none_
  | leaving | ended =>
      obtain ⟨there, present⟩ | ⟨none_, _⟩ := agrees
      · cases there
        exact ⟨rfl, by decide, (by intro in_; cases in_), fun _ => present,
          fun _ entered => .inr ⟨rfl, fun stays => absurd (entered.mp stays) (by decide)⟩⟩
      · cases none_
  | failed =>
      obtain ⟨there, absent⟩ | none_ := agrees
      · cases there
        exact ⟨rfl, by decide, fun _ => ⟨absent, rfl⟩, (by intro out; cases out),
          fun _ _ => .inr rfl⟩
      · cases none_

theorem goTo_self (state : State Client) (at_ : At) : (state.goTo who at_).place who = at_ :=
  Function.update_self _ _ _

theorem goTo_other (state : State Client) (at_ : At) {other : Client} (different : other ≠ who) :
    (state.goTo who at_).place other = state.place other :=
  Function.update_of_ne different _ _

theorem pending_of_other {more : List (Posted Client)} (own : ∀ posted ∈ more, posted.sender = who)
    {other : Client} (different : other ≠ who) : pending more other = [] := by
  rw [pending, List.map_eq_nil_iff, List.filter_eq_nil_iff]
  intro posted member
  rw [own posted member, decide_eq_true_eq]
  exact Ne.symm different

theorem pending_of_own {more : List (Posted Client)} (own : ∀ posted ∈ more, posted.sender = who) :
    pending more who = more.map Posted.isLogin := by
  rw [pending, List.filter_eq_self.mpr]
  intro posted member
  rw [own posted member, decide_eq_true_eq]

/-- A client that has a queue goes on, and may send a message. -/
theorem Consistent.advance (consistent : Consistent before) {at_ : At}
    {more : List (Posted Client)} (own : ∀ posted ∈ more, posted.sender = who)
    (meaning : ∀ posted ∈ more, posted.mail.meaning = .text (before.clientId who) login ∨
      posted.mail.meaning = .logout (before.clientId who))
    (lives : (before.place who).live = true) (stays : at_.live = true)
    (agrees : Agrees at_ (pending before.queue who ++ more.map Posted.isLogin)
      (who ∈ roster before.history))
    (early : at_ = .created ∨ pending before.queue who ++ more.map Posted.isLogin = [true] →
      Early before who) :
    Consistent ({ before with queue := before.queue ++ more }.goTo who at_) := by
  have live : ∀ other, ((before.goTo who at_).place other).live = (before.place other).live := by
    intro other
    by_cases same : other = who
    · subst same
      rw [goTo_self, stays, lives]
    · rw [goTo_other before at_ same]
  constructor
  case listed => exact consistent.listed
  case once => exact consistent.once
  case agrees =>
    intro other
    change Agrees ((before.goTo who at_).place other) (pending (before.queue ++ more) other) _
    rw [pending_append]
    by_cases same : other = who
    · subst same
      rw [goTo_self, pending_of_own own]
      exact agrees
    · rw [goTo_other before at_ same, pending_of_other own same, List.append_nil]
      exact consistent.agrees other
  case owned =>
    intro id other
    exact (consistent.owned id other).trans (by rw [← live]; rfl)
  case distinct =>
    intro first member second used
    refine consistent.distinct first member second ?_
    rw [← live]
    exact used
  case meaning =>
    intro posted member
    cases List.mem_append.mp member with
    | inl earlier => exact consistent.meaning posted earlier
    | inr last =>
        have meant := meaning posted last
        rw [← own posted last] at meant
        exact meant
  case positive =>
    intro other lives
    refine consistent.positive other ?_
    rw [← live]
    exact lives
  case attending => exact consistent.attending
  case early =>
    intro other later
    refine consistent.early other ?_
    change (before.goTo who at_).place other = .start ∨
      (before.goTo who at_).place other = .created ∨
        pending (before.queue ++ more) other = [true] at later
    rw [pending_append] at later
    by_cases same : other = who
    · subst same
      rw [goTo_self, pending_of_own own] at later
      rcases later with starts | later
      · rw [starts] at stays
        cases stays
      · exact early later
    · rw [goTo_other before at_ same, pending_of_other own same, List.append_nil] at later
      exact later
  case informed =>
    intro other lives
    refine consistent.informed other ?_
    rw [← live]
    exact lives
  case recipients => exact consistent.recipients

/-- A client that goes on without a message. -/
theorem Consistent.goTo (consistent : Consistent before) {at_ : At}
    (lives : (before.place who).live = true) (stays : at_.live = true)
    (agrees : Agrees at_ (pending before.queue who) (who ∈ roster before.history))
    (different : at_ ≠ .created) : Consistent (before.goTo who at_) := by
  have advance := @Consistent.advance _ _ before who consistent at_ []
    (by intro _ member; cases member) (by intro _ member; cases member) lives stays
  rw [List.map_nil, List.append_nil, List.append_nil] at advance
  exact advance agrees fun early => .inr (.inr (early.resolve_left different))

/-- A client that has not started is unknown. -/
theorem Consistent.unknown (consistent : Consistent before) (starts : before.place who = .start) :
    pending before.queue who = [] ∧ who ∉ roster before.history := by
  have agrees := consistent.agrees who
  rw [starts] at agrees
  exact agrees

/-- A client whose login the server has not received is not in the list. -/
theorem Consistent.unlisted (consistent : Consistent before) (early : Early before who) :
    who ∉ roster before.history := by
  have agrees := consistent.agrees who
  rcases early with starts | created | entered
  · exact (consistent.unknown starts).2
  · rw [created] at agrees
    exact agrees.2
  · rw [entered] at agrees
    exact (agrees.receive.2.2.1 rfl).1

/-- A message in the queue of the server has a sender that is known. -/
theorem sender_ne_of_pending {queue : List (Posted Client)} (nothing : pending queue who = [])
    {posted : Posted Client} (member : posted ∈ queue) : posted.sender ≠ who := by
  rw [pending, List.map_eq_nil_iff, List.filter_eq_nil_iff] at nothing
  intro own
  exact nothing posted member (decide_eq_true own)

/-- The new queue is the client's, and the others keep theirs. -/
theorem Consistent.owned_create (consistent : Consistent before)
    (starts : before.place who = .start) {id : Int32} (free : before.owner id = none)
    (key : Int32) (other : Client) :
    Function.update before.owner id (some who) key = some other ↔
      ((before.goTo who .created).place other).live = true ∧
        Function.update before.clientId who id other = key := by
  by_cases same : other = who
  · subst same
    rw [goTo_self, Function.update_self]
    by_cases own : key = id
    · subst own
      rw [Function.update_self]
      exact ⟨fun _ => ⟨rfl, rfl⟩, fun _ => rfl⟩
    · rw [Function.update_of_ne own, consistent.owned, starts]
      exact ⟨fun lives => absurd lives.1 (by decide), fun equal => absurd equal.2.symm own⟩
  · rw [goTo_other before _ same, Function.update_of_ne same, ← consistent.owned]
    by_cases own : key = id
    · subst own
      rw [Function.update_self, free, Option.some_inj]
      exact ⟨fun equal => absurd equal.symm same, fun none_ => by cases none_⟩
    · rw [Function.update_of_ne own]

/-- Nothing is sent to a queue that is not in the list. -/
theorem Consistent.due_of_unlisted (consistent : Consistent before) {id : Int32}
    (fresh : id ∉ before.server.idFirst) : due before.sending id = [] := by
  rw [due, List.map_eq_nil_iff, List.filter_eq_nil_iff]
  intro delivery member equal
  exact fresh (of_decide_eq_true equal ▸ (consistent.recipients delivery member).1)

/-- A client gets a queue with an identifier that is not in the list. -/
theorem Consistent.create (consistent : Consistent before) (starts : before.place who = .start)
    {id : Int32} (free : before.owner id = none) (positive : 0 < id)
    (fresh : id ∉ before.server.idFirst) :
    Consistent ({ before with
      owner := Function.update before.owner id (some who)
      clientId := Function.update before.clientId who id }.goTo who .created) := by
  obtain ⟨silent, absent⟩ := consistent.unknown starts
  have ids : ∀ other, other ≠ who → Function.update before.clientId who id other =
      before.clientId other := fun other different => Function.update_of_ne different _ _
  have known : ∀ other ∈ roster before.history, other ≠ who := by
    rintro other member rfl
    exact absent member
  have listed : ∀ other ∈ roster before.history, before.clientId other ≠ id := by
    rintro other member rfl
    rw [consistent.listed] at fresh
    exact fresh (List.mem_map_of_mem member)
  constructor
  case listed =>
    refine consistent.listed.trans (List.map_congr_left fun other member => ?_)
    exact (ids other (known other member)).symm
  case once => exact consistent.once
  case agrees =>
    intro other
    change Agrees ((before.goTo who .created).place other) (pending before.queue other) _
    by_cases same : other = who
    · subst same
      rw [goTo_self]
      exact ⟨silent, absent⟩
    · rw [goTo_other before _ same]
      exact consistent.agrees other
  case owned => exact consistent.owned_create starts free
  case distinct =>
    intro first member second used
    change Function.update before.clientId who id first =
      Function.update before.clientId who id second → first = second
    rw [ids first (known first member)]
    by_cases same : second = who
    · subst same
      rw [Function.update_self]
      exact fun equal => absurd equal (listed first member)
    · rw [ids second same]
      refine consistent.distinct first member second ?_
      rw [← goTo_other before .created same]
      exact used
  case meaning =>
    intro posted member
    change posted.mail.meaning = .text (Function.update before.clientId who id posted.sender) _ ∨
      posted.mail.meaning = .logout (Function.update before.clientId who id posted.sender)
    rw [ids posted.sender (sender_ne_of_pending silent member)]
    exact consistent.meaning posted member
  case positive =>
    intro other lives
    change 0 < Function.update before.clientId who id other
    by_cases same : other = who
    · subst same
      rw [Function.update_self]
      exact positive
    · rw [ids other same]
      refine consistent.positive other ?_
      rw [← goTo_other before .created same]
      exact lives
  case attending => exact consistent.attending
  case early =>
    intro other later
    refine consistent.early other ?_
    by_cases same : other = who
    · subst same
      exact .inl starts
    · rw [Early, ← goTo_other before .created same]
      exact later
  case informed =>
    intro other lives
    change before.put other ++ due before.sending (Function.update before.clientId who id other) = _
    by_cases same : other = who
    · subst same
      obtain ⟨nothing, early⟩ := consistent.early other (.inl starts)
      rw [Function.update_self, nothing, consistent.due_of_unlisted fresh]
      exact early.symm
    · rw [ids other same]
      refine consistent.informed other ?_
      rw [← goTo_other before .created same]
      exact lives
  case recipients => exact consistent.recipients

/-- A client that has removed its queue has none, and the others keep theirs. -/
theorem live_ended (state : State Client) (who other : Client) :
    ((state.goTo who .ended).place other).live = true ↔
      (state.place other).live = true ∧ other ≠ who := by
  by_cases same : other = who
  · subst same
    rw [goTo_self]
    exact ⟨fun lives => absurd lives (by decide), fun lives => absurd rfl lives.2⟩
  · rw [goTo_other state _ same]
    exact ⟨fun lives => ⟨lives, same⟩, fun lives => lives.1⟩

theorem Consistent.owned_remove (consistent : Consistent before)
    (leaves : before.place who = .leaving) (key : Int32) (other : Client) :
    Function.update before.owner (before.clientId who) none key = some other ↔
      ((before.goTo who .ended).place other).live = true ∧ before.clientId other = key := by
  have own : before.owner (before.clientId who) = some who :=
    (consistent.owned _ who).mpr ⟨by rw [leaves]; rfl, rfl⟩
  rw [live_ended]
  by_cases removed : key = before.clientId who
  · subst removed
    rw [Function.update_self]
    constructor
    · intro none_
      cases none_
    · rintro ⟨⟨lives, different⟩, equal⟩
      have both := own.symm.trans ((consistent.owned _ other).mpr ⟨lives, equal⟩)
      exact absurd (Option.some.inj both).symm different
  · rw [Function.update_of_ne removed, consistent.owned]
    constructor
    · rintro ⟨lives, rfl⟩
      refine ⟨⟨lives, ?_⟩, rfl⟩
      rintro rfl
      exact removed rfl
    · exact fun lives => ⟨lives.1.1, lives.2⟩

/-- A client that has logged out removes its queue. -/
theorem Consistent.remove (consistent : Consistent before) (leaves : before.place who = .leaving) :
    Consistent ({ before with
      owner := Function.update before.owner (before.clientId who) none }.goTo who .ended) := by
  have lived : ∀ {other}, ((before.goTo who .ended).place other).live = true →
      (before.place other).live = true := fun lives => ((live_ended before who _).mp lives).1
  constructor
  case listed => exact consistent.listed
  case once => exact consistent.once
  case agrees =>
    intro other
    change Agrees ((before.goTo who .ended).place other) (pending before.queue other) _
    have agrees := consistent.agrees other
    by_cases same : other = who
    · subst same
      rw [leaves] at agrees
      rw [goTo_self]
      exact agrees
    · rw [goTo_other before _ same]
      exact agrees
  case owned => exact consistent.owned_remove leaves
  case distinct =>
    intro first member second used
    exact consistent.distinct first member second (used.imp_left lived)
  case meaning => exact consistent.meaning
  case positive => exact fun other lives => consistent.positive other (lived lives)
  case attending => exact consistent.attending
  case early =>
    intro other later
    refine consistent.early other ?_
    by_cases same : other = who
    · subst same
      change (before.goTo other .ended).place other = .start ∨
        (before.goTo other .ended).place other = .created ∨ pending before.queue other = [true]
        at later
      rw [goTo_self] at later
      rcases later with starts | created | entered
      · cases starts
      · cases created
      · exact .inr (.inr entered)
    · rw [Early, ← goTo_other before .ended same]
      exact later
  case informed => exact fun other lives => consistent.informed other (lived lives)
  case recipients => exact consistent.recipients

end

end LinuxUnix.LoginBroadcast

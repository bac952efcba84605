import LinuxUnix.Foundation.Decimal
import LinuxUnix.Foundation.History

/-! # The registry of the message-queue server

`msq_server` enters the sender of every text at the end of a linked list, whether or not
it is there already, and takes the first entry out when the sender logs out. A client that
sends twice is in the list twice, and stays there when it has logged out
(`LinuxUnix.MessageServer.not_registered_of_twoTexts`). The list is as it should be for
exactly those sequences of messages in which a client logs out before it sends again
(`LinuxUnix.MessageServer.registered_iff_quiet`).
-/

namespace LinuxUnix.MessageServer

open CMemory Decimal History

/-- `MSG_LEN` -/
def msgLen : ℕ := 1024

/-- `client2server` -/
structure Client2Server where
  priority : ℤ
  message : List Byte

/-- A call of `msgsnd` in `verteilen`: the queue, and `server2client`. -/
structure Delivery where
  queue : Int32
  priority : ℤ
  message : List Byte
  deriving DecidableEq

/-- The variables of the server: the list, and what `main` keeps from one message to the
next. -/
structure Server where
  idFirst : List Int32
  clientId : Int32
  puffer : List Byte

def mqVerwaltungAdd : List Int32 → Int32 → List Int32
  | [], i => [i]
  | id :: next, i => id :: mqVerwaltungAdd next i

def mqVerwaltungRemove : List Int32 → Int32 → List Int32
  | [], _ => []
  | id :: next, i => if id = i then next else id :: mqVerwaltungRemove next i

/-- `verteilen` goes on with the next queue, whether `msgsnd` succeeds or not. -/
def verteilen (idFirst : List Int32) (str : List Byte) (p : Int32) : List Delivery :=
  idFirst.map fun id => { queue := id, priority := p.toInt, message := cstr str }

/-- `%s` of `sscanf` -/
def scanWord (text puffer : List Byte) : List Byte :=
  let word := (text.dropWhile isSpace).takeWhile fun byte => !isSpace byte
  if word = [] then puffer else overwrite puffer 0 (word ++ [0])

/-- `sscanf(c2s.message, "%d", &client_id)` -/
def scanId (server : Server) (message : List Byte) : Server :=
  match scan (cstr message) with
  | none => server
  | some (number, _) => { server with clientId := .ofInt number }

/-- `sscanf(c2s.message, "%d:%s", &client_id, puffer)` -/
def scanText (server : Server) (message : List Byte) : Server :=
  match scan (cstr message) with
  | none => server
  | some (number, 58 :: rest) =>
      { server with clientId := .ofInt number, puffer := scanWord rest server.puffer }
  | some (number, _) => { server with clientId := .ofInt number }

/-- The body of the loop of `main`, after `msgrcv`, and what it sends. -/
def receive (server : Server) (c2s : Client2Server) : Server × List Delivery :=
  if c2s.priority = 1 then
    let server := scanId server c2s.message
    ({ server with idFirst := mqVerwaltungRemove server.idFirst server.clientId }, [])
  else
    let server := scanText server c2s.message
    let idFirst := mqVerwaltungAdd server.idFirst server.clientId
    ({ server with idFirst }, verteilen idFirst server.puffer server.clientId)

/-- What a client means. -/
inductive Meaning
  | text (id : Int32) (str : List Byte)
  | logout (id : Int32)

def Meaning.id : Meaning → Int32
  | .text id _ => id
  | .logout id => id

/-- A well-formed message: `id:text` with a priority other than 1, or the id with
priority 1. -/
def Meaning.IsCarriedBy (c2s : Client2Server) : Meaning → Prop
  | .text id str => c2s.priority ≠ 1 ∧ 0 ∉ str ∧
      ∃ rest, c2s.message = print id.toInt ++ 58 :: str ++ 0 :: rest
  | .logout id => c2s.priority = 1 ∧ ∃ rest, c2s.message = print id.toInt ++ 0 :: rest

/-- A message with its meaning. -/
structure Mail where
  c2s : Client2Server
  meaning : Meaning
  carried : meaning.IsCarriedBy c2s
  room : c2s.message.length = msgLen

/-- The server after some messages. -/
def afterwards (server : Server) (mails : List Mail) : Server :=
  mails.foldl (fun server mail => (receive server mail.c2s).1) server

def Mail.Sends (mail : Mail) (id : Int32) : Prop :=
  ∃ str, mail.meaning = .text id str

def Mail.LogsOut (mail : Mail) (id : Int32) : Prop :=
  mail.meaning = .logout id

/-- The client has sent, and has not logged out since. -/
def Attending (id : Int32) : List Mail → Prop :=
  Since (Mail.Sends · id) (Mail.LogsOut · id)

/-- The client has logged out, and has not sent since. -/
def Departed (id : Int32) : List Mail → Prop :=
  Since (Mail.LogsOut · id) (Mail.Sends · id)

/-- At every time, no client is in the list twice, so that no message is sent to a queue
twice, and a client that has logged out is not in it. -/
structure Registered (server : Server) (mails : List Mail) : Prop where
  once : ∀ seen, seen <+: mails → (afterwards server seen).idFirst.Nodup
  gone : ∀ seen, seen <+: mails → ∀ id, Departed id seen → id ∉ (afterwards server seen).idFirst
  delivered : ∀ seen mail, seen ++ [mail] <+: mails →
    ((receive (afterwards server seen) mail.c2s).2.map Delivery.queue).Nodup

/-- A client that sends has logged out since it has sent the last time, if it has. -/
def Quiet (mails : List Mail) : Prop :=
  ∀ before mail after, mails = before ++ mail :: after →
    ∀ id, mail.Sends id → ¬ Attending id before

/-- The server without clients, and whatever stands in the other variables of `main`. -/
def start (clientId : Int32) (puffer : List Byte) : Server where
  idFirst := []
  clientId
  puffer

variable {server : Server} {id : Int32}

theorem mqVerwaltungAdd_eq (idFirst : List Int32) (i : Int32) :
    mqVerwaltungAdd idFirst i = idFirst ++ [i] := by
  induction idFirst with
  | nil => rfl
  | cons id next ih => rw [mqVerwaltungAdd, ih, List.cons_append]

theorem mqVerwaltungRemove_eq (idFirst : List Int32) (i : Int32) :
    mqVerwaltungRemove idFirst i = idFirst.erase i := by
  induction idFirst with
  | nil => rfl
  | cons id next ih =>
      rw [mqVerwaltungRemove, List.erase_cons, ih]
      simp only [beq_iff_eq]

theorem zero_not_mem_print (number : ℤ) : 0 ∉ print number := by
  cases number with
  | ofNat number => exact not_mem_digits rfl number
  | negSucc number =>
      intro member
      cases List.mem_cons.mp member with
      | inl sign => cases sign
      | inr digit => exact not_mem_digits rfl (number + 1) digit

/-- A message with priority 1 takes the first entry of its id out. -/
theorem receive_logout {mail : Mail} (logout : mail.meaning = .logout id) :
    (receive server mail.c2s).1.idFirst = server.idFirst.erase id ∧
      (receive server mail.c2s).2 = [] := by
  have carried := mail.carried
  rw [logout] at carried
  obtain ⟨priority, rest, message⟩ := carried
  have string : cstr mail.c2s.message = print id.toInt ++ [] := by
    rw [message, cstr_append_zero, cstr_eq_self (zero_not_mem_print _), List.append_nil]
  have found := @scan_print id.toInt [] (by intro _ member; cases member)
  rw [receive, if_pos priority, scanId, string, found]
  dsimp only
  rw [Int32.ofInt_toInt, mqVerwaltungRemove_eq]
  exact ⟨rfl, rfl⟩

/-- A text enters its id at the end, and goes to all that are in the list. -/
theorem receive_text {mail : Mail} {str : List Byte} (sent : mail.meaning = .text id str) :
    (receive server mail.c2s).1.idFirst = server.idFirst ++ [id] ∧
      (receive server mail.c2s).2 =
        verteilen (server.idFirst ++ [id]) (scanWord str server.puffer) id := by
  have carried := mail.carried
  rw [sent] at carried
  obtain ⟨priority, clean, rest, message⟩ := carried
  have whole : 0 ∉ print id.toInt ++ 58 :: str := by
    intro member
    cases List.mem_append.mp member with
    | inl number => exact zero_not_mem_print _ number
    | inr behind =>
        cases List.mem_cons.mp behind with
        | inl colon => cases colon
        | inr inside => exact clean inside
  have string : cstr mail.c2s.message = print id.toInt ++ 58 :: str := by
    rw [message, cstr_append_zero, cstr_eq_self whole]
  have found := @scan_print id.toInt (58 :: str) (by rintro _ ⟨⟩; rfl)
  have scanned : scanText server mail.c2s.message =
      { server with clientId := id, puffer := scanWord str server.puffer } := by
    rw [scanText, string, found]
    simp only [Int32.ofInt_toInt]
  rw [receive, if_neg priority, scanned]
  dsimp only
  rw [mqVerwaltungAdd_eq]
  exact ⟨rfl, rfl⟩

theorem afterwards_concat (server : Server) (mails : List Mail) (mail : Mail) :
    afterwards server (mails ++ [mail]) = (receive (afterwards server mails) mail.c2s).1 := by
  rw [afterwards, List.foldl_append]
  rfl

/-- A text adds an entry of its id, and a logout takes one out. -/
theorem count_concat (server : Server) (mails : List Mail) (mail : Mail) (id : Int32) :
    (mail.Sends id ∧ (afterwards server (mails ++ [mail])).idFirst.count id =
      (afterwards server mails).idFirst.count id + 1) ∨
    (mail.LogsOut id ∧ (afterwards server (mails ++ [mail])).idFirst.count id =
      (afterwards server mails).idFirst.count id - 1) ∨
    (¬ mail.Sends id ∧ ¬ mail.LogsOut id ∧ (afterwards server (mails ++ [mail])).idFirst.count id =
      (afterwards server mails).idFirst.count id) := by
  rw [afterwards_concat]
  cases meant : mail.meaning with
  | text other str =>
      rw [(receive_text meant).1, List.count_append, List.count_singleton]
      by_cases same : other = id
      · subst same
        exact .inl ⟨⟨str, meant⟩, by rw [if_pos (beq_self_eq_true _)]⟩
      · refine .inr (.inr ⟨?_, ?_, by rw [if_neg (by rw [beq_iff_eq]; exact same)]; rfl⟩)
        · rintro ⟨_, sent⟩
          cases meant.symm.trans sent
          exact same rfl
        · intro out
          cases meant.symm.trans out
  | logout other =>
      rw [(receive_logout meant).1, List.count_erase]
      by_cases same : other = id
      · subst same
        exact .inr (.inl ⟨meant, by rw [if_pos (beq_self_eq_true _)]⟩)
      · refine .inr (.inr ⟨?_, ?_, by rw [if_neg (by rw [beq_iff_eq]; exact same)]; rfl⟩)
        · rintro ⟨_, sent⟩
          cases meant.symm.trans sent
        · intro out
          cases meant.symm.trans out
          exact same rfl

/-- A client that has sent and not logged out since is in the list. -/
theorem count_pos_of_attending {mails : List Mail} (attending : Attending id mails) :
    0 < (afterwards server mails).idFirst.count id := by
  induction mails using List.reverseRecOn with
  | nil => exact absurd attending not_since_nil
  | append_singleton mails mail ih =>
      rw [Attending, since_concat] at attending
      obtain ⟨_, count⟩ | ⟨out, _⟩ | ⟨quiet, _, count⟩ := count_concat server mails mail id
      · rw [count]
        exact Nat.succ_pos _
      · cases attending with
        | inl sent =>
            obtain ⟨_, sent⟩ := sent
            cases out.symm.trans sent
        | inr kept => exact absurd out kept.2
      · rw [count]
        cases attending with
        | inl sent => exact absurd sent quiet
        | inr kept => exact ih kept.1

theorem quiet_concat {mails : List Mail} {mail : Mail} (quiet : Quiet (mails ++ [mail])) :
    Quiet mails ∧ ∀ id, mail.Sends id → ¬ Attending id mails := by
  refine ⟨?_, fun id sent => quiet mails mail [] rfl id sent⟩
  rintro before second after rfl id
  exact quiet before second (after ++ [mail])
    (by rw [List.append_assoc, List.cons_append]) id

/-- If every client logs out before it sends again, it is in the list at most once, and not
at all unless it has sent since it has logged out. -/
theorem count_of_quiet {clientId : Int32} {puffer : List Byte} {mails : List Mail}
    (quiet : Quiet mails) (id : Int32) :
    (afterwards (start clientId puffer) mails).idFirst.count id ≤ 1 ∧ (¬ Attending id mails →
      (afterwards (start clientId puffer) mails).idFirst.count id = 0) := by
  induction mails using List.reverseRecOn with
  | nil => exact ⟨Nat.zero_le 1, fun _ => rfl⟩
  | append_singleton mails mail ih =>
      obtain ⟨earlier, sends⟩ := quiet_concat quiet
      obtain ⟨once, absent⟩ := ih earlier
      rw [Attending, since_concat]
      obtain ⟨sent, count⟩ | ⟨out, count⟩ | ⟨_, stays, count⟩ :=
        count_concat (start clientId puffer) mails mail id
      · rw [count, absent (sends id sent)]
        exact ⟨Nat.le_refl 1, fun gone => absurd (.inl sent) gone⟩
      · rw [count]
        exact ⟨by omega, fun _ => by omega⟩
      · rw [count]
        exact ⟨once, fun gone => absent fun there => gone (.inr ⟨there, stays⟩)⟩

/-- A text goes to every queue in the list once, if none is in it twice. -/
theorem delivered_of_nodup (server : Server) (mail : Mail)
    (once : (receive server mail.c2s).1.idFirst.Nodup) :
    ((receive server mail.c2s).2.map Delivery.queue).Nodup := by
  cases meant : mail.meaning with
  | text id str =>
      have entered := @receive_text server id mail str meant
      rw [entered.1] at once
      rw [entered.2, verteilen, List.map_map]
      change ((server.idFirst ++ [id]).map fun queue => queue).Nodup
      rw [List.map_id']
      exact once
  | logout id =>
      rw [(receive_logout meant).2]
      exact List.nodup_nil

/-- **The registry.** No client is ever in the list twice, and none is in it that has logged
out, if and only if every client logs out before it sends again. -/
theorem registered_iff_quiet (clientId : Int32) (puffer : List Byte) (mails : List Mail) :
    Registered (start clientId puffer) mails ↔ Quiet mails := by
  constructor
  · rintro registered before mail after rfl id sent attending
    have seen : before ++ [mail] <+: before ++ mail :: after :=
      ⟨after, by rw [List.append_assoc, List.singleton_append]⟩
    have once := List.nodup_iff_count.mp (registered.once _ seen) id
    have there := @count_pos_of_attending (start clientId puffer) id before attending
    obtain ⟨_, count⟩ | ⟨out, _⟩ | ⟨quiet, _⟩ := count_concat (start clientId puffer) before mail id
    · omega
    · obtain ⟨_, sent⟩ := sent
      cases out.symm.trans sent
    · exact quiet sent
  · intro quiet
    have always : ∀ seen, seen <+: mails → Quiet seen := by
      rintro seen ⟨rest, rfl⟩ before mail after rfl
      exact quiet before mail (after ++ rest) (by rw [List.append_assoc, List.cons_append])
    have once : ∀ seen, seen <+: mails → (afterwards (start clientId puffer) seen).idFirst.Nodup :=
      fun seen part => List.nodup_iff_count.mpr fun id =>
        (count_of_quiet (always seen part) id).1
    refine ⟨once, fun seen part id departed => ?_, fun seen mail part => ?_⟩
    · have absent : ¬ Attending id seen := by
        refine not_since_of_since ?_ departed
        rintro mail out ⟨_, sent⟩
        cases out.symm.trans sent
      exact List.count_eq_zero.mp ((count_of_quiet (always seen part) id).2 absent)
    · apply delivered_of_nodup
      rw [← afterwards_concat]
      exact once _ part

/-- A message of the client with the id 7: `"7:a"`. -/
def sending : Mail where
  c2s := { priority := 2, message := [55, 58, 97] ++ 0 :: List.replicate 1020 0 }
  meaning := .text 7 [97]
  carried := ⟨by decide, by decide, List.replicate 1020 0, by decide +kernel⟩
  room := by decide +kernel

/-- A client that sends twice. -/
theorem not_registered_of_twoTexts : ¬ ∀ (clientId : Int32) (puffer : List Byte)
    (mails : List Mail), Registered (start clientId puffer) mails := by
  intro registered
  have once := (registered 0 [] [sending, sending]).once _ (List.prefix_refl _)
  revert once
  decide +kernel

end LinuxUnix.MessageServer

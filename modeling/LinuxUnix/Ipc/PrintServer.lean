import LinuxUnix.Foundation.Decimal

/-! # Replies of the print server

`server` copies the process id at the start of a request to `pid`, up to the newline,
and opens the FIFO of that name for its answer. It stores the mark behind the digits one
place too far, so that the byte right behind them is still the one that was there before:
a digit or the mark of an earlier request, if there was one with other digits
(`LinuxUnix.PrintServer.not_answered_of_shorterPid`), or what the array held at the start.
With five digits and more the server writes outside `pid`. All requesters get their
answers in exactly those runs in which this byte is a NUL
(`LinuxUnix.PrintServer.answered_iff_clear`).
-/

namespace LinuxUnix.PrintServer

open CMemory Decimal

/-- `"fifo."` -/
def fifo : List Byte :=
  [102, 105, 102, 111, 46]

/-- The name of the FIFO in which a client waits for its answer. -/
def ownFifo (client : ℕ) : List Byte :=
  fifo ++ digits client

/-- The loop that copies the process id, from `puffer[n]` on to `pid[i]` on. It is undefined if it
reaches the end of one of the arrays. -/
def copyPid (pid : List Byte) (i : ℕ) : List Byte → Option (List Byte × ℕ)
  | [] => none
  | byte :: puffer =>
      if byte = 10 then some (pid, i)
      else if i < pid.length then copyPid (pid.set i byte) (i + 1) puffer
      else none

/-- The name that the server has in `antwort` when it opens the FIFO, and its array `pid`. -/
def answer (pid puffer : List Byte) : Option (List Byte × List Byte) :=
  (copyPid pid 0 puffer).bind fun (pid, i) =>
    if i + 1 < pid.length then
      some (fifo ++ cstr ((pid.set (i + 1) 10).take (i + 1)), pid.set (i + 1) 10)
    else none

/-- A request in `puffer`: the process id of a client, a newline and what follows; and the
FIFOs that can be opened when the server answers. The client has made its own, and holds it
open. -/
structure Request where
  client : ℕ
  rest : List Byte
  opens : List Byte → Bool
  made : opens (ownFifo client) = true

def Request.puffer (request : Request) : List Byte :=
  digits request.client ++ 10 :: request.rest

/-- The number of digits of the process id. -/
def Request.count (request : Request) : ℕ :=
  (digits request.client).length

/-- The names that the server opens for some requests. It goes no further when one of them
cannot be opened. -/
def serve (pid : List Byte) : List Request → Option (List (List Byte))
  | [] => some []
  | request :: requests =>
      match answer pid request.puffer with
      | none => none
      | some (name, pid) =>
          if request.opens name then (serve pid requests).map (name :: ·) else some [name]

/-- The array `pid` when the server starts. -/
structure Pid where
  bytes : List Byte
  room : bytes.length = 6

/-- Every requester gets its answer, and nothing is written outside `pid`. -/
def Answered (pid : Pid) (requests : List Request) : Prop :=
  serve pid.bytes requests = some (requests.map fun request => ownFifo request.client)

/-- The byte behind the digits of an earlier request is not one of its digits, and not its
mark. -/
def Request.Spares (earlier later : Request) : Prop :=
  earlier.count ≤ later.count ∧ earlier.count + 1 ≠ later.count

/-- For every request there is room for the digits and the mark, and the byte behind the
digits is a NUL at the start and is never overwritten. -/
def Clear (pid : List Byte) (requests : List Request) : Prop :=
  ∀ before request after, requests = before ++ request :: after →
    request.count ≤ 4 ∧ pid[request.count]? = some 0 ∧
      ∀ earlier ∈ before, earlier.Spares request

/-- What `pid` holds after a request. -/
def stored (pid : List Byte) (request : Request) : List Byte :=
  (overwrite pid 0 (digits request.client)).set (request.count + 1) 10

variable {pid : List Byte} {request : Request}

/-- The loop copies what stands before the newline, if there is room for it. -/
theorem copyPid_eq {text : List Byte} (line : 10 ∉ text) (rest : List Byte) :
    ∀ {pid : List Byte} {i : ℕ}, i ≤ pid.length → copyPid pid i (text ++ 10 :: rest) =
      if i + text.length ≤ pid.length then some (overwrite pid i text, i + text.length)
      else none := by
  induction text with
  | nil =>
      intro pid i inside
      rw [List.nil_append, copyPid, if_pos rfl, overwrite_nil, List.length_nil, Nat.add_zero,
        if_pos inside]
  | cons byte text ih =>
      intro pid i inside
      have other : byte ≠ 10 := by
        rintro rfl
        exact line List.mem_cons_self
      rw [List.cons_append, copyPid, if_neg other, List.length_cons]
      by_cases room : i < pid.length
      · rw [if_pos room, ih (fun member => line (List.mem_cons_of_mem _ member))
          (by rw [List.length_set]; exact room), List.length_set, Nat.add_right_comm,
          Nat.add_assoc, set_eq_overwrite room]
        have joined := @overwrite_append pid [byte] i inside text
        rw [List.length_singleton, List.singleton_append] at joined
        rw [joined]
      · rw [if_neg room, if_neg (by omega)]

/-- The bytes of `pid` after a request. -/
theorem getElem?_stored (room : pid.length = 6) (small : request.count ≤ 4) (index : ℕ) :
    (stored pid request)[index]? =
      if index = request.count + 1 then some 10
      else if index < request.count then (digits request.client)[index]? else pid[index]? := by
  have length : (overwrite pid 0 (digits request.client)).length = 6 := by
    rw [length_overwrite, room]
    rw [room, Nat.zero_add]
    exact Nat.le_trans small (by decide)
  rw [stored, List.getElem?_set, length]
  by_cases mark : index = request.count + 1
  · rw [if_pos mark, if_pos mark.symm, if_pos (by omega)]
  · rw [if_neg mark, if_neg (Ne.symm mark), getElem?_overwrite_zero]
    rfl

theorem length_stored (room : pid.length = 6) (small : request.count ≤ 4) :
    (stored pid request).length = 6 := by
  rw [stored, List.length_set, length_overwrite, room]
  rw [room, Nat.zero_add]
  exact Nat.le_trans small (by decide)

/-- The digits and the byte behind them. -/
theorem take_stored (room : pid.length = 6) (small : request.count ≤ 4) :
    (stored pid request).take (request.count + 1) =
      digits request.client ++ pid[request.count]?.toList := by
  have behind := getElem?_stored room small request.count
  rw [if_neg (Nat.ne_of_lt (Nat.lt_succ_self _)), if_neg (Nat.lt_irrefl _)] at behind
  have front : (stored pid request).take request.count = digits request.client := by
    rw [stored, List.take_set_of_le (Nat.le_succ _)]
    exact take_overwrite_zero pid (digits request.client)
  rw [List.take_add_one, front, behind]

/-- The byte behind the digits is part of the name, unless it is a NUL. -/
theorem answer_eq (room : pid.length = 6) : answer pid request.puffer =
    if request.count ≤ 4 then
      some (ownFifo request.client ++ cstr pid[request.count]?.toList, stored pid request)
    else none := by
  have line : 10 ∉ digits request.client := not_mem_digits rfl request.client
  have clean : 0 ∉ digits request.client := not_mem_digits rfl request.client
  rw [answer, Request.puffer, copyPid_eq line request.rest (Nat.zero_le _), room, Nat.zero_add]
  by_cases small : request.count ≤ 4
  · have copied : (digits request.client).length ≤ 6 := Nat.le_trans small (by decide)
    have length : (overwrite pid 0 (digits request.client)).length = 6 := by
      rw [length_overwrite, room]
      rw [room, Nat.zero_add]
      exact copied
    have mark : (digits request.client).length + 1 < 6 := Nat.lt_succ_of_le (Nat.succ_le_succ small)
    have front := take_stored room small
    rw [stored, Request.count] at front
    rw [if_pos small, if_pos copied, Option.bind_some]
    dsimp only
    rw [length, if_pos mark, front, cstr_append_of_clean clean, ownFifo, List.append_assoc]
    rfl
  · have many : ¬ (digits request.client).length + 1 < 6 := fun few =>
      small (Nat.le_of_lt_succ (Nat.lt_of_succ_lt_succ few))
    rw [if_neg small]
    split
    · rename_i copied
      rw [Option.bind_some]
      dsimp only
      rw [length_overwrite (by rw [room, Nat.zero_add]; exact copied), room, if_neg many]
    · rfl

/-- A request finds its byte clear after another one if it was clear before, and the other
one spares it. -/
theorem stored_clear_iff (room : pid.length = 6) (small : request.count ≤ 4) (later : Request) :
    (stored pid request)[later.count]? = some 0 ↔
      pid[later.count]? = some 0 ∧ request.Spares later := by
  rw [getElem?_stored room small, Request.Spares]
  split
  · rename_i mark
    constructor
    · intro zero
      cases zero
    · rintro ⟨_, _, other⟩
      exact absurd mark.symm other
  · rename_i other
    split
    · rename_i inside
      constructor
      · intro zero
        have digit := List.mem_of_getElem? zero
        exact absurd digit (not_mem_digits rfl request.client)
      · rintro ⟨_, long, _⟩
        exact absurd inside (Nat.not_lt.mpr long)
    · rename_i outside
      exact ⟨fun zero => ⟨zero, Nat.le_of_not_lt outside, Ne.symm other⟩, fun clear => clear.1⟩

/-- The condition, one request after the other. -/
theorem clear_cons_iff (room : pid.length = 6) (requests : List Request) :
    Clear pid (request :: requests) ↔ (request.count ≤ 4 ∧ pid[request.count]? = some 0) ∧
      Clear (stored pid request) requests := by
  constructor
  · intro clear
    obtain ⟨small, zero, _⟩ := clear [] request requests rfl
    refine ⟨⟨small, zero⟩, ?_⟩
    rintro before later after rfl
    obtain ⟨small', zero', spared⟩ := clear (request :: before) later after rfl
    refine ⟨small', (stored_clear_iff room small later).mpr ⟨zero', ?_⟩, ?_⟩
    · exact spared request List.mem_cons_self
    · exact fun earlier member => spared earlier (List.mem_cons_of_mem _ member)
  · rintro ⟨⟨small, zero⟩, clear⟩ before later after split
    cases before with
    | nil =>
        cases split
        exact ⟨small, zero, fun earlier member => absurd member List.not_mem_nil⟩
    | cons first before =>
        rw [List.cons_append] at split
        cases (List.cons.inj split).1
        obtain ⟨small', zero', spared⟩ := clear before later after (List.cons.inj split).2
        obtain ⟨zero', spares⟩ := (stored_clear_iff room small later).mp zero'
        refine ⟨small', zero', fun earlier member => ?_⟩
        cases List.mem_cons.mp member with
        | inl first => exact first ▸ spares
        | inr others => exact spared earlier others

/-- The first name is right if and only if there is room, and the byte is clear. -/
theorem serve_cons_iff (room : pid.length = 6) (requests : List Request) :
    serve pid (request :: requests) =
        some (ownFifo request.client :: requests.map fun request => ownFifo request.client) ↔
      (request.count ≤ 4 ∧ pid[request.count]? = some 0) ∧
        serve (stored pid request) requests =
          some (requests.map fun request => ownFifo request.client) := by
  rw [serve, answer_eq room]
  by_cases small : request.count ≤ 4
  · have inside : request.count < pid.length := by rw [room]; omega
    rw [if_pos small, List.getElem?_eq_getElem inside, Option.toList_some]
    by_cases zero : pid[request.count] = 0
    · rw [zero, cstr_zero_cons, List.append_nil]
      simp only [request.made, if_true, small, true_and, Option.map_eq_some_iff,
        List.cons.injEq, true_and, exists_eq_right]
    · have longer :
          ownFifo request.client ++ cstr [pid[request.count]] ≠ ownFifo request.client := by
        rw [cstr_cons_of_ne zero, ne_eq, List.append_right_eq_self]
        exact List.cons_ne_nil _ _
      constructor
      · intro served
        dsimp only at served
        split at served
        · obtain ⟨names, _, same⟩ := Option.map_eq_some_iff.mp served
          exact absurd (List.cons.inj same).1 longer
        · exact absurd (List.cons.inj (Option.some.inj served)).1 longer
      · rintro ⟨⟨_, clear⟩, _⟩
        exact absurd (Option.some.inj clear) zero
  · rw [if_neg small]
    constructor
    · intro served
      cases served
    · rintro ⟨⟨few, _⟩, _⟩
      exact absurd few small

/-- **Replies.** Every requester gets its answer, and nothing is written outside `pid`, if
and only if every process id has at most four digits, and the byte behind its digits in
`pid` is a NUL that no earlier request has overwritten. -/
theorem answered_iff_clear (pid : Pid) (requests : List Request) :
    Answered pid requests ↔ Clear pid.bytes requests := by
  obtain ⟨pid, room⟩ := pid
  rw [Answered]
  induction requests generalizing pid with
  | nil =>
      refine ⟨fun _ before request after split => ?_, fun _ => rfl⟩
      cases before with
      | nil => cases split
      | cons _ _ => cases split
  | cons request requests ih =>
      rw [List.map_cons, serve_cons_iff room, clear_cons_iff room]
      exact and_congr_right fun clear => ih _ (length_stored room clear.1)

/-- The requester's FIFO is the only one. -/
def onlyOwn (client : ℕ) : Request where
  client
  rest := [0]
  opens := fun name => name == ownFifo client
  made := beq_self_eq_true _

/-- A client with process id 12 asks after one with process id 999: the last digit of the
first one becomes part of the name for the second. -/
theorem not_answered_of_shorterPid : ¬ ∀ (pid : Pid) (requests : List Request),
    Answered pid requests := by
  intro answered
  have second := answered ⟨[0, 0, 0, 0, 0, 0], rfl⟩ [onlyOwn 999, onlyOwn 12]
  revert second
  rw [Answered]
  decide +kernel

end LinuxUnix.PrintServer

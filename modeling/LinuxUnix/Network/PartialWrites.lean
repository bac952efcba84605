import LinuxUnix.Files.CopyFile
import LinuxUnix.Foundation.Iteration
import LinuxUnix.Foundation.Transfer
import LinuxUnix.Network.HttpFile

/-! # SendBlock, SendBuf and write2

`SendBlock` and `SendBuf` of http_server.c repeat `send`, and `write2` of cpy_file.c repeats
`write`, until a buffer is out or a call fails. Each of them counts down what is left and moves a
pointer; `SendBuf` counts in one variable and asks for what `strlen` finds behind the pointer.
As long as the numbers fit their types, the three make the calls that move the buffer
(`LinuxUnix.PartialWrites.Exact.reaches`), and they return `0` just if all of it is out
(`LinuxUnix.PartialWrites.everything_delivered`).
-/

namespace LinuxUnix.PartialWrites

open CMemory Transfer

/-- Where a function stands. -/
inductive At
  /-- before the condition of the loop -/
  | looping
  | returned (value : ℤ)
  /-- after a string without a NUL, or a call for bytes outside the array -/
  | undefined
  deriving DecidableEq

/-- The count of what is left (`size`, `rlen` and `count`), the pointer (`r` and `buffer`) as an
offset in the array, and the calls that have been made. -/
structure State where
  place : At
  left : ℤ
  r : ℤ
  calls : List (Call Byte)
  deriving DecidableEq

/-- What distinguishes the loops: how many bytes a call is asked for, given the array, the pointer
and the count, what the result of a call becomes in its variable, and what a difference becomes
in the count. -/
structure Loop where
  asks : List Byte → ℤ → ℤ → Option ℕ
  len : ℤ → ℤ
  lower : ℤ → ℤ

/-- The conversion of an `ssize_t` to `int`. -/
def toInt (number : ℤ) : ℤ := number.bmod (2 ^ 32)

/-- The conversion to `size_t`. -/
def toSize (number : ℤ) : ℕ := (number % 2 ^ 64).toNat

/-- `strlen`, behind a pointer. -/
def strlen (buf : List Byte) (r : ℤ) : Option ℕ :=
  if 0 ≤ r ∧ 0 ∈ buf.drop r.toNat then some (cstr (buf.drop r.toNat)).length else none

/-- The loop of `SendBlock`: `size` and `len` are of type `int`, whose differences do not wrap. -/
def sendBlock : Loop where
  asks _ _ size := some (toSize size)
  len := toInt
  lower size := size

/-- The loop of `SendBuf`: `rlen` and `len` are of type `int`. -/
def sendBuf : Loop where
  asks buf r _ := strlen buf r
  len := toInt
  lower rlen := rlen

/-- The loop of `write2`: `count` is a `size_t`, and `written` is an `ssize_t`. -/
def write2 : Loop where
  asks _ _ count := some (toSize count)
  len written := written
  lower count := toSize count

/-- What `send` and `write` return. -/
def result : Option ℕ → ℤ
  | none => -1
  | some count => count

/-- A call for some bytes, and what follows it up to the condition of the loop. -/
def Loop.call (loop : Loop) (schedule : Schedule) (state : State) (bytes : List Byte) : State :=
  let moved := schedule.reply state.calls.length bytes.length
  let calls := state.calls ++ [⟨bytes, moved⟩]
  if loop.len (result moved) = -1 then { state with place := .returned (-1), calls }
  else { state with
    left := loop.lower (state.left - loop.len (result moved))
    r := state.r + loop.len (result moved)
    calls }

/-- A round of the loop. -/
def Loop.step (loop : Loop) (schedule : Schedule) (buf : List Byte) (state : State) : State :=
  match state.place with
  | .looping =>
      if 0 < state.left then
        match loop.asks buf state.r state.left with
        | some count =>
            if 0 ≤ state.r ∧ state.r + count ≤ buf.length then
              loop.call schedule state ((buf.drop state.r.toNat).take count)
            else { state with place := .undefined }
        | none => { state with place := .undefined }
      else { state with place := .returned 0 }
  | .returned _ | .undefined => state

/-- `SendBlock` with a size, and `write2` with a count. -/
def start (size : ℤ) : State where
  place := .looping
  left := size
  r := 0
  calls := []

/-- `SendBuf`: `rlen` is what `strlen` returns. -/
def startBuf (buf : List Byte) : State :=
  match strlen buf 0 with
  | some length => ⟨.looping, toInt length, 0, []⟩
  | none => ⟨.undefined, 0, 0, []⟩

/-- What the functions return after some calls. -/
def value (calls : List (Call Byte)) : ℤ :=
  if Fails calls then -1 else 0

/-- A loop moves so many bytes at the start of an array: it asks for what is left of them, and
the types of its variables have room for the numbers. -/
structure Loop.Exact (loop : Loop) (buf : List Byte) (size : ℕ) : Prop where
  inside : size ≤ buf.length
  asks : ∀ {offset left : ℕ}, offset + left = size → loop.asks buf offset left = some left
  failed : loop.len (-1) = -1
  len : ∀ {count : ℕ}, count ≤ size → loop.len count = count
  lower : ∀ {left : ℕ}, left ≤ size → loop.lower left = left

variable {loop : Loop} {schedule : Schedule} {buf bytes : List Byte} {size offset left count : ℕ}
  {state : State}

theorem value_eq_zero_iff {calls : List (Call Byte)} : value calls = 0 ↔ ¬ Fails calls := by
  rw [value, ite_eq_right_iff]
  exact forall_congr' fun _ => iff_of_false (by decide) not_false

theorem value_eq_neg_one_iff {calls : List (Call Byte)} : value calls = -1 ↔ Fails calls := by
  rw [value, ite_eq_left_iff]
  constructor
  · intro fails
    by_contra succeed
    exact absurd (fails succeed) (by decide)
  · exact fun fails succeed => absurd fails succeed

theorem toInt_natCast (small : size < 2 ^ 31) : toInt size = size :=
  Int.bmod_eq_of_le (by omega) (by omega)

theorem toInt_failed : toInt (-1) = -1 := by
  decide

theorem toSize_natCast (small : size < 2 ^ 64) : toSize size = size := by
  rw [toSize]
  omega

theorem len_sendBlock (number : ℤ) : sendBlock.len number = toInt number := rfl

theorem len_sendBuf (number : ℤ) : sendBuf.len number = toInt number := rfl

theorem sendBlock_exact (inside : size ≤ buf.length) (small : size < 2 ^ 31) :
    sendBlock.Exact buf size where
  inside
  asks split := congrArg some (toSize_natCast (by omega))
  failed := (len_sendBlock _).trans toInt_failed
  len few := (len_sendBlock _).trans (toInt_natCast (Nat.lt_of_le_of_lt few small))
  lower _ := rfl

theorem write2_exact (inside : size ≤ buf.length) (small : size < 2 ^ 63) :
    write2.Exact buf size where
  inside
  asks split := congrArg some (toSize_natCast (by omega))
  failed := rfl
  len _ := rfl
  lower few := congrArg Nat.cast (toSize_natCast (by omega))

/-- Behind a part of a string stands the rest of it. -/
theorem strlen_natCast (terminated : 0 ∈ buf) (split : offset + left = (cstr buf).length) :
    strlen buf offset = some left := by
  obtain ⟨rest, whole⟩ := eq_cstr_append terminated
  have behind : buf.drop offset = (cstr buf).drop offset ++ 0 :: rest := by
    rw [whole, cstr_append_zero, cstr_eq_self (zero_not_mem_cstr buf),
      List.drop_append_of_le_length (by omega)]
  have clean : 0 ∉ (cstr buf).drop offset :=
    fun member => zero_not_mem_cstr buf (List.mem_of_mem_drop member)
  rw [strlen, Int.toNat_natCast, behind, if_pos ⟨Int.natCast_nonneg _,
    List.mem_append_right _ List.mem_cons_self⟩, cstr_append_zero, cstr_eq_self clean,
    List.length_drop]
  congr 1
  omega

theorem sendBuf_exact (terminated : 0 ∈ buf) (small : (cstr buf).length < 2 ^ 31) :
    sendBuf.Exact buf (cstr buf).length where
  inside := Nat.le_of_lt (length_cstr_lt terminated)
  asks split := strlen_natCast terminated split
  failed := (len_sendBuf _).trans toInt_failed
  len few := (len_sendBuf _).trans (toInt_natCast (Nat.lt_of_le_of_lt few small))
  lower _ := rfl

/-- Nothing is left. -/
theorem Loop.step_of_done (loop : Loop) (here : state.place = .looping) (done : state.left = 0) :
    loop.step schedule buf state = { state with place := .returned 0 } := by
  rw [Loop.step, here]
  exact if_neg (by omega)

/-- A round makes a call for all that is left. -/
theorem Loop.Exact.step (exact_ : loop.Exact buf size) (here : state.place = .looping)
    (split : offset + left = size) (positive : 0 < left) (remains : state.left = left)
    (pointer : state.r = offset) :
    loop.step schedule buf state = loop.call schedule state ((buf.drop offset).take left) := by
  have inside := exact_.inside
  have bounds : 0 ≤ state.r ∧ state.r + left ≤ buf.length := by omega
  rw [Loop.step, here]
  simp only [remains, Int.natCast_pos.mpr positive, ↓reduceIte, pointer, exact_.asks split]
  rw [if_pos (pointer ▸ bounds), Int.toNat_natCast]

theorem Loop.Exact.call_of_failed (exact_ : loop.Exact buf size)
    (failed : schedule.reply state.calls.length bytes.length = none) :
    loop.call schedule state bytes = { state with
      place := .returned (-1), calls := state.calls ++ [⟨bytes, none⟩] } := by
  rw [Loop.call]
  simp only [failed, result, exact_.failed, ↓reduceIte]

theorem Loop.Exact.call_of_moved (exact_ : loop.Exact buf size) (remains : state.left = left)
    (few : count ≤ left) (bounded : left ≤ size)
    (moved : schedule.reply state.calls.length bytes.length = some count) :
    loop.call schedule state bytes = { state with
      left := ((left - count : ℕ) : ℤ), r := state.r + count
      calls := state.calls ++ [⟨bytes, some count⟩] } := by
  have lowered : state.left - count = ((left - count : ℕ) : ℤ) := by omega
  have positive : ¬ (count : ℤ) = -1 := by omega
  rw [Loop.call]
  simp only [moved, result, exact_.len (Nat.le_trans few bounded), positive, ↓reduceIte, lowered,
    exact_.lower (Nat.le_trans (Nat.sub_le left count) bounded)]

/-- Behind some calls a function has made those that move some bytes, and it has returned what
they lead to. -/
structure Finished (schedule : Schedule) (before : List (Call Byte)) (bytes : List Byte)
    (state : State) : Prop where
  made : state.calls = before ++ calls schedule before.length bytes
  returned : state.place = .returned (value (calls schedule before.length bytes))

theorem finished_nil {before : List (Call Byte)} (made : state.calls = before)
    (returned : state.place = .returned 0) : Finished schedule before [] state where
  made := by rw [calls_nil, List.append_nil, made]
  returned := by rw [calls_nil, value, if_neg not_fails_nil, returned]

theorem finished_of_failed {before : List (Call Byte)} (nonempty : bytes ≠ [])
    (failed : schedule.reply before.length bytes.length = none)
    (made : state.calls = before ++ [⟨bytes, none⟩]) (returned : state.place = .returned (-1)) :
    Finished schedule before bytes state where
  made := by rw [calls_of_failed nonempty failed, made]
  returned := by
    rw [calls_of_failed nonempty failed, value, if_pos ⟨_, List.mem_cons_self, rfl⟩, returned]

/-- A call that moves something comes before those for what is left. -/
theorem Finished.head {before : List (Call Byte)} (nonempty : bytes ≠ [])
    (moved : schedule.reply before.length bytes.length = some count)
    (later : Finished schedule (before ++ [⟨bytes, some count⟩]) (bytes.drop count) state) :
    Finished schedule before bytes state where
  made := by
    rw [later.made, calls_of_moved nonempty moved, List.append_assoc, List.length_append]
    rfl
  returned := by
    rw [later.returned, calls_of_moved nonempty moved, List.length_append, List.length_singleton,
      value, value]
    simp only [fails_cons, reduceCtorEq, false_or]

/-- **The loop.** A function makes the calls that move the buffer, and returns what they lead
to. -/
theorem Loop.Exact.reaches (exact_ : loop.Exact buf size) (schedule : Schedule) (left : ℕ) :
    ∀ {offset : ℕ} {state : State}, state.place = .looping → offset + left = size →
      state.left = left → state.r = offset → ∃ after,
        Reaches (loop.step schedule buf) state after ∧
          Finished schedule state.calls ((buf.drop offset).take left) after := by
  induction left using Nat.strongRecOn with
  | _ left ih =>
      intro offset state here split remains pointer
      rcases Nat.eq_zero_or_pos left with rfl | positive
      · refine ⟨_, .head (loop.step_of_done here remains) (.refl _), ?_⟩
        rw [List.take_zero]
        exact finished_nil rfl rfl
      have inside := exact_.inside
      have asked : ((buf.drop offset).take left).length = left := by
        rw [List.length_take, List.length_drop]
        omega
      have nonempty : (buf.drop offset).take left ≠ [] := List.ne_nil_of_length_pos (by omega)
      have calls_ := @Loop.Exact.step _ schedule _ _ _ _ _ exact_ here split positive remains pointer
      cases replied : schedule.reply state.calls.length ((buf.drop offset).take left).length with
      | none =>
          have returns := calls_.trans (exact_.call_of_failed replied)
          exact ⟨_, .head returns (.refl _), finished_of_failed nonempty replied rfl rfl⟩
      | some count =>
          obtain ⟨one, few⟩ := schedule.possible replied
          rw [asked] at few
          have moves := calls_.trans (exact_.call_of_moved remains few (by omega) replied)
          obtain ⟨after, reached, finished⟩ := @ih (left - count) (by omega) (offset + count)
            { state with
              left := ((left - count : ℕ) : ℤ), r := state.r + count
              calls := state.calls ++ [⟨(buf.drop offset).take left, some count⟩] }
            here (by omega) rfl (by rw [pointer, Nat.cast_add])
          rw [← List.drop_drop, ← List.drop_take] at finished
          exact ⟨after, .head moves reached, finished.head nonempty replied⟩

/-- A function has returned `0` or `-1`: `0` just if no call has failed, and then the calls have
transmitted all the bytes; after a failure they have transmitted a proper prefix of them. -/
structure Delivers (bytes : List Byte) (state : State) : Prop where
  returned : state.place = .returned 0 ∨ state.place = .returned (-1)
  succeeds : state.place = .returned 0 ↔ ∀ call ∈ state.calls, call.moved ≠ none
  whole : state.place = .returned 0 → transmitted state.calls = bytes
  part : state.place = .returned (-1) →
    transmitted state.calls <+: bytes ∧ transmitted state.calls ≠ bytes

theorem Finished.delivers (finished : Finished schedule [] bytes state) :
    Delivers bytes state := by
  obtain ⟨made, returned⟩ := finished
  rw [List.length_nil, List.nil_append] at made
  rw [List.length_nil, ← made] at returned
  have zero : state.place = .returned 0 ↔ ¬ Fails state.calls := by
    rw [returned, At.returned.injEq, value_eq_zero_iff]
  have minus : state.place = .returned (-1) ↔ Fails state.calls := by
    rw [returned, At.returned.injEq, value_eq_neg_one_iff]
  refine ⟨?_, ?_, fun ended => ?_, fun ended => ?_⟩
  · rw [zero, minus]
    exact (em _).symm
  · simp only [zero, Fails, not_exists, not_and, ne_eq]
  · rw [zero, made] at ended
    rw [made, transmitted_calls ended]
  · rw [minus, made] at ended
    rw [made]
    exact transmitted_calls_of_fails ended

/-- A function that is called with as many bytes as are to be moved. -/
theorem Loop.Exact.finishes (exact_ : loop.Exact buf size) (schedule : Schedule) :
    ∃ after, Reaches (loop.step schedule buf) (start size) after ∧
      Finished schedule [] (buf.take size) after :=
  exact_.reaches schedule size rfl (Nat.zero_add size) rfl rfl

/-- `SendBuf` starts with the length of the string. -/
theorem startBuf_eq (terminated : 0 ∈ buf) (small : (cstr buf).length < 2 ^ 31) :
    startBuf buf = start (cstr buf).length := by
  have found : strlen buf 0 = some (cstr buf).length :=
    strlen_natCast terminated (Nat.zero_add _)
  simp only [startBuf, found, toInt_natCast small, start]

/-- **Everything is delivered.** Whatever the calls of `send` and `write` transmit, `SendBlock`,
`SendBuf` and `write2` return, and they return `0` just if no call has failed; all bytes are out
then. For a string, `SendBlock` and `SendBuf` make the same calls. -/
theorem everything_delivered (schedule : Schedule) (buf : List Byte) :
    (∀ size : ℕ, size ≤ buf.length → size < 2 ^ 31 → ∃ after,
      Reaches (sendBlock.step schedule buf) (start size) after ∧
        Delivers (buf.take size) after) ∧
    (0 ∈ buf → (cstr buf).length < 2 ^ 31 → ∃ after other,
      Reaches (sendBuf.step schedule buf) (startBuf buf) after ∧ Delivers (cstr buf) after ∧
        Reaches (sendBlock.step schedule buf) (start (cstr buf).length) other ∧
          Delivers (cstr buf) other ∧ other.calls = after.calls) ∧
    ∀ count : ℕ, count ≤ buf.length → count < 2 ^ 63 → ∃ after,
      Reaches (write2.step schedule buf) (start count) after ∧
        Delivers (buf.take count) after := by
  refine ⟨fun size inside small => ?_, fun terminated small => ?_, fun count inside small => ?_⟩
  · obtain ⟨after, reached, finished⟩ := (sendBlock_exact inside small).finishes schedule
    exact ⟨after, reached, finished.delivers⟩
  · have inside := Nat.le_of_lt (length_cstr_lt terminated)
    obtain ⟨after, reached, finished⟩ := (sendBuf_exact terminated small).finishes schedule
    obtain ⟨other, reached', finished'⟩ := (sendBlock_exact inside small).finishes schedule
    rw [take_length_cstr] at finished finished'
    rw [startBuf_eq terminated small]
    exact ⟨after, other, reached, finished.delivers, reached', finished'.delivers,
      finished'.made.trans finished.made.symm⟩
  · obtain ⟨after, reached, finished⟩ := (write2_exact inside small).finishes schedule
    exact ⟨after, reached, finished.delivers⟩

/-- Every call transmits one byte. -/
def oneByOne : Schedule where
  reply _ asked := if asked = 0 then none else some 1
  possible := by
    intro number asked count replied
    obtain ⟨some_, one⟩ := Option.ite_none_left_eq_some.mp replied
    cases one
    exact ⟨Nat.le_refl 1, Nat.one_le_iff_ne_zero.mpr some_⟩

/-- Two bytes one by one. -/
theorem everything_delivered_oneByOne :
    (∃ after, Reaches (sendBlock.step oneByOne [104, 105, 0]) (start 2) after ∧
      Delivers [104, 105] after) ∧
    (∃ after other, Reaches (sendBuf.step oneByOne [104, 105, 0]) (startBuf [104, 105, 0]) after ∧
      Delivers [104, 105] after ∧
        Reaches (sendBlock.step oneByOne [104, 105, 0]) (start 2) other ∧
          Delivers [104, 105] other ∧ other.calls = after.calls) ∧
    ∃ after, Reaches (write2.step oneByOne [104, 105, 0]) (start 2) after ∧
      Delivers [104, 105] after := by
  obtain ⟨block, buf, write⟩ := everything_delivered oneByOne [104, 105, 0]
  exact ⟨block 2 (by decide) (by decide), buf (by decide) (by decide),
    write 2 (by decide) (by decide)⟩

section CopyFile

open CopyFile TransitionSystem

/-- How a call of `write` turns out for `write2` in the copying program. -/
def replyOf (call : Call Byte) : Reply :=
  call.moved.elim .failed .moved

variable {program : CopyFile.State}

/-- `main` goes on in the same way after each result of `write2`. -/
theorem afterWrite2_value (program : CopyFile.State) (calls : List (Call Byte)) :
    afterWrite2 program (value calls) = { program with place := .reading } := by
  rw [afterWrite2, value]
  split <;> rfl

/-- The steps of the copying program in `write2` are the calls that move the block. -/
theorem run_calls (schedule : Schedule) (number : ℕ) {block : List Byte} (nonempty : block ≠ []) :
    ∀ {program : CopyFile.State}, program.place = .writing block →
      run next program ((calls schedule number block).map replyOf) =
        some (afterWrite2 { program with
            destination := program.destination ++ transmitted (calls schedule number block) }
          (value (calls schedule number block))) := by
  induction number, block using calls.induct schedule with
  | case1 number => exact absurd rfl nonempty
  | case2 number block _ failed =>
      intro program here
      have fails : next program .failed = some (afterWrite2 program (-1)) := by
        simp only [next, here]
      rw [calls_of_failed nonempty failed, afterWrite2_value]
      change (next program .failed).bind some = some { program with
        place := .reading, destination := program.destination ++ [] }
      rw [fails, List.append_nil]
      rfl
  | case3 number block _ count moved ih =>
      intro program here
      have few := (schedule.possible moved).2
      have moves : next program (.moved count) = some (afterWrite program block count) := by
        simp only [next, here, few, ↓reduceIte]
      rw [calls_of_moved nonempty moved, afterWrite2_value, List.map_cons, run]
      change (next program (.moved count)).bind _ = _
      rw [moves, Option.bind_some, transmitted_cons, ← List.append_assoc]
      by_cases last : block.drop count = []
      · rw [afterWrite, if_pos last, last, calls_nil]
        change some _ = some { program with
          place := .reading, destination := program.destination ++ block.take count ++ [] }
        rw [List.append_nil]
        rfl
      · rw [afterWrite, if_neg last, ih last rfl, afterWrite2_value]
        rfl

/-- **`write2` in the program.** What the copying program does in `write2` is what `write2` does
with the block that has been read. -/
theorem copyFile_write2 (schedule : Schedule) {block : List Byte} (nonempty : block ≠ [])
    (small : block.length < 2 ^ 63) (here : program.place = .writing block) :
    ∃ after returned, Reaches (write2.step schedule block) (start block.length) after ∧
      after.place = .returned returned ∧ run next program (after.calls.map replyOf) =
        some (afterWrite2 { program with
          destination := program.destination ++ transmitted after.calls } returned) := by
  obtain ⟨after, reached, finished⟩ :=
    (write2_exact (Nat.le_refl block.length) small).finishes schedule
  rw [List.take_length] at finished
  have made : after.calls = calls schedule 0 block := finished.made
  refine ⟨after, _, reached, finished.returned, ?_⟩
  rw [made]
  exact run_calls schedule 0 nonempty here

end CopyFile

section Connection

open HttpServer

/-- Every call fails. -/
def failing : Schedule where
  reply _ _ := none
  possible := nofun

/-- What a connection carries of a buffer is what some calls transmit. -/
theorem exists_schedule (connection : Connection) (buf : List Cell) : ∃ schedule : Schedule,
    (connection.sendAll buf).sent = connection.sent ++ transmitted (calls schedule 0 buf) := by
  induction connection, buf using Connection.sendAll.induct with
  | case1 connection =>
      refine ⟨failing, ?_⟩
      rw [sendAll_nil, calls_nil]
      exact (List.append_nil _).symm
  | case2 connection buf nonempty refused =>
      refine ⟨failing, ?_⟩
      rw [sendAll_of_refused refused, calls_of_failed nonempty rfl]
      exact (List.append_nil _).symm
  | case3 connection buf nonempty len later sends ih =>
      obtain ⟨schedule, sent⟩ := ih
      have first := reply_cons_zero schedule (send_pos nonempty sends) (send_le sends).1
      refine ⟨schedule.cons (some len), ?_⟩
      rw [sendAll_of_sent nonempty sends, sent, calls_of_moved nonempty first, calls_cons,
        transmitted_cons, ← List.append_assoc]
      obtain ⟨_, _, rfl⟩ := send_eq_some_iff.mp sends
      rfl

variable {buf : List Byte} (connection : Connection)

/-- What the server sends with `SendBlock` is what its loop transmits. -/
theorem connection_sendBlock {size : ℕ} (inside : size ≤ buf.length) (small : size < 2 ^ 31) :
    ∃ schedule after, Reaches (sendBlock.step schedule buf) (start size) after ∧
      (connection.sendBlock (buf.map some) size).sent =
        connection.sent ++ (transmitted after.calls).map some := by
  obtain ⟨schedule, sent⟩ := exists_schedule connection ((buf.take size).map some)
  obtain ⟨after, reached, finished⟩ := (sendBlock_exact inside small).finishes schedule
  have made : after.calls = calls schedule 0 (buf.take size) := finished.made
  refine ⟨schedule, after, reached, ?_⟩
  rw [Connection.sendBlock, Int.toNat_natCast, ← List.map_take, sent, transmitted_map, made]

/-- And with `SendBuf` too. -/
theorem connection_sendBuf (terminated : 0 ∈ buf) (small : (cstr buf).length < 2 ^ 31) :
    ∃ schedule after, Reaches (sendBuf.step schedule buf) (startBuf buf) after ∧
      (connection.sendBuf buf).sent =
        connection.sent ++ (transmitted after.calls).map some := by
  obtain ⟨schedule, sent⟩ := exists_schedule connection ((cstr buf).map some)
  obtain ⟨after, reached, finished⟩ := (sendBuf_exact terminated small).finishes schedule
  rw [take_length_cstr] at finished
  have made : after.calls = calls schedule 0 (cstr buf) := finished.made
  refine ⟨schedule, after, startBuf_eq terminated small ▸ reached, ?_⟩
  rw [Connection.sendBuf, sent, transmitted_map, made]

end Connection

end LinuxUnix.PartialWrites

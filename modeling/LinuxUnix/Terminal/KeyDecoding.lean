import LinuxUnix.Terminal.KeyStroke

/-! # Keys and the way their bytes arrive

As long as each `read` after an ESC takes the code of its key, the program and the keyboard are in
step (`LinuxUnix.KeyStroke.Synced`). A `read` that takes less or more loses a report for good:
what it has left over of a code is taken for single characters, whose reports cannot stand for the
missing one (`LinuxUnix.KeyStroke.Lost`). Together they decide which deliveries are decoded
(`LinuxUnix.KeyStroke.decoded_iff`).
-/

namespace LinuxUnix.KeyStroke

open CMemory TransitionSystem

/-- There is no `q` among the keys. -/
def Runs (keys : List Key) : Prop := ∀ key ∈ keys, key.quits = false

/-- Where the program stands when some keys have been reported and others are left. -/
def Stands (pending : List Byte) (done rest : List Key) : At → Prop
  | .key => Runs done ∧ pending = typed rest
  | .escape => Runs done ∧ ∃ kind later, rest = .special kind :: later ∧
      pending = kind.code ++ typed later
  | .returned => heard (done ++ rest) = done ∧ (∃ key ∈ done, key.quits) ∧ pending = typed rest
  | .failed | .undefined => False

/-- The keys that have been read are those that have been reported. -/
structure Synced (keys : List Key) (state : State) : Prop where
  size : state.buffer.length = 10
  stands : ∃ done rest, keys = done ++ rest ∧ state.printed = done.map Key.text ∧
    Stands state.pending done rest state.place

/-- The bytes of the codes. -/
def strays : List Byte := [91, 65, 66, 67, 68, 49, 53, 54, 126]

/-- The text is not one that a byte of a code leads to. -/
def known (text : List Byte) : Bool := text ∉ strays.map charText

/-- The number of such texts. -/
def weight (texts : List (List Byte)) : ℕ := texts.countP known

/-- How much is missing among the texts that have been printed. -/
def Misses (fragment : List Byte) (printed due : ℕ) : At → Prop
  | .key => printed < due
  | .escape => printed + 1 < due
  | .returned => fragment = [] ∧ printed < due
  | .failed | .undefined => False

/-- Of the keys that have been read, at least one has not been reported. The next bytes may be
left over from a code. -/
structure Lost (keys : List Key) (state : State) : Prop where
  size : state.buffer.length = 10
  misses : ∃ done rest fragment, keys = done ++ rest ∧ state.pending = fragment ++ typed rest ∧
    (∀ byte ∈ fragment, byte ∈ strays) ∧
    Misses fragment (weight state.printed) (weight (done.map Key.text)) state.place

variable {before after : State} {count : ℕ} {keys : List Key}

/-- What a `read` with bytes leads to. -/
theorem deliver_cases (moved : deliver before count = some after) :
    (before.place = .key ∧ ∃ c rest, before.pending = c :: rest ∧ after = takeKey before c rest) ∨
      (before.place = .escape ∧ 1 ≤ count ∧ count ≤ 4 ∧ count ≤ before.pending.length ∧
        after = takeCode before (before.pending.take count) (before.pending.drop count)) := by
  unfold deliver next at moved
  split at moved
  · rename_i here same
    cases same
    left
    split at moved
    · rename_i c rest typed_
      obtain ⟨-, moved⟩ := Option.ite_none_right_eq_some.mp moved
      cases moved
      exact ⟨here, c, rest, typed_, rfl⟩
    · cases moved
  · rename_i reply
    cases reply
  · rename_i reply
    cases reply
  · rename_i here same
    cases same
    right
    obtain ⟨⟨positive, small, inside⟩, moved⟩ := Option.ite_none_right_eq_some.mp moved
    cases moved
    exact ⟨here, positive, small, inside, rfl⟩
  · rename_i reply
    cases reply
  · rename_i reply
    cases reply
  · cases moved
  · cases moved
  · cases moved

/-- The array has room for four bytes and a NUL. -/
theorem takeCode_eq (bytes : List Byte) (size : before.buffer.length = 10)
    (short : bytes.length ≤ 4) (rest : List Byte) : ∃ buffer, buffer.length = 10 ∧
      takeCode before bytes rest =
        { place := .key, pending := rest, buffer := buffer,
          printed := before.printed ++ bufferText bytes } := by
  refine ⟨overwrite before.buffer 0 (bytes ++ [0]), ?_, ?_⟩
  · rw [length_overwrite, size]
    rw [List.length_append, List.length_singleton, size]
    omega
  · rw [takeCode, if_pos (by omega), ← bufferText_overwrite before.buffer bytes]

/-- A byte that is no ESC is reported. -/
theorem takeKey_char {c : Byte} (ordinary : c ≠ esc) (rest : List Byte) : takeKey before c rest =
    { before with
      place := if c = quit then .returned else .key
      pending := rest
      printed := before.printed ++ [charText c] } :=
  if_neg ordinary

theorem bufferText_code (kind : Special) : bufferText kind.code = [kind.text] := by
  cases kind <;> rfl

/-- With a single byte the program and the keyboard stay in step. -/
theorem Synced.key (synced : Synced keys before) (here : before.place = .key) {c : Byte}
    {bytes : List Byte} (next : before.pending = c :: bytes) :
    Synced keys (takeKey before c bytes) := by
  obtain ⟨done, rest, rfl, printed, stands⟩ := synced.stands
  rw [here] at stands
  obtain ⟨runs, pending⟩ := stands
  rw [next] at pending
  cases rest with
  | nil => cases pending
  | cons key rest =>
      rw [typed_cons] at pending
      cases key with
      | char byte ordinary =>
          obtain ⟨rfl, rfl⟩ := List.cons.inj pending
          rw [takeKey_char ordinary]
          refine ⟨synced.size, done ++ [.char c ordinary], rest, ?_, ?_, ?_⟩
          · rw [List.append_assoc, List.singleton_append]
          · rw [List.map_append, ← printed]
            rfl
          · dsimp only
            split
            · rename_i last
              have quits : (Key.char c ordinary).quits = true := decide_eq_true last
              refine ⟨?_, ⟨_, List.mem_append_right _ List.mem_cons_self, quits⟩, rfl⟩
              rw [List.append_assoc]
              exact heard_append_quit rest runs quits
            · rename_i other
              refine ⟨fun key member => ?_, rfl⟩
              rcases List.mem_append.mp member with earlier | last
              · exact runs key earlier
              · rw [List.mem_singleton.mp last]
                exact decide_eq_false other
      | special kind =>
          obtain ⟨rfl, rfl⟩ := List.cons.inj pending
          exact ⟨synced.size, done, _, rfl, printed, runs, kind, rest, rfl, rfl⟩

/-- A code that has been taken completely is the one that was sent. -/
theorem take_eq_code {kind other : Special} {later : List Byte}
    (taken : (kind.code ++ later).take count = other.code) :
    other = kind ∧ (kind.code ++ later).drop count = later := by
  have part : other.code <+: kind.code ++ later := taken ▸ List.take_prefix ..
  have same : other = kind := by
    rcases List.prefix_or_prefix_of_prefix part (List.prefix_append kind.code later) with
      within | beyond
    · exact eq_of_prefix_code within
    · exact (eq_of_prefix_code beyond).symm
  refine ⟨same, ?_⟩
  have whole := List.take_append_drop count (kind.code ++ later)
  rw [taken, same] at whole
  exact List.append_cancel_left whole

/-- With a code the program and the keyboard stay in step. -/
theorem Synced.code (synced : Synced keys before) (here : before.place = .escape)
    (takes : TakesCode before count) :
    Synced keys (takeCode before (before.pending.take count) (before.pending.drop count)) := by
  obtain ⟨done, rest, rfl, printed, stands⟩ := synced.stands
  rw [here] at stands
  obtain ⟨runs, kind, later, rfl, pending⟩ := stands
  obtain ⟨other, -, taken⟩ := takes here
  rw [taken]
  rw [pending] at taken ⊢
  obtain ⟨rfl, left⟩ := take_eq_code taken
  obtain ⟨buffer, size, stored⟩ := takeCode_eq other.code synced.size
    (Nat.le_succ_of_le (length_code_le other)) (typed later)
  rw [left, stored, bufferText_code]
  refine ⟨size, done ++ [.special other], later, ?_, ?_, fun key member => ?_, rfl⟩
  · rw [List.append_assoc, List.singleton_append]
  · rw [List.map_append, printed]
    rfl
  · rcases List.mem_append.mp member with earlier | last
    · exact runs key earlier
    · rw [List.mem_singleton.mp last]
      rfl

/-- What a step that takes no part of a code and no more than one preserves. -/
theorem Synced.step (synced : Synced keys before) (takes : TakesCode before count)
    (moved : deliver before count = some after) : Synced keys after := by
  rcases deliver_cases moved with ⟨here, c, rest, next, rfl⟩ | ⟨here, -, -, -, rfl⟩
  · exact synced.key here next
  · exact synced.code here takes

theorem weight_append (first second : List (List Byte)) :
    weight (first ++ second) = weight first + weight second :=
  List.countP_append

theorem weight_special (kind : Special) : weight [kind.text] = 1 := by
  cases kind <;> decide

theorem weight_key (kind : Special) : weight [(Key.special kind).text] = 1 :=
  weight_special kind

theorem weight_nul : weight [charText 0] = 1 := by
  decide

/-- A byte of a code, taken for a character, reports nothing known. -/
theorem weight_stray {byte : Byte} (stray : byte ∈ strays) : weight [charText byte] = 0 := by
  have told : known (charText byte) = false :=
    decide_eq_false (not_not_intro (List.mem_map_of_mem stray))
  rw [weight, List.countP_singleton, told]
  rfl

theorem code_strays (kind : Special) : ∀ byte ∈ kind.code, byte ∈ strays := by
  cases kind <;> simp [Special.code, strays]

theorem strays_ordinary : ∀ byte ∈ strays, byte ≠ esc ∧ byte ≠ quit := by
  simp [strays, esc, quit]

/-- At most one text is printed for what stands in `buffer`. -/
theorem weight_bufferText_le (bytes : List Byte) : weight (bufferText bytes) ≤ 1 := by
  rcases bufferText_cases bytes with ⟨kind, -, text⟩ | ⟨-, nothing⟩
  · rw [text, weight_special]
  · rw [nothing]
    exact Nat.zero_le 1

/-- Behind its first byte a key sends bytes of a code only. -/
theorem tail_strays (key : Key) : ∃ first tail, key.bytes = first :: tail ∧
    ∀ byte ∈ tail, byte ∈ strays := by
  cases key with
  | char byte ordinary => exact ⟨byte, [], rfl, fun _ member => absurd member List.not_mem_nil⟩
  | special kind => exact ⟨esc, kind.code, rfl, code_strays kind⟩

/-- Where a `read` stops: some keys are gone, and of the last one a part of its code may be
left. -/
theorem exists_cut (rest : List Key) : ∀ {fragment : List Byte} {count : ℕ},
    (∀ byte ∈ fragment, byte ∈ strays) → count ≤ (fragment ++ typed rest).length →
      ∃ gone later left, rest = gone ++ later ∧
        (fragment ++ typed rest).drop count = left ++ typed later ∧
        (∀ byte ∈ left, byte ∈ strays) ∧ (fragment.length < count → gone ≠ []) := by
  induction rest with
  | nil =>
      intro fragment count stray inside
      refine ⟨[], [], fragment.drop count, rfl, ?_, ?_, ?_⟩
      · rw [typed, List.flatMap_nil, List.append_nil, List.append_nil]
      · exact fun byte member => stray byte (List.mem_of_mem_drop member)
      · intro more
        rw [typed, List.flatMap_nil, List.append_nil] at inside
        omega
  | cons key rest ih =>
      intro fragment count stray inside
      by_cases within : count ≤ fragment.length
      · refine ⟨[], key :: rest, fragment.drop count, rfl, ?_, ?_, ?_⟩
        · rw [List.drop_append_of_le_length within]
        · exact fun byte member => stray byte (List.mem_of_mem_drop member)
        · exact fun more => absurd more (Nat.not_lt_of_le within)
      · obtain ⟨first, tail, sent, tailStray⟩ := tail_strays key
        rw [typed_cons, sent, List.cons_append] at inside ⊢
        have split : (fragment ++ first :: (tail ++ typed rest)).drop count =
            (tail ++ typed rest).drop (count - (fragment.length + 1)) := by
          have more : count = fragment.length + 1 + (count - (fragment.length + 1)) := by omega
          rw [List.append_cons, more, ← List.drop_drop, List.drop_left' (by simp)]
          simp
        rw [split]
        obtain ⟨gone, later, left, rfl, dropped, leftStray, -⟩ :=
          @ih tail (count - (fragment.length + 1)) tailStray (by
            simp only [List.length_append, List.length_cons] at inside ⊢
            omega)
        exact ⟨key :: gone, later, left, rfl, dropped, leftStray,
          fun _ => List.cons_ne_nil _ _⟩

/-- If more than the code is taken and its text is printed, then a NUL follows it, and the key
that sends it is gone. -/
theorem nul_of_text {kind other : Special} {later gone : List Key} {rest : List Key}
    (more : kind.code.length < count)
    (text : cstr ((kind.code ++ typed later).take count) = other.code) (split : later = gone ++ rest)
    (some_ : gone ≠ []) : 1 ≤ weight (gone.map Key.text) := by
  have taken : (kind.code ++ typed later).take count =
      kind.code ++ (typed later).take (count - kind.code.length) := by
    rw [List.take_append, List.take_of_length_le (Nat.le_of_lt more)]
  rw [taken, cstr_append_of_clean (zero_not_mem_code kind)] at text
  obtain rfl := eq_of_prefix_code ⟨_, text⟩
  have ended := List.append_right_eq_self.mp text
  obtain ⟨key, others, rfl⟩ := List.exists_cons_of_ne_nil some_
  rw [split, List.cons_append, typed_cons] at ended
  rw [List.map_cons, ← List.singleton_append, weight_append]
  obtain ⟨positive, another⟩ : ∃ positive, count - kind.code.length = positive + 1 :=
    ⟨count - kind.code.length - 1, by omega⟩
  rw [another] at ended
  cases key with
  | char byte ordinary =>
      have zero : byte = 0 := by
        by_contra nonzero
        change cstr (byte :: _) = [] at ended
        rw [cstr_cons_of_ne nonzero] at ended
        cases ended
      subst zero
      rw [Key.text, weight_nul]
      exact Nat.le_add_right ..
  | special kind =>
      change cstr (esc :: _) = [] at ended
      rw [cstr_cons_of_ne (by decide)] at ended
      cases ended

/-- A `read` after an ESC that does not take the code loses a report. -/
theorem Synced.lost (synced : Synced keys before) (strays_ : ¬ TakesCode before count)
    (moved : deliver before count = some after) : Lost keys after := by
  obtain ⟨here, other⟩ := Classical.not_imp.mp strays_
  rcases deliver_cases moved with ⟨there, _⟩ | ⟨-, positive, small, inside, rfl⟩
  · cases here.symm.trans there
  obtain ⟨done, rest, rfl, printed, stands⟩ := synced.stands
  rw [here] at stands
  obtain ⟨runs, kind, later, rfl, pending⟩ := stands
  rw [pending] at inside other ⊢
  obtain ⟨buffer, size, stored⟩ := takeCode_eq ((kind.code ++ typed later).take count)
    synced.size (Nat.le_trans (List.length_take_le ..) small)
    ((kind.code ++ typed later).drop count)
  obtain ⟨gone, rest, left, split, dropped, leftStray, some_⟩ :=
    exists_cut later (code_strays kind) inside
  rw [stored]
  refine ⟨size, done ++ .special kind :: gone, rest, left, ?_, dropped, leftStray, ?_⟩
  · rw [split, List.append_assoc, List.cons_append]
  · change weight (before.printed ++ _) < _
    rw [printed, weight_append, List.map_append, weight_append, List.map_cons,
      ← List.singleton_append, weight_append]
    have own := weight_key kind
    rcases bufferText_cases ((kind.code ++ typed later).take count) with
      ⟨found, text, reported⟩ | ⟨-, nothing⟩
    · -- a text is printed, but the string in the array is not all that has been taken
      have more : kind.code.length < count := by
        by_contra within
        have part : (kind.code ++ typed later).take count = kind.code.take count :=
          List.take_append_of_le_length (Nat.le_of_not_lt within)
        rw [part, cstr_eq_self fun zero => zero_not_mem_code kind (List.mem_of_mem_take zero),
          ← part] at text
        exact other ⟨found, mem_specials found, text⟩
      have nul := nul_of_text more text split (some_ more)
      rw [reported, weight_special, own]
      omega
    · have none_ : weight (bufferText ((kind.code ++ typed later).take count)) = 0 := by
        rw [nothing]
        rfl
      rw [none_, own]
      omega

/-- A report that is missing stays missing when a byte is read. -/
theorem Lost.key (lost : Lost keys before) (here : before.place = .key) {c : Byte}
    {bytes : List Byte} (next : before.pending = c :: bytes) :
    Lost keys (takeKey before c bytes) := by
  obtain ⟨done, rest, fragment, rfl, pending, stray, misses⟩ := lost.misses
  rw [here] at misses
  rw [next] at pending
  change weight before.printed < _ at misses
  cases fragment with
  | cons first fragment =>
      obtain ⟨rfl, rfl⟩ := List.cons.inj pending
      have here_ := stray c List.mem_cons_self
      rw [takeKey_char (strays_ordinary c here_).1, if_neg (strays_ordinary c here_).2]
      refine ⟨lost.size, done, rest, fragment, rfl, rfl,
        fun byte member => stray byte (List.mem_cons_of_mem _ member), ?_⟩
      change weight (before.printed ++ [charText c]) < _
      rw [weight_append, weight_stray here_]
      exact misses
  | nil =>
      cases rest with
      | nil => cases pending
      | cons key rest =>
          rw [List.nil_append, typed_cons] at pending
          cases key with
          | char byte ordinary =>
              obtain ⟨rfl, rfl⟩ := List.cons.inj pending
              rw [takeKey_char ordinary]
              refine ⟨lost.size, done ++ [.char c ordinary], rest, [], ?_, rfl,
                fun byte member => absurd member List.not_mem_nil, ?_⟩
              · rw [List.append_assoc, List.singleton_append]
              · have more : weight (before.printed ++ [charText c]) <
                    weight ((done ++ [Key.char c ordinary]).map Key.text) := by
                  rw [List.map_append, weight_append, weight_append]
                  exact Nat.add_lt_add_right misses _
                dsimp only
                split
                · exact ⟨rfl, more⟩
                · exact more
          | special kind =>
              obtain ⟨rfl, rfl⟩ := List.cons.inj pending
              refine ⟨lost.size, done ++ [.special kind], rest, kind.code, ?_, rfl,
                code_strays kind, ?_⟩
              · rw [List.append_assoc, List.singleton_append]
              · change weight before.printed + 1 < _
                rw [List.map_append, weight_append]
                rw [List.map_singleton, weight_key]
                omega

/-- It stays missing when a code is read, or something else for it. -/
theorem Lost.code (lost : Lost keys before) (here : before.place = .escape) (small : count ≤ 4)
    (inside : count ≤ before.pending.length) :
    Lost keys (takeCode before (before.pending.take count) (before.pending.drop count)) := by
  obtain ⟨done, rest, fragment, rfl, pending, stray, misses⟩ := lost.misses
  rw [here] at misses
  change weight before.printed + 1 < _ at misses
  rw [pending] at inside ⊢
  obtain ⟨buffer, size, stored⟩ := takeCode_eq ((fragment ++ typed rest).take count)
    lost.size (Nat.le_trans (List.length_take_le ..) small) ((fragment ++ typed rest).drop count)
  obtain ⟨gone, later, left, rfl, dropped, leftStray, -⟩ := exists_cut rest stray inside
  rw [stored]
  refine ⟨size, done ++ gone, later, left, ?_, dropped, leftStray, ?_⟩
  · rw [List.append_assoc]
  · change weight (before.printed ++ _) < _
    rw [weight_append, List.map_append, weight_append]
    have one := weight_bufferText_le ((fragment ++ typed (gone ++ later)).take count)
    omega

theorem Lost.step (lost : Lost keys before) (moved : deliver before count = some after) :
    Lost keys after := by
  rcases deliver_cases moved with ⟨here, c, rest, next, rfl⟩ | ⟨here, -, small, inside, rfl⟩
  · exact lost.key here next
  · exact lost.code here small inside

/-- Before the first byte is read, the program and the keyboard are in step. -/
theorem synced_start (memory : Memory) (keys : List Key) : Synced keys (start memory keys) :=
  ⟨memory.size, [], keys, rfl, rfl, fun _ none_ => absurd none_ List.not_mem_nil, rfl⟩

/-- What is left of the keys is told by what it sends. -/
theorem eq_of_typed {first second done rest : List Key}
    (split : first ++ second = done ++ rest) (same : typed second = typed rest) :
    first = done := by
  rcases List.append_eq_append_iff.mp split with ⟨more, rfl, rfl⟩ | ⟨more, rfl, rfl⟩
  · rw [typed, List.flatMap_append] at same
    rw [eq_nil_of_typed (List.append_left_eq_self.mp same), List.append_nil]
  · rw [typed, typed, List.flatMap_append] at same
    rw [eq_nil_of_typed (List.append_left_eq_self.mp same.symm), List.append_nil]

/-- The keys that are heard and the ones behind them. -/
theorem heard_append_drop (keys : List Key) :
    heard keys ++ keys.drop (heard keys).length = keys :=
  List.prefix_iff_eq_append.mp (prefix_heard keys)

/-- In the end, a program in step has reported the keys. -/
theorem Synced.decoded (synced : Synced keys after)
    (finished : after.place = .returned ∨ after.pending = []) : Decoded keys after := by
  obtain ⟨done, rest, split, printed, stands⟩ := synced.stands
  -- what is to be shown once the keys that have been read are the ones that are heard
  have report (heard_ : heard keys = done) (pending : after.pending = typed rest) :
      after.printed = (heard keys).map Key.text ∧
        after.pending = typed (keys.drop (heard keys).length) := by
    refine ⟨heard_ ▸ printed, ?_⟩
    rw [heard_, pending, split, List.drop_left]
  cases here : after.place with
  | key =>
      rw [here] at stands
      obtain ⟨runs, pending⟩ := stands
      have silent : after.pending = [] := by
        rcases finished with returned | silent
        · cases here.symm.trans returned
        · exact silent
      have none_ := eq_nil_of_typed (pending.symm.trans silent)
      subst none_
      rw [List.append_nil] at split
      subst split
      have told := report (heard_eq_self runs) pending
      refine ⟨told.1, told.2, ⟨fun returned => ?_, fun ⟨key, member, quits⟩ => ?_⟩, ?_⟩
      · cases here.symm.trans returned
      · cases (runs key member).symm.trans quits
      · rw [here]
        exact At.noConfusion
  | escape =>
      rw [here] at stands
      obtain ⟨-, kind, later, -, pending⟩ := stands
      rcases finished with returned | silent
      · cases here.symm.trans returned
      · rw [silent] at pending
        exact absurd (List.append_eq_nil_iff.mp pending.symm).1 (code_ne_nil kind)
  | returned =>
      rw [here] at stands
      obtain ⟨heard_, ⟨key, member, quits⟩, pending⟩ := stands
      have told := report (split ▸ heard_) pending
      refine ⟨told.1, told.2, ⟨fun _ => ⟨key, ?_, quits⟩, fun _ => here⟩, ?_⟩
      · rw [split]
        exact List.mem_append_left _ member
      · rw [here]
        exact At.noConfusion
  | failed | undefined =>
      rw [here] at stands
      exact stands.elim

/-- A report that is missing in the end has not been made. -/
theorem Lost.not_decoded (lost : Lost keys after)
    (finished : after.place = .returned ∨ after.pending = []) : ¬ Decoded keys after := by
  intro decoded
  obtain ⟨done, rest, fragment, split, pending, -, misses⟩ := lost.misses
  obtain ⟨whole, less⟩ : fragment = [] ∧
      weight after.printed < weight (done.map Key.text) := by
    cases here : after.place with
    | key =>
        rw [here] at misses finished
        rcases finished with returned | silent
        · cases returned
        · exact ⟨(List.append_eq_nil_iff.mp (pending.symm.trans silent)).1, misses⟩
    | escape =>
        rw [here] at misses finished
        rcases finished with returned | silent
        · cases returned
        · exact ⟨(List.append_eq_nil_iff.mp (pending.symm.trans silent)).1,
            Nat.lt_of_succ_lt misses⟩
    | returned =>
        rw [here] at misses
        exact misses
    | failed | undefined =>
        rw [here] at misses
        exact misses.elim
  rw [whole, List.nil_append] at pending
  have same : heard keys = done := eq_of_typed
    ((heard_append_drop keys).trans split) (decoded.pending.symm.trans pending)
  rw [decoded.printed, same] at less
  exact Nat.lt_irrefl _ less

/-- The keys up to the first `q` are reported just if each `read` after an ESC takes the code of
a key, and neither a part of it nor more. -/
theorem decoded_iff {memory : Memory} {keys : List Key} {counts : List ℕ} {after : State}
    (executed : run deliver (start memory keys) counts = some after)
    (finished : after.place = .returned ∨ after.pending = []) :
    Decoded keys after ↔ Along TakesCode deliver (start memory keys) counts := by
  have keeps (before : State) (count : ℕ) (after : State) : Synced keys before →
      TakesCode before count → deliver before count = some after → Synced keys after :=
    Synced.step
  have breaks (before : State) (count : ℕ) (after : State) : Synced keys before →
      ¬ TakesCode before count → deliver before count = some after → Lost keys after :=
    Synced.lost
  have stays (before : State) (count : ℕ) (after : State) : Lost keys before →
      deliver before count = some after → Lost keys after := Lost.step
  rcases run_decides keeps breaks stays (synced_start memory keys) executed with
    ⟨along, synced⟩ | ⟨strayed, lost⟩
  · exact iff_of_true (synced.decoded finished) along
  · exact iff_of_false (lost.not_decoded finished) strayed

/-- Ten bytes. -/
def zeroMemory : Memory := ⟨List.replicate 10 0, List.length_replicate⟩

/-- The cursor key, and its code in one piece. -/
theorem decoded_right : Decoded [.special .right] ⟨.key, [], [91, 67, 0, 0, 0, 0, 0, 0, 0, 0],
      [Special.right.text]⟩ ↔
    Along TakesCode deliver (start zeroMemory [.special .right]) [1, 2] :=
  decoded_iff (by decide) (.inr rfl)

/-- An `x` that is typed ahead is swallowed together with the cursor key. -/
theorem not_decoded_typedAhead :
    run deliver (start zeroMemory [.special .right, .char 120 (by decide)]) [1, 3] =
      some ⟨.key, [], [91, 67, 120, 0, 0, 0, 0, 0, 0, 0], []⟩ ∧
    ¬ Decoded [.special .right, .char 120 (by decide)]
      ⟨.key, [], [91, 67, 120, 0, 0, 0, 0, 0, 0, 0], []⟩ := by
  refine ⟨by decide, fun decoded => ?_⟩
  cases decoded.printed

end LinuxUnix.KeyStroke

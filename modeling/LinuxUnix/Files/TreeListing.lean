import LinuxUnix.Foundation.Forest
import LinuxUnix.Foundation.MailText

/-! # ftwalk.c

The entries of a directory and of its subdirectories are listed, each on a line of its own that starts
with a bar for each level of its depth. The path of the entry stands in front of every bar, so that the
text of a listing tells the whole tree, whatever the names are; but not for the directory `/`, where the
entries of the first level have no bar (`LinuxUnix.TreeListing.listing_tells_iff`).
-/

namespace LinuxUnix.TreeListing

abbrev Path := List Byte

/-- What an entry is that is not a directory that can be read. -/
inductive Kind
  /-- `FTW_F` -/
  | file
  /-- `FTW_DNR` -/
  | unreadable
  /-- any other flag -/
  | other
  deriving DecidableEq

/-- The flag of an entry; that of a directory is `none`. -/
abbrev Flag := Option Kind

/-- What `ftw` is called for. -/
inductive Root
  | leaf (kind : Kind)
  | dir (entries : Forest Path Kind)
  deriving DecidableEq

/-! ## The calls of the function -/

/-- Where `ftw` starts: slashes at the end are dropped. -/
def stripped (path : Path) : Path :=
  match (path.reverse.dropWhile (· == 47)).reverse with
  | [] => path.take 1
  | rest => rest

/-- The path of an entry of a directory. -/
def join (path name : Path) : Path :=
  if path.getLast? = some 47 then path ++ name else path ++ 47 :: name

/-- The entries of a directory in the order in which `ftw` comes to them. -/
def visits (path : Path) : Forest Path Kind → List (Path × Flag)
  | .nil => []
  | .leaf name kind rest => (join path name, some kind) :: visits path rest
  | .dir name entries rest =>
      (join path name, none) :: (visits (join path name) entries ++ visits path rest)

def Root.flag : Root → Flag
  | .leaf kind => some kind
  | .dir _ => none

/-- What `ftw` comes to behind the path at the top. -/
def Root.calls (path : Path) : Root → List (Path × Flag)
  | .leaf _ => []
  | .dir entries => TreeListing.visits path entries

def Root.visits (path : Path) (root : Root) : List (Path × Flag) :=
  (path, root.flag) :: root.calls path

/-- `dir_deep`: how many slashes there are. -/
def dirDeep (pfad : Path) : ℕ :=
  pfad.count 47

/-- `strchr(pfad, '/')` -/
def strchr (pfad : Path) : Option Path :=
  match pfad.dropWhile (· != 47) with
  | [] => none
  | rest => some rest

/-- `%2s` -/
def padded (text : List Byte) : List Byte :=
  List.replicate (2 - text.length) 32 ++ text

/-- What the flag adds to a line. -/
def mark : Flag → List Byte
  | some .file => "]".toUTF8.toList
  | none => "/]".toUTF8.toList
  | some .unreadable => "/-]".toUTF8.toList
  | some .other => "???]".toUTF8.toList

/-- The static variables of `fn`. -/
structure Static where
  first : Bool
  deep : ℕ

/-- `fn`, and what it prints. There is no outcome if `strchr` does not find anything. -/
def fn (static : Static) (pfadname : Path) (flag : Flag) : Option (Static × List Byte) :=
  if static.first then
    some (⟨false, dirDeep pfadname⟩, 91 :: (pfadname ++ (mark flag ++ [10])))
  else (strchr pfadname).map fun found =>
    (static, (List.replicate (dirDeep pfadname - static.deep) (padded pfadname ++ [124])).flatten ++
      ("---[".toUTF8.toList ++ (found.tail ++ (mark flag ++ [10]))))

/-- What the calls of `fn` print; it always returns 0, so that `ftw` goes on. -/
def walk : Static → List (Path × Flag) → Option (List Byte)
  | _, [] => some []
  | static, (pfadname, flag) :: calls => do
      let (static, text) ← fn static pfadname flag
      let texts ← walk static calls
      some (text ++ texts)

/-- The path that `main` calls `ftw` with. -/
def ptr (argv : List Path) : Path :=
  if argv.length < 2 then [46] else argv.getD 1 []

/-- `main`, with what is found at the path. -/
def main (argv : List Path) (found : Option Root) : Option (List Byte) :=
  match found with
  | none => some "Fehler bei ftw() ...!\n".toUTF8.toList
  | some root => walk ⟨true, 0⟩ (root.visits (stripped (ptr argv)))

/-! ## A line -/

/-- What stands behind the first slash. -/
def below (pfad : Path) : Path :=
  (pfad.dropWhile (· != 47)).tail

/-- The line of an entry. -/
def line (deep : ℕ) (pfad : Path) (flag : Flag) : List Byte :=
  (List.replicate (dirDeep pfad - deep) (padded pfad ++ [124])).flatten ++
    ("---[".toUTF8.toList ++ (below pfad ++ mark flag))

variable {deep : ℕ} {pfad other front behind behind' : Path} {flag flag' : Flag}

theorem strchr_eq (there : 47 ∈ pfad) : ∃ found, strchr pfad = some found ∧ found.tail = below pfad := by
  unfold strchr below
  split
  · rename_i nothing
    rw [List.dropWhile_eq_nil_iff] at nothing
    have differs := nothing 47 there
    cases differs
  · exact ⟨_, rfl, rfl⟩

/-- No call comes to nothing if there is a slash in each of the paths. -/
theorem walk_eq {calls : List (Path × Flag)} (there : ∀ call ∈ calls, 47 ∈ call.1) :
    walk ⟨false, deep⟩ calls =
      some ((calls.map fun call => line deep call.1 call.2).flatMap (· ++ [10])) := by
  induction calls with
  | nil => rfl
  | cons call calls ih =>
      obtain ⟨found, finds, rest⟩ := strchr_eq (there call (List.mem_cons_self ..))
      have later := ih fun call member => there call (List.mem_cons_of_mem _ member)
      rw [walk, fn, if_neg Bool.false_ne_true, finds]
      simp only [Option.map_some, Option.bind_eq_bind, Option.bind_some, later, rest, List.map_cons,
        List.flatMap_cons, line, List.append_assoc]

theorem mark_injective (same : mark flag = mark flag') : flag = flag' := by
  revert same
  rcases flag with _ | _ | _ | _ <;> rcases flag' with _ | _ | _ | _ <;> decide +kernel

theorem not_mem_mark (flag : Flag) : 10 ∉ mark flag := by
  rcases flag with _ | _ | _ | _ <;> decide +kernel

theorem below_eq (clean : 47 ∉ front) : below (front ++ 47 :: behind) = behind := by
  induction front with
  | nil => rfl
  | cons byte front ih =>
      rw [List.mem_cons, not_or] at clean
      have differs : (byte != 47) = true := bne_iff_ne.mpr (Ne.symm clean.1)
      rw [below, List.cons_append, List.dropWhile_cons, if_pos differs]
      exact ih clean.2

theorem padded_eq (long : 2 ≤ pfad.length) : padded pfad = pfad := by
  rw [padded, Nat.sub_eq_zero_of_le long]
  rfl

/-- The slashes of a line. -/
theorem count_line (clean : 47 ∉ front) (split : pfad = front ++ 47 :: behind)
    (long : 2 ≤ pfad.length) : (line deep pfad flag).count 47 + 1 =
      (dirDeep pfad - deep) * dirDeep pfad + dirDeep pfad + (mark flag).count 47 := by
  have bar : (padded pfad ++ [124]).count 47 = dirDeep pfad := by
    rw [padded_eq long, List.count_append]
    rfl
  have rest : (below pfad).count 47 + 1 = dirDeep pfad := by
    rw [dirDeep, split, below_eq clean, List.count_append, List.count_eq_zero.mpr clean,
      List.count_cons_self, Nat.zero_add]
  have dashes : "---[".toUTF8.toList.count 47 = 0 := by decide +kernel
  rw [line, List.count_append, List.count_append, List.count_append, List.count_flatten,
    List.map_replicate, bar, List.sum_replicate_nat, dashes]
  omega

/-- The length of a line. -/
theorem length_line (clean : 47 ∉ front) (split : pfad = front ++ 47 :: behind)
    (long : 2 ≤ pfad.length) : (line deep pfad flag).length + (front.length + 1) =
      (dirDeep pfad - deep) * (pfad.length + 1) + 4 + pfad.length + (mark flag).length := by
  have bar : (padded pfad ++ [124]).length = pfad.length + 1 := by
    rw [padded_eq long]
    exact List.length_append
  have rest : (below pfad).length + (front.length + 1) = pfad.length := by
    rw [split, below_eq clean, List.length_append, List.length_cons]
    omega
  have dashes : "---[".toUTF8.toList.length = 4 := by decide +kernel
  rw [line, List.length_append, List.length_append, List.length_append, List.length_flatten,
    List.map_replicate, bar, List.sum_replicate_nat, dashes]
  omega

/-- Deeper entries have more slashes in their lines. -/
theorem slashes_lt {k l : ℕ} (positive : 0 < k) (less : k < l) :
    k * (deep + k) + (deep + k) + 1 < l * (deep + l) + (deep + l) := by
  have product : (k + 1) * (deep + k + 1) ≤ l * (deep + l) :=
    Nat.mul_le_mul less (Nat.add_lt_add_left less deep)
  have expanded : (k + 1) * (deep + k + 1) = k * (deep + k) + k + (deep + k + 1) := by
    rw [Nat.succ_mul, Nat.mul_succ]
  omega

theorem slashes_inj {k l m n : ℕ} (positive : 0 < k) (positive' : 0 < l) (few : m ≤ 1) (few' : n ≤ 1)
    (same : k * (deep + k) + (deep + k) + m = l * (deep + l) + (deep + l) + n) : k = l ∧ m = n := by
  rcases Nat.lt_trichotomy k l with less | rfl | greater
  · have apart := @slashes_lt deep k l positive less
    omega
  · exact ⟨rfl, Nat.add_left_cancel same⟩
  · have apart := @slashes_lt deep l k positive' greater
    omega

theorem count_mark_le (flag : Flag) : (mark flag).count 47 ≤ 1 := by
  rcases flag with _ | _ | _ | _ <;> decide +kernel

/-- The marks with the same number of slashes differ in their length by three or by one. -/
theorem length_mark_cases (slashes : (mark flag).count 47 = (mark flag').count 47)
    (longer : (mark flag').length < (mark flag).length) :
    (mark flag).length = (mark flag').length + 3 ∨ (mark flag).length = (mark flag').length + 1 := by
  revert slashes longer
  rcases flag with _ | _ | _ | _ <;> rcases flag' with _ | _ | _ | _ <;> decide +kernel

/-- A text that is shifted by one byte consists of that byte. -/
theorem eq_of_shifted {byte : Byte} {text first second : List Byte}
    (same : text ++ first = byte :: (text ++ second)) : ∀ other ∈ text, other = byte := by
  induction text generalizing byte with
  | nil => exact nofun
  | cons head text ih =>
      obtain ⟨rfl, shifted⟩ := List.cons_eq_cons.mp same
      intro other member
      rcases List.mem_cons.mp member with rfl | later
      · rfl
      · exact ih shifted other later

theorem line_bars {k : ℕ} (bars : dirDeep pfad - deep = k + 1) (long : 2 ≤ pfad.length) :
    ∃ rest, line deep pfad flag = pfad ++ 124 :: ((List.replicate k (pfad ++ [124])).flatten ++ rest) := by
  refine ⟨"---[".toUTF8.toList ++ (below pfad ++ mark flag), ?_⟩
  rw [line, bars, padded_eq long, List.replicate_succ, List.flatten_cons]
  simp only [List.append_assoc, List.cons_append, List.nil_append]

/-- The path in the bars of a line is not longer than that in the same line. -/
theorem length_le_of_line (clean : 47 ∉ front) (split : pfad = front ++ 47 :: behind)
    (split' : other = front ++ 47 :: behind') (long : 2 ≤ pfad.length) (long' : 2 ≤ other.length)
    (above : deep < dirDeep pfad) (depth : dirDeep pfad = dirDeep other)
    (slashes : (mark flag).count 47 = (mark flag').count 47)
    (same : line deep pfad flag = line deep other flag') : other.length ≤ pfad.length := by
  by_contra longer
  obtain ⟨k, bars⟩ : ∃ k, dirDeep pfad - deep = k + 1 := ⟨dirDeep pfad - deep - 1, by omega⟩
  obtain ⟨a, length⟩ : ∃ a, other.length = pfad.length + 1 + a :=
    Nat.exists_eq_add_of_le (Nat.lt_of_not_le longer)
  -- the bars of the longer path leave room for a longer mark in the other line only
  have room : (k + 1) * (a + 1) + (a + 1) + (mark flag').length = (mark flag).length := by
    have first : (line deep pfad flag).length + _ = _ := length_line clean split long
    have second : (line deep other flag').length + _ = _ := length_line clean split' long'
    have product : (k + 1) * (pfad.length + 1 + a + 1) =
        (k + 1) * (pfad.length + 1) + (k + 1) * (a + 1) := by
      rw [← Nat.mul_add, Nat.add_assoc]
    rw [same, bars] at first
    rw [← depth, bars, length, product] at second
    omega
  have marks := length_mark_cases slashes (by omega)
  obtain rfl : a = 0 := by
    by_contra positive
    have twice : 1 * 2 ≤ (k + 1) * (a + 1) := Nat.mul_le_mul (by omega) (by omega)
    omega
  obtain rfl : k = 1 := by omega
  -- so that the path is a row of the bars themselves
  obtain ⟨rest, text⟩ := @line_bars _ _ flag _ bars long
  obtain ⟨rest', text'⟩ := @line_bars _ _ flag' _ (depth ▸ bars) long'
  rw [List.replicate_one, List.flatten_singleton] at text text'
  have whole : (pfad ++ [124]) ++ (pfad ++ ([124] ++ rest)) =
      other ++ (124 :: (other ++ [124] ++ rest')) := by
    rw [← text', ← same, text]
    simp only [List.append_assoc, List.cons_append, List.nil_append]
  obtain ⟨rfl, shifted⟩ := List.append_inj whole (by rw [length]; exact List.length_append)
  rw [List.append_assoc, List.append_assoc] at shifted
  have slash : 47 ∈ pfad := by
    rw [split]
    exact List.mem_append_right _ (List.mem_cons_self ..)
  exact absurd (eq_of_shifted shifted 47 slash) (by decide)

/-- **A line tells its entry.** -/
theorem line_inj (clean : 47 ∉ front) (split : pfad = front ++ 47 :: behind)
    (split' : other = front ++ 47 :: behind') (long : 2 ≤ pfad.length) (long' : 2 ≤ other.length)
    (above : deep < dirDeep pfad) (above' : deep < dirDeep other)
    (same : line deep pfad flag = line deep other flag') : pfad = other ∧ flag = flag' := by
  obtain ⟨k, bars, depth⟩ : ∃ k, dirDeep pfad - deep = k + 1 ∧ dirDeep pfad = deep + (k + 1) :=
    ⟨dirDeep pfad - deep - 1, by omega, by omega⟩
  obtain ⟨l, bars', depth'⟩ : ∃ l, dirDeep other - deep = l + 1 ∧ dirDeep other = deep + (l + 1) :=
    ⟨dirDeep other - deep - 1, by omega, by omega⟩
  have counts : (line deep pfad flag).count 47 + 1 = _ := count_line clean split long
  rw [same, count_line clean split' long', bars, bars', depth, depth'] at counts
  obtain ⟨levels, slashes⟩ := slashes_inj (Nat.succ_pos l) (Nat.succ_pos k) (count_mark_le flag')
    (count_mark_le flag) counts
  obtain rfl : l = k := Nat.succ.inj levels
  have equal : dirDeep pfad = dirDeep other := depth.trans depth'.symm
  have length := Nat.le_antisymm
    (length_le_of_line clean split' split long' long above' equal.symm slashes same.symm)
    (length_le_of_line clean split split' long long' above equal slashes.symm same)
  obtain ⟨rest, text⟩ := @line_bars _ _ flag _ bars long
  obtain ⟨rest', text'⟩ := @line_bars _ _ flag' _ bars' long'
  have heads : pfad = other := by
    rw [text, text'] at same
    exact (List.append_inj same length).1
  subst heads
  refine ⟨rfl, mark_injective ?_⟩
  exact List.append_cancel_left (List.append_cancel_left (List.append_cancel_left same))

/-! ## All lines -/

/-- A name that can be read in a line. -/
def Name (name : Path) : Prop :=
  name ≠ [] ∧ 47 ∉ name ∧ 10 ∉ name

instance (name : Path) : Decidable (Name name) :=
  inferInstanceAs (Decidable (_ ∧ _ ∧ _))

variable {path name : Path} {first second forest : Forest Path Kind}

/-- There is a slash in all paths that `ftw` comes to behind the first one. -/
theorem slash_of_visits {call : Path × Flag} (member : call ∈ visits path forest) : 47 ∈ call.1 := by
  have slash (path name : Path) : 47 ∈ join path name := by
    unfold join
    split
    · rename_i last
      exact List.mem_append_left _ (List.mem_of_getLast? last)
    · exact List.mem_append_right _ (List.mem_cons_self ..)
  induction forest generalizing path with
  | nil => cases member
  | leaf name kind rest ih =>
      rcases List.mem_cons.mp member with rfl | later
      · exact slash path name
      · exact ih later
  | dir name entries rest inner ih =>
      rcases List.mem_cons.mp member with rfl | later
      · exact slash path name
      · rcases List.mem_append.mp later with inside | behind
        · exact inner inside
        · exact ih behind

/-- A path that does not end with a slash. -/
def Open (path : Path) : Prop :=
  path.getLast? ≠ some 47

theorem join_eq (ends : Open path) (name : Path) : join path name = path ++ 47 :: name :=
  if_neg ends

theorem Open.join (ends : Open path) (valid : Name name) : Open (join path name) := by
  intro last
  rw [join_eq ends] at last
  have there := List.mem_of_getLast? last
  rw [List.getLast?_append_cons, List.getLast?_cons_of_ne_nil valid.1] at last
  exact valid.2.1 (List.mem_of_getLast? last)

theorem visits_under (ends : Open path) (clean : 10 ∉ path) (valid : forest.All Name)
    {call : Path × Flag} (member : call ∈ visits path forest) :
    ∃ tail, call.1 = path ++ 47 :: tail ∧ 10 ∉ call.1 := by
  have clean_ {path name : Path} (ends : Open path) (clean : 10 ∉ path) (valid : Name name) :
      10 ∉ join path name := by
    rw [join_eq ends, List.mem_append, List.mem_cons, not_or, not_or]
    exact ⟨clean, by decide, valid.2.2⟩
  induction forest generalizing path with
  | nil => cases member
  | leaf name kind rest ih =>
      rcases List.mem_cons.mp member with rfl | later
      · exact ⟨name, join_eq ends name, clean_ ends clean valid.1⟩
      · exact ih ends clean valid.2 later
  | dir name entries rest inner ih =>
      rcases List.mem_cons.mp member with rfl | later
      · exact ⟨name, join_eq ends name, clean_ ends clean valid.1⟩
      · rcases List.mem_append.mp later with inside | behind
        · obtain ⟨tail, split, without⟩ := inner (ends.join valid.1) (clean_ ends clean valid.1)
            valid.2.1 inside
          refine ⟨name ++ 47 :: tail, ?_, without⟩
          rw [split, join_eq ends, List.append_assoc, List.cons_append]
        · exact ih ends clean valid.2.2 behind

/-- What stands behind the last slash. -/
def lastName (pfad : Path) : Path :=
  (pfad.reverse.takeWhile (· != 47)).reverse

theorem lastName_join (ends : Open path) (valid : Name name) : lastName (join path name) = name := by
  have all : ∀ byte ∈ name.reverse, (byte != 47) = true := fun byte member =>
    bne_iff_ne.mpr fun slash => valid.2.1 (slash ▸ List.mem_reverse.mp member)
  rw [lastName, join_eq ends, List.reverse_append, List.reverse_cons, List.append_assoc,
    List.takeWhile_append_of_pos all]
  exact (congrArg List.reverse (List.append_nil _)).trans (List.reverse_reverse name)

theorem dirDeep_join (ends : Open path) (valid : Name name) :
    dirDeep (join path name) = dirDeep path + 1 := by
  rw [dirDeep, join_eq ends, List.count_append, List.count_cons_self,
    List.count_eq_zero.mpr valid.2.1]
  rfl

/-- An entry has as many slashes more than the path at the top as it is deep. -/
theorem rows_visits (ends : Open path) (valid : forest.All Name) :
    (visits path forest).map (fun call => (dirDeep call.1, lastName call.1, call.2)) =
      forest.rows (dirDeep path + 1) := by
  induction forest generalizing path with
  | nil => rfl
  | leaf name kind rest ih =>
      rw [visits, List.map_cons, ih ends valid.2, dirDeep_join ends valid.1,
        lastName_join ends valid.1]
      rfl
  | dir name entries rest inner ih =>
      rw [visits, List.map_cons, List.map_append, inner (ends.join valid.1) valid.2.1,
        ih ends valid.2.2, dirDeep_join ends valid.1, lastName_join ends valid.1]
      rfl

theorem visits_injective (ends : Open path) (valid : first.All Name) (valid' : second.All Name)
    (same : visits path first = visits path second) : first = second := by
  have rows : first.rows (dirDeep path + 1) = second.rows (dirDeep path + 1) := by
    rw [← rows_visits ends valid, ← rows_visits ends valid', same]
  exact Forest.rows_injective rows

theorem eq_of_map_eq {Source Target : Type*} {image : Source → Target} {one two : List Source}
    (injective : ∀ x ∈ one, ∀ y ∈ two, image x = image y → x = y)
    (same : one.map image = two.map image) : one = two := by
  induction one generalizing two with
  | nil => exact (List.map_eq_nil_iff.mp same.symm).symm
  | cons head one ih =>
      cases two with
      | nil => cases same
      | cons head' two =>
          obtain ⟨heads, tails⟩ := List.cons_eq_cons.mp same
          rw [injective head (List.mem_cons_self ..) head' (List.mem_cons_self ..) heads,
            ih (fun x member y member' => injective x (List.mem_cons_of_mem _ member) y
              (List.mem_cons_of_mem _ member')) tails]

/-- The lines tell the entries. -/
theorem lines_inj (ends : Open path) (some_ : path ≠ []) (clean : 10 ∉ path)
    (valid : first.All Name) (valid' : second.All Name)
    (same : (visits path first).map (fun call => line (dirDeep path) call.1 call.2) =
      (visits path second).map (fun call => line (dirDeep path) call.1 call.2)) :
    first = second := by
  have slash : 47 ∈ path ++ [47] := List.mem_append_right _ (List.mem_cons_self ..)
  obtain ⟨front, middle, split, slashless⟩ := List.eq_append_cons_of_mem slash
  have under (tail : Path) : path ++ 47 :: tail = front ++ 47 :: (middle ++ tail) := by
    rw [← List.singleton_append, ← List.append_assoc, split, List.append_assoc, List.cons_append]
  have long (tail : Path) : 2 ≤ (path ++ 47 :: tail).length := by
    have positive := List.length_pos_iff.mpr some_
    rw [List.length_append, List.length_cons]
    omega
  have deeper (tail : Path) : dirDeep path < dirDeep (path ++ 47 :: tail) := by
    rw [dirDeep, dirDeep, List.count_append, List.count_cons_self]
    omega
  refine visits_injective ends valid valid' (eq_of_map_eq (fun call there call' there' alike => ?_) same)
  obtain ⟨tail, here, -⟩ := visits_under ends clean valid there
  obtain ⟨tail', here', -⟩ := visits_under ends clean valid' there'
  rw [here, here'] at alike
  obtain ⟨paths, flags⟩ := line_inj slashless (under tail) (under tail') (long tail) (long tail')
    (deeper tail) (deeper tail') alike
  exact Prod.ext (here.trans (paths.trans here'.symm)) flags

/-! ## The text -/

/-- What is printed is a line for the path at the top, and one for each entry. -/
theorem walk_root {flag : Flag} {calls : List (Path × Flag)} (there : ∀ call ∈ calls, 47 ∈ call.1) :
    walk ⟨true, 0⟩ ((path, flag) :: calls) =
      some (((91 :: (path ++ mark flag)) ::
        calls.map fun call => line (dirDeep path) call.1 call.2).flatMap (· ++ [10])) := by
  rw [walk, fn, if_pos rfl]
  simp only [Option.bind_eq_bind, Option.bind_some, walk_eq there, List.flatMap_cons,
    List.cons_append, List.append_assoc]

theorem lines_flatMap {lines : List (List Byte)} (clean : ∀ line ∈ lines, 10 ∉ line) :
    MailText.lines (lines.flatMap (· ++ [10])) = lines := by
  induction lines with
  | nil => rfl
  | cons line lines ih =>
      rw [List.flatMap_cons, List.append_assoc, List.singleton_append,
        MailText.lines_line (clean line (List.mem_cons_self ..)),
        ih fun line member => clean line (List.mem_cons_of_mem _ member)]

theorem not_mem_line (clean : 10 ∉ pfad) (flag : Flag) : 10 ∉ line deep pfad flag := by
  have bar : 10 ∉ padded pfad ++ [124] := by
    rw [padded, List.mem_append, List.mem_append, not_or, not_or]
    refine ⟨⟨fun blank => ?_, clean⟩, by decide⟩
    exact absurd (List.eq_of_mem_replicate blank) (by decide)
  have rest : 10 ∉ below pfad := fun member =>
    clean ((List.dropWhile_sublist _).subset (List.mem_of_mem_tail member))
  rw [line, List.mem_append, List.mem_append, List.mem_append, not_or, not_or, not_or]
  refine ⟨fun member => ?_, by decide +kernel, rest, not_mem_mark flag⟩
  obtain ⟨part, there, inside⟩ := List.mem_flatten.mp member
  exact bar (List.eq_of_mem_replicate there ▸ inside)

/-- The names in a tree can be read in a line. -/
def Root.Valid : Root → Prop
  | .leaf _ => True
  | .dir entries => entries.All Name

theorem Root.slash_of_calls {root : Root} {call : Path × Flag} (member : call ∈ root.calls path) :
    47 ∈ call.1 := by
  cases root with
  | leaf kind => cases member
  | dir entries => exact slash_of_visits member

theorem Root.not_mem_of_calls {root : Root} (ends : Open path) (clean : 10 ∉ path)
    (valid : root.Valid) {call : Path × Flag} (member : call ∈ root.calls path) : 10 ∉ call.1 := by
  cases root with
  | leaf kind => cases member
  | dir entries =>
      obtain ⟨tail, -, without⟩ := visits_under ends clean valid member
      exact without

/-- The lines of a listing. -/
def Root.lines (path : Path) (root : Root) : List (List Byte) :=
  (91 :: (path ++ mark root.flag)) ::
    (root.calls path).map fun call => line (dirDeep path) call.1 call.2

theorem main_eq (argv : List Path) (root : Root) :
    main argv (some root) = some ((root.lines (stripped (ptr argv))).flatMap (· ++ [10])) := by
  rw [main, Root.visits, walk_root fun _ => Root.slash_of_calls]
  rfl

theorem Root.lines_injective {first second : Root} (ends : Open path) (some_ : path ≠ [])
    (clean : 10 ∉ path) (valid : first.Valid) (valid' : second.Valid)
    (same : first.lines path = second.lines path) : first = second := by
  obtain ⟨heads, tails⟩ := List.cons_eq_cons.mp same
  have flags : first.flag = second.flag :=
    mark_injective (List.append_cancel_left (List.tail_eq_of_cons_eq heads))
  cases first with
  | leaf kind =>
      cases second with
      | leaf kind' => exact congrArg Root.leaf (Option.some.inj flags)
      | dir entries => cases flags
  | dir entries =>
      cases second with
      | leaf kind => cases flags
      | dir entries' => exact congrArg Root.dir (lines_inj ends some_ clean valid valid' tails)

/-- What is left of a path is `/`, or it does not end with a slash. -/
theorem stripped_cases (some_ : path ≠ []) :
    stripped path = [47] ∨ Open (stripped path) ∧ stripped path ≠ [] := by
  unfold stripped
  split
  · rename_i nothing
    left
    rw [List.reverse_eq_nil_iff, List.dropWhile_eq_nil_iff] at nothing
    obtain ⟨byte, rest, rfl⟩ := List.exists_cons_of_ne_nil some_
    have slash := nothing byte (List.mem_reverse.mpr (List.mem_cons_self ..))
    rw [eq_of_beq slash]
    rfl
  · rename_i nonempty
    refine .inr ⟨fun last => ?_, nonempty⟩
    have head := List.head?_dropWhile_not (· == (47 : Byte)) path.reverse
    rw [List.getLast?_reverse] at last
    rw [last] at head
    cases head

theorem not_mem_stripped (clean : 10 ∉ path) : 10 ∉ stripped path := by
  unfold stripped
  split
  · exact fun member => clean (List.mem_of_mem_take member)
  · intro member
    have there := (List.dropWhile_sublist _).subset (List.mem_reverse.mp member)
    exact clean (List.mem_reverse.mp there)

/-- Two trees that look the same below `/`. -/
def file : Root := .dir (.leaf "x???".toUTF8.toList .file .nil)

def broken : Root := .dir (.leaf "x".toUTF8.toList .other .nil)

theorem valid_file : file.Valid := ⟨by decide +kernel, trivial⟩

theorem valid_broken : broken.Valid := ⟨by decide +kernel, trivial⟩

theorem file_ne_broken : file ≠ broken := by
  decide +kernel

/-- **A listing tells the tree.** Each tree is listed, and two trees that are listed with the same text
are the same one, exactly if the listing does not start at `/`. -/
theorem listing_tells_iff {argv : List Path} (some_ : ptr argv ≠ []) (clean : 10 ∉ ptr argv) :
    (∀ root, (main argv (some root)).isSome) ∧
      ((∀ first second, first.Valid → second.Valid →
        main argv (some first) = main argv (some second) → first = second) ↔
          stripped (ptr argv) ≠ [47]) := by
  refine ⟨fun root => ?_, fun tells top => ?_, fun below first second valid valid' same => ?_⟩
  · rw [main_eq]
    rfl
  · have same : main argv (some file) = main argv (some broken) := by
      rw [main_eq, main_eq, top]
      decide +kernel
    exact file_ne_broken (tells file broken valid_file valid_broken same)
  · obtain ⟨ends, rest⟩ := (stripped_cases some_).resolve_left below
    have clean_ := not_mem_stripped clean
    have all {root : Root} (valid : root.Valid) :
        ∀ line ∈ root.lines (stripped (ptr argv)), 10 ∉ line := by
      intro line member
      rcases List.mem_cons.mp member with rfl | later
      · rw [List.mem_cons, List.mem_append, not_or, not_or]
        exact ⟨by decide, clean_, not_mem_mark _⟩
      · obtain ⟨call, there, rfl⟩ := List.mem_map.mp later
        exact not_mem_line (Root.not_mem_of_calls ends clean_ valid there) _
    rw [main_eq, main_eq] at same
    have lines := congrArg MailText.lines (Option.some.inj same)
    rw [lines_flatMap (all valid), lines_flatMap (all valid')] at lines
    exact Root.lines_injective ends rest clean_ valid valid' lines

theorem listing_tells_apart : main [[102]] (some file) ≠ main [[102]] (some broken) := fun same =>
  file_ne_broken ((listing_tells_iff (by decide) (by decide)).2.mpr (by decide +kernel) file broken
    valid_file valid_broken same)

end LinuxUnix.TreeListing

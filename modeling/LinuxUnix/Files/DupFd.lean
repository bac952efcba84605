import LinuxUnix.Foundation.CMemory
import LinuxUnix.Foundation.DescriptorTable
import LinuxUnix.Foundation.OpenFiles
import LinuxUnix.Ipc.BlockPipe

/-! # dup_fd.c

The standard output is redirected to two files and back again, and each line is to go where a
comment beside it says. So it does, whatever other descriptors the program is started with, just if
descriptor 1 is open then; if it is not, one of the files gets this number, and is lost with the
first `dup2` (`LinuxUnix.DupFd.promised_iff`).

The files and what has been open before are taken to be different, and a `write` to an open
descriptor to write all. What is reported on `stderr` when `open` fails is left out.
-/

namespace LinuxUnix.DupFd

open BlockPipe CMemory OpenFiles

inductive Name
  | file1
  | file2
  deriving DecidableEq

/-- What a descriptor stands for. -/
inductive Object
  /-- something that the program has been started with -/
  | inherited (number : ℕ)
  | opened (name : Name)
  deriving DecidableEq

/-- The descriptors, and what has been written. -/
structure Machine where
  table : DescriptorTable Object
  calls : List (Object × List Byte)

/-- `STDOUT_FILENO` and `STDERR_FILENO`. -/
def stdoutFileno : ℤ := 1
def stderrFileno : ℤ := 2

/-- The lowest number that is free, if the limit on descriptors leaves one. -/
def lowest (limit : ℕ) (table : DescriptorTable Object) : Option ℕ :=
  (List.range limit).find? fun fd => (table fd).isNone

/-- A descriptor for an object, or `-1`. -/
def Machine.allocate (machine : Machine) (limit : ℕ) (object : Object) : ℤ × Machine :=
  match lowest limit machine.table with
  | some fd => (fd, { machine with table := machine.table.install fd object })
  | none => (-1, machine)

/-- `open`. -/
def Machine.openFile (machine : Machine) (limit : ℕ) (succeeds : Bool) (name : Name) :
    ℤ × Machine :=
  if succeeds then machine.allocate limit (.opened name) else (-1, machine)

/-- `dup`. -/
def Machine.dup (machine : Machine) (limit : ℕ) (fd : ℤ) : ℤ × Machine :=
  match machine.table.lookup fd with
  | some object => machine.allocate limit object
  | none => (-1, machine)

/-- `dup2(fd, STDOUT_FILENO)`. -/
def Machine.dup2 (machine : Machine) (fd : ℤ) : Machine :=
  match machine.table.lookup fd with
  | some object => { machine with table := machine.table.install stdoutFileno.toNat object }
  | none => machine

/-- `close`. -/
def Machine.close (machine : Machine) (fd : ℤ) : Machine :=
  { machine with table := machine.table.release fd }

/-- `write`. -/
def Machine.write (machine : Machine) (fd : ℤ) (text : List Byte) : Machine :=
  match machine.table.lookup fd with
  | some object => { machine with calls := machine.calls ++ [(object, text)] }
  | none => machine

/-- `test_write`. -/
def Machine.testWrite (machine : Machine) (text : List Byte) : Machine :=
  machine.write stdoutFileno text

/-- The line with a number. -/
def line (number : Char) : List Byte :=
  "Zeile ".toUTF8.toList ++ [number.toUInt8, '\n'.toUInt8]

/-- `TEXT`. -/
def text : List Byte := "Schwerer fehler...\n".toUTF8.toList

/-- The lines of `main` from the first `test_write` on. -/
def Machine.lines (machine : Machine) (fd1 fd2 : ℤ) : Machine :=
  let machine := machine.testWrite (line '1')
  let machine := (machine.dup2 fd1).testWrite (line '2')
  let machine := (machine.dup2 fd2).testWrite (line '3')
  let machine := machine.testWrite (line '4')
  let machine := (machine.dup2 fd1).testWrite (line '5')
  let machine := (machine.dup2 fd2).testWrite (line '6')
  machine.testWrite (line '7')

/-- The end of `main`. -/
def Machine.report (machine : Machine) (limit : ℕ) : Machine :=
  let (fd3, machine) := machine.dup limit stderrFileno
  machine.write fd3 text

/-- What the program starts with. -/
def start (table : DescriptorTable ℕ) : Machine where
  table fd := (table fd).map .inherited
  calls := []

/-- `main`, given which of the files can be opened. -/
def main (limit : ℕ) (opens : Name → Bool) (table : DescriptorTable ℕ) : Status × Machine :=
  let (fd1, machine) := (start table).openFile limit (opens .file1) .file1
  let (fd2, machine) := machine.openFile limit (opens .file2) .file2
  if fd1 = -1 ∨ fd2 = -1 then (.exitFailure, machine)
  else (.exitSuccess, (((machine.lines fd1 fd2).close fd1).close fd2).report limit)

/-- The files are opened without `O_APPEND`. -/
def opening (appends : ℕ → Bool) : Opening Object Object where
  file := id
  appends
    | .inherited number => appends number
    | .opened _ => false

/-- What is open before the first `write`: the files at their start, without `O_TRUNC`. -/
def old (content : Object → List Byte) (offset : ℕ → ℕ) : OpenFiles Object Object Byte where
  content := content
  offset
    | .inherited number => offset number
    | .opened _ => 0

/-- What the comments promise: which lines are in the files, over what was there, and which have
gone elsewhere. -/
structure Promised (before after : OpenFiles Object Object Byte)
    (table : DescriptorTable ℕ) (calls : List (Object × List Byte)) : Prop where
  file1 : after.content (.opened .file1) =
    put 0 (before.content (.opened .file1)) 0 (line '2' ++ line '5')
  file2 : after.content (.opened .file2) =
    put 0 (before.content (.opened .file2)) 0 (line '3' ++ line '4' ++ line '6' ++ line '7')
  others : ∀ number, through calls (.inherited number) =
    (if table 1 = some number then line '1' else []) ++
      if table 2 = some number then text else []

variable {machine after : Machine} {limit number : ℕ} {fd fd1 fd2 : ℤ} {object : Object}
  {bytes : List Byte} {name : Name}

theorem lowest_eq_some_iff {table : DescriptorTable Object} :
    lowest limit table = some number ↔ number < limit ∧ table.Lowest number := by
  simp only [lowest, List.find?_range_eq_some, Option.isNone_iff_eq_none, List.mem_range,
    Bool.not_eq_eq_eq_not, Bool.not_true, Option.isNone_eq_false_iff, Option.isSome_iff_ne_none,
    DescriptorTable.Lowest]
  exact and_left_comm

theorem exists_lowest {table : DescriptorTable Object} (inside : number < limit)
    (free : table number = none) : ∃ fd, lowest limit table = some fd := by
  refine Option.isSome_iff_exists.mp (List.find?_isSome.mpr ⟨number, List.mem_range.mpr inside, ?_⟩)
  exact Option.isNone_iff_eq_none.mpr free

/-- A call that hands out a descriptor. -/
theorem allocate_cases (machine : Machine) (limit : ℕ) (object : Object) :
    machine.allocate limit object = (-1, machine) ∨ ∃ number : ℕ,
      number < limit ∧ machine.table.Lowest number ∧ machine.allocate limit object =
        ((number : ℤ), { machine with table := machine.table.install number object }) := by
  rw [Machine.allocate]
  cases found : lowest limit machine.table with
  | none => exact .inl rfl
  | some number =>
      obtain ⟨inside, lowest_⟩ := lowest_eq_some_iff.mp found
      exact .inr ⟨number, inside, lowest_, rfl⟩

theorem calls_prefix_write (machine : Machine) (fd : ℤ) (bytes : List Byte) :
    machine.calls <+: (machine.write fd bytes).calls := by
  rw [Machine.write]
  split
  · exact List.prefix_append ..
  · exact List.prefix_rfl

theorem calls_dup2 (machine : Machine) (fd : ℤ) : (machine.dup2 fd).calls = machine.calls := by
  rw [Machine.dup2]
  split <;> rfl

theorem calls_prefix_redirect (machine : Machine) (fd : ℤ) (bytes : List Byte) :
    machine.calls <+: ((machine.dup2 fd).testWrite bytes).calls := by
  rw [← calls_dup2 machine fd]
  exact calls_prefix_write ..

/-- What has been written remains so. -/
theorem calls_prefix_lines (machine : Machine) (fd1 fd2 : ℤ) :
    (machine.testWrite (line '1')).calls <+: (machine.lines fd1 fd2).calls := by
  refine (calls_prefix_redirect _ fd1 (line '2')).trans ?_
  refine (calls_prefix_redirect _ fd2 (line '3')).trans ?_
  refine (calls_prefix_write _ stdoutFileno (line '4')).trans ?_
  refine (calls_prefix_redirect _ fd1 (line '5')).trans ?_
  refine (calls_prefix_redirect _ fd2 (line '6')).trans ?_
  exact calls_prefix_write _ stdoutFileno (line '7')

theorem calls_prefix_report (machine : Machine) (limit : ℕ) :
    machine.calls <+: (machine.report limit).calls := by
  have same : (machine.dup limit stderrFileno).2.calls = machine.calls := by
    rw [Machine.dup]
    split
    · rcases allocate_cases machine limit ‹Object› with nothing | ⟨_, _, _, found⟩
      · rw [nothing]
      · rw [found]
    · rfl
  rw [← same]
  exact calls_prefix_write ..

variable {table : DescriptorTable Object} {calls : List (Object × List Byte)}

theorem write_of_lookup (there : table.lookup fd = some object) :
    (⟨table, calls⟩ : Machine).write fd bytes = ⟨table, calls ++ [(object, bytes)]⟩ := by
  simp only [Machine.write, there]

theorem testWrite_of_lookup (there : table.lookup 1 = some object) :
    (⟨table, calls⟩ : Machine).testWrite bytes = ⟨table, calls ++ [(object, bytes)]⟩ :=
  write_of_lookup there

theorem redirect_of_lookup (there : table.lookup fd = some object) :
    ((⟨table, calls⟩ : Machine).dup2 fd).testWrite bytes =
      ⟨table.install 1 object, calls ++ [(object, bytes)]⟩ := by
  simp only [Machine.dup2, there]
  exact testWrite_of_lookup DescriptorTable.lookup_install_self

/-- With descriptors of the files other than 1, each line goes where it should. -/
theorem lines_of_lookup (first : table.lookup fd1 = some (.opened .file1))
    (second : table.lookup fd2 = some (.opened .file2)) (not1 : fd1 ≠ 1) (not2 : fd2 ≠ 1)
    (there : table.lookup 1 = some object) : (⟨table, calls⟩ : Machine).lines fd1 fd2 =
      ⟨table.install 1 (.opened .file2), calls ++ [(object, line '1'),
        (.opened .file1, line '2'), (.opened .file2, line '3'), (.opened .file2, line '4'),
        (.opened .file1, line '5'), (.opened .file2, line '6'), (.opened .file2, line '7')]⟩ := by
  have onFile1 : (table.install 1 (.opened .file1)).lookup fd2 = some (.opened .file2) :=
    (DescriptorTable.lookup_install_of_ne not2).trans second
  have onFile2 : (table.install 1 (.opened .file2)).lookup fd1 = some (.opened .file1) :=
    (DescriptorTable.lookup_install_of_ne not1).trans first
  have stdout : (table.install 1 (.opened .file2)).lookup 1 = some (.opened .file2) :=
    DescriptorTable.lookup_install_self
  have last (name other : Name) : (table.install 1 (.opened name)).install 1 (.opened other) =
      table.install 1 (.opened other) := Function.update_idem ..
  simp only [Machine.lines]
  rw [testWrite_of_lookup there, redirect_of_lookup first, redirect_of_lookup onFile1, last,
    testWrite_of_lookup stdout, redirect_of_lookup onFile2, last, redirect_of_lookup onFile1, last,
    testWrite_of_lookup stdout]
  simp only [List.append_assoc, List.cons_append, List.nil_append]

/-- The text goes where descriptor 2 leads, if there is a number left for it. -/
theorem report_of_free {number : ℕ} (inside : number < limit) (free : table number = none) :
    ((⟨table, calls⟩ : Machine).report limit).calls =
      calls ++ (table.lookup stderrFileno).toList.map fun object => (object, text) := by
  simp only [Machine.report, Machine.dup]
  cases there : table.lookup stderrFileno with
  | none =>
      simp only [Machine.write, DescriptorTable.lookup]
      exact (List.append_nil _).symm
  | some object =>
      obtain ⟨fd3, found⟩ := exists_lowest inside free
      simp only [Machine.allocate, found]
      rw [write_of_lookup DescriptorTable.lookup_install_self]
      rfl

/-- A program that comes to its end has got two descriptors. -/
theorem exists_of_main {inherited : DescriptorTable ℕ} {opens : Name → Bool}
    (ran : main limit opens inherited = (.exitSuccess, after)) : ∃ number1 number2 : ℕ,
      number1 < limit ∧ (start inherited).table.Lowest number1 ∧
        ((start inherited).table.install number1 (.opened .file1)).Lowest number2 ∧
        after = ((((⟨((start inherited).table.install number1 (.opened .file1)).install number2
          (.opened .file2), []⟩ : Machine).lines number1 number2).close number1).close
            number2).report limit := by
  have allocated {succeeds : Bool} {machine next : Machine} {fd : ℤ} {name : Name}
      (handed : machine.openFile limit succeeds name = (fd, next)) (valid : fd ≠ -1) :
      ∃ number : ℕ, fd = number ∧ number < limit ∧ machine.table.Lowest number ∧
        next = ⟨machine.table.install number (.opened name), machine.calls⟩ := by
    rw [Machine.openFile] at handed
    split at handed
    · rcases allocate_cases machine limit (.opened name) with none_ | ⟨number, inside, low, found⟩
      · rw [none_] at handed
        exact absurd (congrArg Prod.fst handed).symm valid
      · rw [found] at handed
        cases handed
        exact ⟨number, rfl, inside, low, rfl⟩
    · exact absurd (congrArg Prod.fst handed).symm valid
  generalize handed1 : (start inherited).openFile limit (opens .file1) .file1 = first at ran
  obtain ⟨fd1, machine1⟩ := first
  generalize handed2 : machine1.openFile limit (opens .file2) .file2 = second at ran
  obtain ⟨fd2, machine2⟩ := second
  simp only [main, handed1, handed2] at ran
  split at ran
  · cases ran
  · rename_i valid
    obtain ⟨valid1, valid2⟩ := not_or.mp valid
    obtain ⟨number1, rfl, inside1, low1, rfl⟩ := allocated handed1 valid1
    obtain ⟨number2, rfl, -, low2, rfl⟩ := allocated handed2 valid2
    cases ran
    exact ⟨number1, number2, inside1, low1, low2, rfl⟩

variable {inherited : DescriptorTable ℕ} {opens : Name → Bool}

/-- Started with descriptor 1 open, the program writes the lines where the comments say. -/
theorem calls_of_open (ran : main limit opens inherited = (.exitSuccess, after)) {number : ℕ}
    (stdout : inherited 1 = some number) : after.calls =
      [(.inherited number, line '1'), (.opened .file1, line '2'), (.opened .file2, line '3'),
        (.opened .file2, line '4'), (.opened .file1, line '5'), (.opened .file2, line '6'),
        (.opened .file2, line '7')] ++
          (inherited 2).toList.map fun number => (.inherited number, text) := by
  obtain ⟨number1, number2, inside1, low1, low2, rfl⟩ := exists_of_main ran
  have there : (start inherited).table 1 = some (.inherited number) :=
    congrArg (Option.map Object.inherited) stdout
  have not1 : number1 ≠ 1 := by
    rintro rfl
    rw [low1.1] at there
    cases there
  have not2 : number2 ≠ 1 := by
    rintro rfl
    have free := low2.1
    rw [DescriptorTable.install_of_ne not1.symm, there] at free
    cases free
  have different : number1 ≠ number2 := by
    rintro rfl
    have free := low2.1
    rw [DescriptorTable.install_self] at free
    cases free
  have free2 : (start inherited).table number2 = none := by
    rw [← low2.1, DescriptorTable.install_of_ne different.symm]
  generalize table_ : ((start inherited).table.install number1 (.opened .file1)).install number2
    (.opened .file2) = table
  have first : table.lookup (number1 : ℤ) = some (.opened .file1) := by
    rw [DescriptorTable.lookup_natCast, ← table_, DescriptorTable.install_of_ne different,
      DescriptorTable.install_self]
  have second : table.lookup (number2 : ℤ) = some (.opened .file2) := by
    rw [← table_]
    exact DescriptorTable.lookup_install_self
  have third : table.lookup 1 = some (.inherited number) := by
    change table.lookup ((1 : ℕ) : ℤ) = _
    rw [DescriptorTable.lookup_natCast, ← table_, DescriptorTable.install_of_ne not2.symm,
      DescriptorTable.install_of_ne not1.symm, there]
  rw [lines_of_lookup first second (by exact_mod_cast not1) (by exact_mod_cast not2) third,
    Machine.close, Machine.close]
  have released : (((table.install 1 (.opened .file2)).release number1).release number2) number1 =
      none := by
    have closed := DescriptorTable.lookup_release_eq_none
      (DescriptorTable.lookup_release_self (table.install 1 (.opened .file2)) number1) number2
    rwa [DescriptorTable.lookup_natCast] at closed
  have stderr : (((table.install 1 (.opened .file2)).release number1).release number2).lookup
      stderrFileno = (inherited 2).map .inherited := by
    by_cases same2 : (number2 : ℤ) = stderrFileno
    · have same : number2 = 2 := Int.ofNat_inj.mp same2
      rw [← same2, DescriptorTable.lookup_release_self]
      rw [same] at free2
      exact free2.symm
    rw [DescriptorTable.lookup_release_of_ne fun same => same2 same.symm]
    by_cases same1 : (number1 : ℤ) = stderrFileno
    · have same : number1 = 2 := Int.ofNat_inj.mp same1
      rw [← same1, DescriptorTable.lookup_release_self]
      have free1 := low1.1
      rw [same] at free1
      exact free1.symm
    rw [DescriptorTable.lookup_release_of_ne fun same => same1 same.symm,
      DescriptorTable.lookup_install_of_ne (by decide), ← table_,
      DescriptorTable.lookup_install_of_ne fun same => same2 same.symm,
      DescriptorTable.lookup_install_of_ne fun same => same1 same.symm]
    exact DescriptorTable.lookup_natCast _ 2
  rw [report_of_free inside1 released, stderr]
  cases inherited 2 with
  | none => rfl
  | some other => rfl

/-- Started without descriptor 1, the program loses one of its files: the first line is in it. -/
theorem exists_calls_of_closed (ran : main limit opens inherited = (.exitSuccess, after))
    (stdout : inherited 1 = none) :
    ∃ name rest, after.calls = (.opened name, line '1') :: rest := by
  obtain ⟨number1, number2, inside1, low1, low2, rfl⟩ := exists_of_main ran
  have free : (start inherited).table 1 = none := congrArg (Option.map Object.inherited) stdout
  generalize table_ : ((start inherited).table.install number1 (.opened .file1)).install number2
    (.opened .file2) = table
  have there : ∃ name, table.lookup 1 = some (.opened name) := by
    change ∃ name, table.lookup ((1 : ℕ) : ℤ) = _
    rw [DescriptorTable.lookup_natCast, ← table_]
    by_cases same2 : number2 = 1
    · rw [same2]
      exact ⟨.file2, DescriptorTable.install_self⟩
    · refine ⟨.file1, ?_⟩
      have same1 : number1 = 1 := by
        have small1 : ¬ 1 < number1 := fun large => low1.2 1 large free
        by_contra different
        have zero : number1 = 0 := by omega
        have free1 : ((start inherited).table.install number1 (.opened .file1)) 1 = none := by
          rw [DescriptorTable.install_of_ne (by omega), free]
        have small2 : ¬ 1 < number2 := fun large => low2.2 1 large free1
        have other : number2 = number1 := by omega
        have taken := low2.1
        rw [other, DescriptorTable.install_self] at taken
        cases taken
      rw [DescriptorTable.install_of_ne fun same => same2 same.symm, same1]
      exact DescriptorTable.install_self
  obtain ⟨name, there⟩ := there
  have first : (⟨table, []⟩ : Machine).testWrite (line '1') =
      ⟨table, [(.opened name, line '1')]⟩ := testWrite_of_lookup there
  have lines_ := calls_prefix_lines ⟨table, []⟩ number1 number2
  rw [first] at lines_
  obtain ⟨rest, whole⟩ := lines_.trans (calls_prefix_report
    (((((⟨table, []⟩ : Machine).lines number1 number2).close number1).close number2)) limit)
  exact ⟨name, rest, whole.symm⟩

variable {files : Object → List Byte} {offset : ℕ → ℕ} {appends : ℕ → Bool}

/-- A file has what has been written to it, over its old content. -/
theorem content_opened (calls : List (Object × List Byte)) (name : Name) :
    ((old files offset).writes (opening appends) 0 calls).content (.opened name) =
      put 0 (files (.opened name)) 0 (through calls (.opened name)) := by
  have overwrites : (opening appends).appends (.opened name) = false := rfl
  have sole : ∀ call ∈ calls, (opening appends).file call.1 =
      (opening appends).file (.opened name) → call.1 = .opened name := fun _ _ => id
  exact content_writes_of_sole overwrites sole

theorem length_line (number : Char) : (line number).length = 8 := by
  rw [line, List.length_append, show ("Zeile ".toUTF8.toList).length = 6 by decide +kernel]
  rfl

/-- The line at the start of a file. -/
theorem take_put (number : Char) (before rest : List Byte) :
    (put 0 before 0 (line number ++ rest)).take 8 = line number := by
  have some_ : line number ++ rest ≠ [] := by
    intro nothing
    have length := congrArg List.length (List.append_eq_nil_iff.mp nothing).1
    rw [length_line] at length
    cases length
  rw [put, if_neg some_, List.take_zero, Nat.zero_sub, List.replicate_zero, List.nil_append,
    List.nil_append, List.append_assoc]
  exact List.take_left' (length_line number)

/-- **The comments are right with a standard output.** Whatever the program is started with, the
lines go where they should if and only if descriptor 1 is open. -/
theorem promised_iff (ran : main limit opens inherited = (.exitSuccess, after)) :
    Promised (old files offset) ((old files offset).writes (opening appends) 0 after.calls)
      inherited after.calls ↔ inherited 1 ≠ none := by
  refine ⟨fun promised closed => ?_, fun open_ => ?_⟩
  · obtain ⟨name, rest, calls⟩ := exists_calls_of_closed ran closed
    have first : through after.calls (.opened name) = line '1' ++ through rest (.opened name) := by
      rw [calls, through_cons, if_pos rfl]
    cases name with
    | file1 =>
        have content := promised.file1
        rw [content_opened, first] at content
        have start := congrArg (List.take 8) content
        change (put 0 (files (.opened .file1)) 0 _).take 8 =
          (put 0 (files (.opened .file1)) 0 _).take 8 at start
        rw [take_put, take_put] at start
        exact absurd start (by decide +kernel)
    | file2 =>
        have content := promised.file2
        rw [content_opened, first] at content
        have start := congrArg (List.take 8) content
        rw [take_put, List.append_assoc, List.append_assoc] at start
        change line '1' = (put 0 (files (.opened .file2)) 0 _).take 8 at start
        rw [take_put] at start
        exact absurd start (by decide +kernel)
  · obtain ⟨number, stdout⟩ := Option.ne_none_iff_exists'.mp open_
    have calls := calls_of_open ran stdout
    refine ⟨?_, ?_, fun other => ?_⟩
    · rw [content_opened, calls]
      cases inherited 2 <;> simp [old]
    · rw [content_opened, calls]
      cases inherited 2 <;> simp [old]
    · rw [calls, stdout]
      cases inherited 2 <;> simp

/-- The descriptors 0, 1 and 2; and 0 and 2 only. -/
def usual (fd : ℕ) : Option ℕ := if fd < 3 then some fd else none
def redirected (fd : ℕ) : Option ℕ := if fd = 1 then none else usual fd

theorem promised_of_usual :
    (main 8 (fun _ => true) usual).1 = .exitSuccess ∧
      (main 8 (fun _ => true) redirected).1 = .exitSuccess ∧
      Promised (old (fun _ => []) fun _ => 0) ((old (fun _ => []) fun _ => 0).writes
        (opening fun _ => false) 0 (main 8 (fun _ => true) usual).2.calls) usual
          (main 8 (fun _ => true) usual).2.calls ∧
      ¬ Promised (old (fun _ => []) fun _ => 0) ((old (fun _ => []) fun _ => 0).writes
        (opening fun _ => false) 0 (main 8 (fun _ => true) redirected).2.calls) redirected
          (main 8 (fun _ => true) redirected).2.calls := by
  have first : (main 8 (fun _ => true) usual).1 = .exitSuccess := by decide +kernel
  have second : (main 8 (fun _ => true) redirected).1 = .exitSuccess := by decide +kernel
  refine ⟨first, second, (promised_iff (Prod.ext first rfl)).mpr (by decide), fun promised => ?_⟩
  exact (promised_iff (Prod.ext second rfl)).mp promised rfl

end LinuxUnix.DupFd

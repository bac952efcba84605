import LinuxUnix.Devices.CdRom
import LinuxUnix.Foundation.FormattedNumbers
import LinuxUnix.Foundation.Iteration

/-! # Listing a CD

`content_cdrom` of cdrom.c prints a line for each entry of the table of contents, from the first
track to the last one, and exits at an entry that it cannot read. The lines can be read back, two of
their numbers make up the address of the track, and `play_cdrom` plays a track from the address
in its line to the one in the next line (`LinuxUnix.CdContent.listed_of_content`).
-/

namespace LinuxUnix.CdContent

open CdRom Decimal

/-- `struct cdrom_tocentry` -/
structure TocEntry where
  addr : Msf
  ctrl : ℕ
  deriving DecidableEq

/-- How the drive answers `CDROMREADTOCHDR`, with the first and the last track, and
`CDROMREADTOCENTRY`. -/
structure Disc where
  header : Option (Byte × Byte)
  entry : ℕ → Option TocEntry

/-- The drive as `play_cdrom` sees it. -/
def Disc.drive (disc : Disc) (playMsf : CdromMsf → Bool) : Drive where
  readTocEntry track := (disc.entry track).map TocEntry.addr
  playMsf := playMsf

/-- What a line is about. -/
structure Line where
  track : ℕ
  entry : TocEntry
  deriving DecidableEq

/-- `CDROM_DATA_TRACK` -/
def cdromDataTrack : ℕ := 4

/-- `cdte_addr.msf.frame + cdte_addr.msf.second * 75` -/
def Line.frames (line : Line) : ℤ :=
  line.entry.addr.frame.toNat + line.entry.addr.second.toNat * 75

/-- `cdte_addr.msf.minute * 75 * 60 - 150` -/
def Line.minutes (line : Line) : ℤ :=
  line.entry.addr.minute.toNat * 75 * 60 - 150

/-- The numbers of the format `%3d: %02d:%02d:%02d (%06d, %06d) `. -/
def Line.fields (line : Line) : List Field :=
  [.spaces 3 (cdteTrack line.track) [58, 32] ⟨58, [32], rfl, rfl⟩,
    .zeros 2 line.entry.addr.minute.toNat [58] ⟨58, [], rfl, rfl⟩,
    .zeros 2 line.entry.addr.second.toNat [58] ⟨58, [], rfl, rfl⟩,
    .zeros 2 line.entry.addr.frame.toNat [32, 40] ⟨32, [40], rfl, rfl⟩,
    .zeros 6 line.frames [44, 32] ⟨44, [32], rfl, rfl⟩,
    .zeros 6 line.minutes [41, 32] ⟨41, [32], rfl, rfl⟩]

/-- The end of the line: `data` or `audio`, and `(leadout)`. -/
def Line.kind (line : Line) : List Byte :=
  (if line.entry.ctrl &&& cdromDataTrack ≠ 0 then [100, 97, 116, 97]
    else [97, 117, 100, 105, 111]) ++
  (if cdromLeadout = line.track then [32, 40, 108, 101, 97, 100, 111, 117, 116, 41] else []) ++ [10]

/-- The line as it is printed. -/
def Line.text (line : Line) : List Byte :=
  Decimal.line line.fields ++ line.kind

/-- Where `content_cdrom` is. -/
inductive At
  /-- before `ioctl(cdrom, CDROMREADTOCHDR, &tochdr)` -/
  | header
  /-- before `while (track <= tochdr.cdth_trk1)` -/
  | looping (trk1 : ℕ)
  | returned
  | exited
  deriving DecidableEq

/-- The number in `Inhalt %d Tracks:`, the lines, and what `perror` has printed. -/
structure State where
  place : At
  track : ℕ
  headline : Option ℕ
  lines : List Line
  stderr : List String
  deriving DecidableEq

/-- A step of `content_cdrom`. -/
def step (disc : Disc) (state : State) : State :=
  match state.place with
  | .header =>
      match disc.header with
      | none => { state with
          place := .exited
          stderr := state.stderr ++ ["Kann den Header nicht holen"] }
      | some (trk0, trk1) => { state with
          place := .looping trk1.toNat
          track := trk0.toNat
          headline := some trk1.toNat }
  | .looping trk1 =>
      if state.track ≤ trk1 then
        match disc.entry (cdteTrack state.track) with
        | none => { state with
            place := .exited
            stderr := state.stderr ++ ["Kann den Inhalt der CD nicht ermitteln"] }
        | some entry => { state with
            track := state.track + 1
            lines := state.lines ++ [⟨state.track, entry⟩] }
      else { state with place := .returned }
  | .returned | .exited => state

/-- `content_cdrom` before its first call. -/
def start : State := ⟨.header, 0, none, [], []⟩

/-- The function has returned, or the program has exited. -/
def State.Ended (state : State) : Prop :=
  state.place = .returned ∨ state.place = .exited

/-- The lines that are printed for these tracks. -/
structure Lines (disc : Disc) (trk0 trk1 : ℕ) (lines : List Line) : Prop where
  tracks : lines.map Line.track = List.range' trk0 lines.length
  entries : ∀ line ∈ lines, disc.entry line.track = some line.entry
  bound : lines ≠ [] → trk0 + lines.length ≤ trk1 + 1

/-- How far the listing has come. -/
inductive Sound (disc : Disc) : State → Prop
  | header : Sound disc start
  | missing (none_ : disc.header = none) (stderr : List String) :
      Sound disc ⟨.exited, 0, none, [], stderr⟩
  | looping {trk0 trk1 : Byte} {lines : List Line} (found : disc.header = some (trk0, trk1))
      (listed : Lines disc trk0.toNat trk1.toNat lines) (stderr : List String) :
      Sound disc ⟨.looping trk1.toNat, trk0.toNat + lines.length, some trk1.toNat, lines, stderr⟩
  | returned {trk0 trk1 : Byte} {lines : List Line} (found : disc.header = some (trk0, trk1))
      (listed : Lines disc trk0.toNat trk1.toNat lines)
      (behind : trk1.toNat < trk0.toNat + lines.length) (stderr : List String) :
      Sound disc ⟨.returned, trk0.toNat + lines.length, some trk1.toNat, lines, stderr⟩
  | exited {trk0 trk1 : Byte} {lines : List Line} (found : disc.header = some (trk0, trk1))
      (listed : Lines disc trk0.toNat trk1.toNat lines)
      (inside : trk0.toNat + lines.length ≤ trk1.toNat)
      (none_ : disc.entry (trk0.toNat + lines.length) = none) (stderr : List String) :
      Sound disc ⟨.exited, trk0.toNat + lines.length, some trk1.toNat, lines, stderr⟩

variable {disc : Disc} {state : State} {trk0 trk1 : ℕ} {lines : List Line}

theorem Lines.nil : Lines disc trk0 trk1 [] := ⟨rfl, nofun, absurd rfl⟩

/-- The next line. -/
theorem Lines.concat (listed : Lines disc trk0 trk1 lines) {entry : TocEntry}
    (inside : trk0 + lines.length ≤ trk1)
    (found : disc.entry (trk0 + lines.length) = some entry) :
    Lines disc trk0 trk1 (lines ++ [⟨trk0 + lines.length, entry⟩]) where
  tracks := by
    rw [List.map_append, listed.tracks, List.length_append, List.range'_append_1.symm]
    rfl
  entries line there := by
    rcases List.mem_append.mp there with there | there
    · exact listed.entries line there
    · rw [List.mem_singleton.mp there]
      exact found
  bound _ := by
    rw [List.length_append, List.length_singleton]
    omega

theorem cdteTrack_byte {track : ℕ} {last : Byte} (small : track ≤ last.toNat) :
    cdteTrack track = track :=
  cdteTrack_natCast (Nat.lt_of_le_of_lt small last.toNat_lt)

theorem Sound.step (sound : Sound disc state) : Sound disc (step disc state) := by
  cases sound with
  | header =>
      rw [CdContent.step]
      dsimp only [start]
      split
      · exact .missing ‹_› _
      · exact .looping ‹_› .nil _
  | missing none_ stderr => exact .missing none_ stderr
  | looping found listed stderr =>
      rw [CdContent.step]
      dsimp only
      split
      · rename_i inside
        rw [cdteTrack_byte inside]
        split
        · exact .exited found listed inside ‹_› _
        · rename_i entry there
          have longer := listed.concat inside there
          have next := Sound.looping found longer stderr
          rw [List.length_append] at next
          exact next
      · exact .returned found listed (by omega) _
  | returned found listed behind stderr => exact .returned found listed behind stderr
  | exited found listed inside none_ stderr => exact .exited found listed inside none_ stderr

/-- How many steps are left at most. -/
def State.left (state : State) : ℕ :=
  match state.place with
  | .header => 258
  | .looping trk1 => trk1 + 1 - state.track + 1
  | .returned | .exited => 0

theorem left_lt (sound : Sound disc state) (goesOn : ¬ state.Ended) :
    (CdContent.step disc state).left < state.left := by
  cases sound with
  | header =>
      rw [CdContent.step]
      dsimp only [start]
      split
      · exact Nat.zero_lt_succ _
      · rename_i trk0 trk1 found
        have small := trk1.toNat_lt
        simp only [State.left]
        omega
  | looping found listed stderr =>
      rw [CdContent.step]
      dsimp only
      split
      · rename_i inside
        split
        · simp only [State.left]
          omega
        · simp only [State.left]
          omega
      · simp only [State.left]
        omega
  | missing none_ stderr => exact absurd (.inr rfl) goesOn
  | returned found listed behind stderr => exact absurd (.inl rfl) goesOn
  | exited found listed inside none_ stderr => exact absurd (.inr rfl) goesOn

/-- What is promised for a disc with these tracks. -/
structure Listed (disc : Disc) (trk0 trk1 : ℕ) (state : State) : Prop where
  /-- there is a line for each track up to the first one without an entry -/
  tracks : state.lines.map Line.track =
    (List.range' trk0 (trk1 + 1 - trk0)).takeWhile fun track => (disc.entry track).isSome
  entries : ∀ line ∈ state.lines, disc.entry line.track = some line.entry
  /-- the function returns if no entry is missing -/
  whole : state.place = .returned ↔
    ∀ track, trk0 ≤ track → track ≤ trk1 → disc.entry track ≠ none
  /-- the number in the headline is the number of the last track, which is the number of tracks if
  the first one is track 1 -/
  headline : state.headline = some trk1
  counted : state.place = .returned → trk0 ≤ trk1 → (state.lines.length = trk1 ↔ trk0 = 1)
  /-- a line can be read back, and its last numbers make up the address of the track -/
  readable : ∀ line ∈ state.lines, ∃ frames minutes : ℤ,
    scanFields (line.fields.map Field.literal) line.text =
      some ([(line.track : ℤ), line.entry.addr.minute.toNat, line.entry.addr.second.toNat,
        line.entry.addr.frame.toNat, frames, minutes], line.kind) ∧
      frames + minutes + 150 = (line.entry.addr.minute.toNat * 60 +
        line.entry.addr.second.toNat) * 75 + line.entry.addr.frame.toNat
  /-- a track is played up to the next line -/
  played : ∀ (front back : List Line) (first second : Line) (playMsf : CdromMsf → Bool),
    state.lines = front ++ first :: second :: back → first.track ≠ 0 →
      (playCdrom (disc.drive playMsf) first.track).issued =
        [between first.entry.addr second.entry.addr]

/-- The tracks of the lines have their entries. -/
theorem Lines.isSome (listed : Lines disc trk0 trk1 lines) :
    ∀ track ∈ lines.map Line.track, (disc.entry track).isSome := by
  intro track member
  obtain ⟨line, there, rfl⟩ := List.mem_map.mp member
  rw [listed.entries line there]
  rfl

/-- The listing has come to the last track. -/
theorem Lines.length_of_behind (listed : Lines disc trk0 trk1 lines)
    (behind : trk1 < trk0 + lines.length) : lines.length = trk1 + 1 - trk0 := by
  by_cases none_ : lines = []
  · subst none_
    rw [List.length_nil] at behind ⊢
    omega
  · have bound := listed.bound none_
    omega

theorem Lines.tracks_of_behind (listed : Lines disc trk0 trk1 lines)
    (behind : trk1 < trk0 + lines.length) : lines.map Line.track =
      (List.range' trk0 (trk1 + 1 - trk0)).takeWhile fun track => (disc.entry track).isSome := by
  rw [← listed.length_of_behind behind, ← listed.tracks, List.takeWhile_eq_self_iff.mpr]
  exact listed.isSome

theorem Lines.tracks_of_missing (listed : Lines disc trk0 trk1 lines)
    (inside : trk0 + lines.length ≤ trk1) (none_ : disc.entry (trk0 + lines.length) = none) :
    lines.map Line.track =
      (List.range' trk0 (trk1 + 1 - trk0)).takeWhile fun track => (disc.entry track).isSome := by
  have split : List.range' trk0 (trk1 + 1 - trk0) = lines.map Line.track ++
      (trk0 + lines.length) ::
        List.range' (trk0 + lines.length + 1) (trk1 - trk0 - lines.length) := by
    rw [listed.tracks, ← List.range'_succ, List.range'_append_1]
    congr 1
    omega
  rw [split, List.takeWhile_append_of_pos listed.isSome, List.takeWhile_cons_of_neg, List.append_nil]
  rw [none_]
  exact Bool.false_ne_true

/-- Neighbouring lines are about neighbouring tracks. -/
theorem Lines.next (listed : Lines disc trk0 trk1 lines) {front back : List Line}
    {first second : Line} (split : lines = front ++ first :: second :: back) :
    second.track = first.track + 1 := by
  have tracks := listed.tracks
  rw [split] at tracks
  have here (line : Line) (position : ℕ)
      (there : (front ++ first :: second :: back)[position]? = some line) :
      line.track = trk0 + position := by
    have same := congrArg (·[position]?) tracks
    rw [List.getElem?_map, there, Option.map_some, List.getElem?_range'] at same
    · simpa using same
    · exact (List.getElem?_eq_some_iff.mp there).1
  have one := here first front.length (by simp)
  have two := here second (front.length + 1) (by simp)
  omega

/-- With both entries there, they are where the playing starts and stops. -/
theorem issued_of_entries {drive : Drive} {track : ℕ} {first second : Msf}
    (start : drive.readTocEntry (cdteTrack track) = some first)
    (stop : drive.readTocEntry (cdteTrack ((track : ℤ) + 1)) = some second) (positive : track ≠ 0) :
    (playCdrom drive track).issued = [between first second] := by
  have other : (track : ℤ) ≠ full := by
    rw [full]
    omega
  simp only [playCdrom, bounds, if_neg other, start, stop]
  split <;> rfl

theorem Lines.played {last : Byte} (listed : Lines disc trk0 last.toNat lines)
    {front back : List Line} {first second : Line} (playMsf : CdromMsf → Bool)
    (split : lines = front ++ first :: second :: back) (positive : first.track ≠ 0) :
    (playCdrom (disc.drive playMsf) first.track).issued =
      [between first.entry.addr second.entry.addr] := by
  have adjacent := listed.next split
  have one : first ∈ lines := split ▸ List.mem_append_right _ List.mem_cons_self
  have two : second ∈ lines :=
    split ▸ List.mem_append_right _ (List.mem_cons_of_mem _ List.mem_cons_self)
  have small : second.track ≤ last.toNat := by
    have member := List.mem_map_of_mem (f := Line.track) two
    rw [listed.tracks, List.mem_range'_1] at member
    have bound := listed.bound (List.ne_nil_of_mem one)
    omega
  refine issued_of_entries ?_ ?_ positive
  · rw [cdteTrack_byte (by omega : first.track ≤ last.toNat)]
    exact congrArg (Option.map TocEntry.addr) (listed.entries first one)
  · rw [show (first.track : ℤ) + 1 = (second.track : ℕ) by omega, cdteTrack_byte small]
    exact congrArg (Option.map TocEntry.addr) (listed.entries second two)

/-- A line is read back. -/
theorem readable {line : Line} {last : Byte} (small : line.track ≤ last.toNat) :
    ∃ frames minutes : ℤ, scanFields (line.fields.map Field.literal) line.text =
      some ([(line.track : ℤ), line.entry.addr.minute.toNat, line.entry.addr.second.toNat,
        line.entry.addr.frame.toNat, frames, minutes], line.kind) ∧
      frames + minutes + 150 = (line.entry.addr.minute.toNat * 60 +
        line.entry.addr.second.toNat) * 75 + line.entry.addr.frame.toNat := by
  refine ⟨line.frames, line.minutes, ?_, ?_⟩
  · have read := scanFields_line line.fields line.kind
    have numbers : line.fields.map Field.number = [(line.track : ℤ),
        line.entry.addr.minute.toNat, line.entry.addr.second.toNat,
        line.entry.addr.frame.toNat, line.frames, line.minutes] := by
      simp only [Line.fields, List.map_cons, List.map_nil, Field.spaces, Field.zeros,
        cdteTrack_byte small]
    rw [numbers] at read
    exact read
  · rw [Line.frames, Line.minutes]
    omega

/-- What is promised for `content_cdrom`. -/
def Content (disc : Disc) (state : State) : Prop :=
  match disc.header with
  | none => state.place = .exited ∧ state.headline = none ∧ state.lines = []
  | some (trk0, trk1) => Listed disc trk0.toNat trk1.toNat state

theorem Lines.listed {last : Byte} {state : State} (listed : Lines disc trk0 last.toNat state.lines)
    (headline : state.headline = some last.toNat)
    (place : state.place = .returned ∧ last.toNat < trk0 + state.lines.length ∨
      state.place = .exited ∧ trk0 + state.lines.length ≤ last.toNat ∧
        disc.entry (trk0 + state.lines.length) = none) : Listed disc trk0 last.toNat state where
  tracks := by
    rcases place with ⟨-, behind⟩ | ⟨-, inside, none_⟩
    · exact listed.tracks_of_behind behind
    · exact listed.tracks_of_missing inside none_
  entries := listed.entries
  whole := by
    rcases place with ⟨returned, behind⟩ | ⟨exited, inside, none_⟩
    · refine iff_of_true returned fun track first most none_ => ?_
      have member : track ∈ state.lines.map Line.track := by
        rw [listed.tracks, List.mem_range'_1]
        omega
      have found := listed.isSome track member
      rw [none_] at found
      cases found
    · refine iff_of_false ?_ fun found => found _ (Nat.le_add_right ..) inside none_
      rw [exited]
      exact nofun
  headline := headline
  counted returned ordered := by
    rcases place with ⟨-, behind⟩ | ⟨exited, -⟩
    · have length := listed.length_of_behind behind
      omega
    · cases exited.symm.trans returned
  readable line there := by
    have member := List.mem_map_of_mem (f := Line.track) there
    rw [listed.tracks, List.mem_range'_1] at member
    have bound := listed.bound (List.ne_nil_of_mem there)
    exact CdContent.readable (by omega : line.track ≤ last.toNat)
  played _ _ _ _ playMsf split positive := listed.played playMsf split positive

/-- **The listing.** `content_cdrom` comes to its end on every disc. Its lines are the entries from
the first track to the last one, or to the first that is missing; they can be read back, and a track
is played from its line to the next one. -/
theorem listed_of_content (disc : Disc) :
    ∃ final, Reaches (step disc) start final ∧ final.Ended ∧ Content disc final := by
  have completes : Completes (step disc) State.Ended (Sound disc) start :=
    completes_of_measure State.left (fun _ sound => sound.step) (fun _ => left_lt) .header
  obtain ⟨⟨final, reached, ended⟩, sound⟩ := completes
  refine ⟨final, reached, ended, ?_⟩
  rw [Content]
  cases sound final reached with
  | header => exact absurd ended (by rintro (place | place) <;> cases place)
  | missing none_ stderr =>
      rw [none_]
      exact ⟨rfl, rfl, rfl⟩
  | looping found listed stderr => exact absurd ended (by rintro (place | place) <;> cases place)
  | returned found listed behind stderr =>
      rw [found]
      exact listed.listed rfl (.inl ⟨rfl, behind⟩)
  | exited found listed inside none_ stderr =>
      rw [found]
      exact listed.listed rfl (.inr ⟨rfl, inside, none_⟩)

/-- A disc of two tracks. -/
def twoEntries : Disc where
  header := some (1, 2)
  entry track := if track ≤ 2 then some ⟨⟨4, 2, track.toUInt8⟩, 4 * track⟩ else none

example : ((step twoEntries)^[4] start).place = .returned := by decide

end LinuxUnix.CdContent
